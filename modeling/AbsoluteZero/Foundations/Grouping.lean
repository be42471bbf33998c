import AbsoluteZero.Foundations.OrderedDict
import AbsoluteZero.Foundations.SortedSet
import Mathlib.Data.List.Induction

/-!
# Grouping by a key

`groupBy key items` is the dict that a loop of `groups.setdefault(key(item), []).append(item)`
builds (`get?_groupBy`, `mem_keys_groupBy`). What is read from it in sorted order does not depend on
the order of the items (`sortedBy_keys_groupBy`, `sortedBy_of_perm`, `SortedSet.ofList_congr`).
-/

namespace AbsoluteZero.Foundations

open List

section Groups

variable {Item Key : Type} [DecidableEq Key]

/-- One turn of the loop. -/
def addToGroup (key : Item → Key) (groups : OrderedDict Key (List Item)) (item : Item) :
    OrderedDict Key (List Item) :=
  groups.insert (key item) ((groups.get? (key item)).getD [] ++ [item])

variable (key : Item → Key) (items : List Item)

def groupBy : OrderedDict Key (List Item) :=
  items.foldl (addToGroup key) .empty

theorem get?_groupBy (group : Key) :
    (groupBy key items).get? group =
      if ∃ item ∈ items, key item = group then some (items.filter fun item ↦ key item = group)
      else none := by
  induction items using List.reverseRecOn with
  | nil => simp [groupBy, OrderedDict.empty, OrderedDict.get?]
  | append_singleton earlier item ih =>
    have hloop : groupBy key (earlier ++ [item]) = addToGroup key (groupBy key earlier) item := by
      rw [groupBy, foldl_append]
      rfl
    rw [hloop, addToGroup, OrderedDict.get?_insert, filter_append]
    by_cases hgroup : key item = group
    · subst hgroup
      rw [if_pos rfl, if_pos ⟨item, by simp, rfl⟩, ih]
      by_cases hearlier : ∃ other ∈ earlier, key other = key item
      · rw [if_pos hearlier]
        simp
      · rw [if_neg hearlier]
        have hnone : earlier.filter (fun other ↦ key other = key item) = [] := by
          rw [filter_eq_nil_iff]
          intro other hother heq
          exact hearlier ⟨other, hother, of_decide_eq_true heq⟩
        simp [hnone]
    · rw [if_neg hgroup, ih]
      simp [hgroup]

theorem getD_groupBy (group : Key) :
    ((groupBy key items).get? group).getD [] = items.filter fun item ↦ key item = group := by
  rw [get?_groupBy]
  split
  · rfl
  · next hnone =>
    symm
    rw [Option.getD_none, filter_eq_nil_iff]
    intro item hitem heq
    exact hnone ⟨item, hitem, of_decide_eq_true heq⟩

@[simp] theorem mem_keys_groupBy {key : Item → Key} {items : List Item} {group : Key} :
    group ∈ (groupBy key items).keys ↔ ∃ item ∈ items, key item = group := by
  rw [← OrderedDict.exists_get?_iff, get?_groupBy]
  split <;> simp_all

theorem mem_items_groupBy {key : Item → Key} {items : List Item} {group : Key}
    {members : List Item} : (group, members) ∈ (groupBy key items).items ↔
      members = (items.filter fun item ↦ key item = group) ∧ members ≠ [] := by
  rw [← OrderedDict.get?_eq_some_iff, get?_groupBy]
  by_cases hsome : ∃ item ∈ items, key item = group
  · rw [if_pos hsome, Option.some.injEq, eq_comm, iff_self_and]
    rintro rfl
    obtain ⟨item, hitem, hkey⟩ := hsome
    exact ne_nil_of_mem (mem_filter.mpr ⟨hitem, decide_eq_true hkey⟩)
  · rw [if_neg hsome]
    refine iff_of_false (by simp) ?_
    rintro ⟨rfl, hne⟩
    obtain ⟨item, hitem⟩ := exists_mem_of_ne_nil _ hne
    rw [mem_filter] at hitem
    exact hsome ⟨item, hitem.1, of_decide_eq_true hitem.2⟩

end Groups

/-! ### Sorted readings -/

section Sorted

variable {Item Key : Type} [LinearOrder Key]

/-- Assumes: the items have different keys. Sorting them by the key forgets their order. -/
theorem sortedBy_of_perm {key : Item → Key} {items items' : List Item}
    (hkeys : (items.map key).Nodup) (hperm : items.Perm items') :
    sortedBy key items = sortedBy key items' := by
  have hsorted : (sortedBy key items).Perm (sortedBy key items') :=
    (perm_sortedBy key items).trans (hperm.trans (perm_sortedBy key items').symm)
  refine hsorted.eq_of_pairwise (fun first second hfirst hsecond hle hge ↦ ?_)
    (pairwise_sortedBy key items) (pairwise_sortedBy key items')
  have hsecond' : second ∈ items := hperm.mem_iff.mpr (mem_sortedBy.mp hsecond)
  exact inj_on_of_nodup_map hkeys (mem_sortedBy.mp hfirst) hsecond' (le_antisymm hle hge)

/-- Assumes: the items have different keys. Selecting some of them commutes with sorting. -/
theorem filter_sortedBy {key : Item → Key} {items : List Item} (hkeys : (items.map key).Nodup)
    (property : Item → Bool) :
    (sortedBy key items).filter property = sortedBy key (items.filter property) := by
  have hperm : ((sortedBy key items).filter property).Perm (sortedBy key (items.filter property)) :=
    ((perm_sortedBy key items).filter property).trans (perm_sortedBy key _).symm
  refine hperm.eq_of_pairwise (fun first second hfirst hsecond hle hge ↦ ?_)
    ((pairwise_sortedBy key items).filter property) (pairwise_sortedBy key _)
  exact inj_on_of_nodup_map hkeys (mem_sortedBy.mp (mem_filter.mp hfirst).1)
    (mem_filter.mp (mem_sortedBy.mp hsecond)).1 (le_antisymm hle hge)

theorem sortedBy_keys_groupBy [DecidableEq Key] (key : Item → Key) {items items' : List Item}
    (hperm : items.Perm items') :
    sortedBy id (groupBy key items).keys = sortedBy id (groupBy key items').keys := by
  refine sortedBy_eq_of_perm ?_
  refine (perm_ext_iff_of_nodup (groupBy key items).nodup (groupBy key items').nodup).mpr
    fun group ↦ ?_
  change group ∈ (groupBy key items).keys ↔ group ∈ (groupBy key items').keys
  simp only [mem_keys_groupBy, hperm.mem_iff]

end Sorted

namespace SortedSet

variable {Item : Type} [LinearOrder Item]

theorem ext_of_mem {first second : SortedSet Item} (hmem : ∀ item, item ∈ first ↔ item ∈ second) :
    first = second := by
  obtain ⟨elements, hsorted⟩ := first
  obtain ⟨elements', hsorted'⟩ := second
  have hnodup : elements.Nodup := hsorted.imp fun hlt ↦ hlt.ne
  have hnodup' : elements'.Nodup := hsorted'.imp fun hlt ↦ hlt.ne
  have hperm : elements.Perm elements' := (perm_ext_iff_of_nodup hnodup hnodup').mpr hmem
  have heq : elements = elements' :=
    hperm.eq_of_pairwise (fun _ _ _ _ hlt hgt ↦ absurd hlt hgt.asymm) hsorted hsorted'
  subst heq
  rfl

theorem ofList_congr {items items' : List Item} (hmem : ∀ item, item ∈ items ↔ item ∈ items') :
    ofList items = ofList items' :=
  ext_of_mem fun item ↦ by rw [mem_ofList, mem_ofList, hmem]

end SortedSet

end AbsoluteZero.Foundations

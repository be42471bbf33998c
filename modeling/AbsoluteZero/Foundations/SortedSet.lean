import Mathlib.Data.List.Sort

/-!
# Sorted lists and sets

`sortedBy key` is Python's stable `sorted(..., key=key)`. A `SortedSet` is a finite set over a
linear order, kept as the strictly increasing list of its elements, so that `sorted(set)` is that
list.
-/

namespace AbsoluteZero.Foundations

open List

/-- `sorted(items, key=key)`. -/
def sortedBy {Item Key : Type} [LinearOrder Key] (key : Item → Key) (items : List Item) :
    List Item :=
  items.insertionSort fun first second ↦ key first ≤ key second

variable {Item Key : Type}

theorem perm_sortedBy [LinearOrder Key] (key : Item → Key) (items : List Item) :
    (sortedBy key items).Perm items :=
  perm_insertionSort _ items

@[simp] theorem mem_sortedBy [LinearOrder Key] {key : Item → Key}
    {items : List Item} {item : Item} : item ∈ sortedBy key items ↔ item ∈ items :=
  (perm_sortedBy key items).mem_iff

theorem sortedBy_eq_nil [LinearOrder Key] {key : Item → Key}
    {items : List Item} : sortedBy key items = [] ↔ items = [] := by
  rw [← length_eq_zero_iff, (perm_sortedBy key items).length_eq, length_eq_zero_iff]

theorem pairwise_sortedBy [LinearOrder Key] (key : Item → Key) (items : List Item) :
    (sortedBy key items).Pairwise fun first second ↦ key first ≤ key second := by
  exact pairwise_insertionSort _ items

theorem sortedBy_map {Item Item' Key : Type} [LinearOrder Key] {key : Item → Key}
    {key' : Item' → Key} {copy : Item → Item'} (hkey : ∀ item, key' (copy item) = key item)
    (items : List Item) : sortedBy key' (items.map copy) = (sortedBy key items).map copy := by
  refine (map_insertionSort _ _ copy items fun first _ second _ ↦ ?_).symm
  rw [hkey, hkey]

theorem sortedBy_sortedBy [LinearOrder Key] (key : Item → Key)
    (items : List Item) : sortedBy key (sortedBy key items) = sortedBy key items :=
  (pairwise_sortedBy key items).insertionSort_eq

theorem head_sortedBy [LinearOrder Key] {key : Item → Key}
    {items rest : List Item} {first : Item} (hsorted : sortedBy key items = first :: rest) :
    first ∈ items ∧ ∀ item ∈ items, key first ≤ key item := by
  have hmem : ∀ item, item ∈ items ↔ item ∈ first :: rest := by
    intro item
    rw [← hsorted, mem_sortedBy]
  refine ⟨(hmem first).mpr mem_cons_self, fun item hitem ↦ ?_⟩
  have hpairwise := pairwise_sortedBy key items
  rw [hsorted] at hpairwise
  rcases mem_cons.mp ((hmem item).mp hitem) with rfl | hrest
  · exact le_refl _
  · exact (pairwise_cons.mp hpairwise).1 item hrest

theorem sortedBy_eq_of_perm {Item : Type} [LinearOrder Item] {items items' : List Item}
    (hperm : items.Perm items') : sortedBy id items = sortedBy id items' := by
  have hsorted : (sortedBy id items).Perm (sortedBy id items') :=
    (perm_sortedBy id items).trans (hperm.trans (perm_sortedBy id items').symm)
  exact hsorted.eq_of_pairwise (fun _ _ _ _ ↦ le_antisymm) (pairwise_sortedBy id items)
    (pairwise_sortedBy id items')

/-- A finite set: its elements in strictly increasing order. -/
structure SortedSet (Item : Type) [LinearOrder Item] where
  elements : List Item
  sorted : elements.Pairwise (· < ·)
  deriving DecidableEq

/-- Pairs of names are told apart by `==`. -/
instance lawfulBEqNames : LawfulBEq (String × String) := inferInstance

namespace SortedSet

variable {Item : Type} [LinearOrder Item]

theorem lawfulBEqItems (Item : Type) [LinearOrder Item] : LawfulBEq Item := inferInstance

instance : Membership Item (SortedSet Item) := ⟨fun set item ↦ item ∈ set.elements⟩

instance (item : Item) (set : SortedSet Item) : Decidable (item ∈ set) :=
  haveI := lawfulBEqItems Item
  inferInstanceAs (Decidable (item ∈ set.elements))

variable {set : SortedSet Item} {item : Item}

theorem mem_elements : item ∈ set.elements ↔ item ∈ set :=
  Iff.rfl

def empty : SortedSet Item := ⟨[], List.Pairwise.nil⟩

/-- Insert an item into a strictly increasing list, unless it is there. -/
def insertItem (item : Item) : List Item → List Item
  | [] => [item]
  | head :: rest =>
    if item < head then item :: head :: rest
    else if item = head then head :: rest
    else head :: insertItem item rest

variable {items : List Item}

theorem mem_insertItem {item other : Item} :
    other ∈ insertItem item items ↔ other = item ∨ other ∈ items := by
  induction items with
  | nil => simp [insertItem]
  | cons head rest ih =>
    unfold insertItem
    split
    · simp
    · split
      · next heq => simp [heq]
      · simp only [mem_cons, ih]
        exact or_left_comm

theorem pairwise_insertItem (hitems : items.Pairwise (· < ·)) :
    (insertItem item items).Pairwise (· < ·) := by
  induction items with
  | nil => simp [insertItem]
  | cons head rest ih =>
    obtain ⟨hhead, hrest⟩ := pairwise_cons.mp hitems
    unfold insertItem
    split
    · next hlt =>
      refine pairwise_cons.mpr ⟨fun other hother ↦ ?_, hitems⟩
      rcases mem_cons.mp hother with rfl | hmem
      · exact hlt
      · exact hlt.trans (hhead other hmem)
    · next hnot =>
      split
      · exact hitems
      · next hne =>
        refine pairwise_cons.mpr ⟨fun other hother ↦ ?_, ih hrest⟩
        rcases mem_insertItem.mp hother with rfl | hmem
        · exact lt_of_le_of_ne (not_lt.mp hnot) (Ne.symm hne)
        · exact hhead other hmem

/-- `set.add(item)`. -/
def insert (item : Item) (set : SortedSet Item) : SortedSet Item :=
  ⟨insertItem item set.elements, pairwise_insertItem set.sorted⟩

/-- `set.update(items)`. -/
def update (items : List Item) (set : SortedSet Item) : SortedSet Item :=
  items.foldl (fun set item ↦ set.insert item) set

/-- `set(items)`. -/
def ofList (items : List Item) : SortedSet Item := update items empty

@[simp] theorem notMem_empty (item : Item) : item ∉ (empty : SortedSet Item) := not_mem_nil

@[simp] theorem mem_insert {item other : Item} :
    other ∈ set.insert item ↔ other = item ∨ other ∈ set := mem_insertItem

@[simp] theorem mem_update : item ∈ set.update items ↔ item ∈ items ∨ item ∈ set := by
  induction items generalizing set with
  | nil => simp [update]
  | cons head rest ih =>
    change item ∈ (set.insert head).update rest ↔ _
    rw [ih, mem_insert, mem_cons, or_assoc]
    exact or_left_comm

@[simp] theorem mem_ofList : item ∈ ofList items ↔ item ∈ items := by
  simp [ofList]

end SortedSet

end AbsoluteZero.Foundations

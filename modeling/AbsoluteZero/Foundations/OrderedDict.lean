import Mathlib.Data.List.Nodup

/-!
# Dictionaries in insertion order

A finite map kept as the list of its items in the order in which their keys were first inserted,
duplicate-free by construction. Writing a key that is present keeps its position, so every operation
is determined by its effect on lookups and on the order of the keys.
-/

namespace AbsoluteZero.Foundations

open List

/-- A dictionary: its items in insertion order, no key twice. -/
structure OrderedDict (Key Value : Type) where
  items : List (Key × Value)
  nodup : (items.map Prod.fst).Nodup

namespace OrderedDict

variable {Key Value : Type} [DecidableEq Key]

omit [DecidableEq Key] in
@[ext] theorem ext {first second : OrderedDict Key Value} (hitems : first.items = second.items) :
    first = second := by
  cases first
  cases second
  cases hitems
  rfl

instance [DecidableEq Value] : DecidableEq (OrderedDict Key Value) := fun first second ↦
  decidable_of_iff (first.items = second.items) ⟨ext, congrArg items⟩

/-! ### Operations -/

/-- The dictionary with no items. -/
def empty : OrderedDict Key Value := ⟨[], List.nodup_nil⟩

variable (dict : OrderedDict Key Value)

def keys : List Key := dict.items.map Prod.fst

def values : List Value := dict.items.map Prod.snd

def find (key : Key) : List (Key × Value) → Option Value
  | [] => none
  | item :: rest => if item.1 = key then some item.2 else find key rest

variable (key : Key)

def get? : Option Value := find key dict.items

/-- Overwrite the value of a key in an item list, or append the item when the key is absent. -/
def upsert (key : Key) (value : Value) : List (Key × Value) → List (Key × Value)
  | [] => [(key, value)]
  | item :: rest => if item.1 = key then (key, value) :: rest else item :: upsert key value rest

variable {value : Value} {items : List (Key × Value)}

theorem map_fst_upsert_of_mem {key : Key} (hkey : key ∈ items.map Prod.fst) :
    (upsert key value items).map Prod.fst = items.map Prod.fst := by
  induction items with
  | nil => simp at hkey
  | cons item rest ih =>
    by_cases hitem : item.1 = key
    · simp [upsert, hitem]
    · have hrest : key ∈ rest.map Prod.fst := by
        rcases mem_cons.mp hkey with hhead | htail
        · exact absurd hhead.symm hitem
        · exact htail
      simp only [upsert, if_neg hitem, map_cons, ih hrest]

theorem upsert_of_notMem {key : Key}
    (hkey : key ∉ items.map Prod.fst) : upsert key value items = items ++ [(key, value)] := by
  induction items with
  | nil => rfl
  | cons item rest ih =>
    simp only [map_cons, mem_cons, not_or] at hkey
    have hitem : ¬ item.1 = key := fun heq ↦ hkey.1 heq.symm
    simp only [upsert, if_neg hitem, ih hkey.2, cons_append]

theorem nodup_upsert {key : Key} {value : Value} {items : List (Key × Value)}
    (hitems : (items.map Prod.fst).Nodup) : ((upsert key value items).map Prod.fst).Nodup := by
  by_cases hkey : key ∈ items.map Prod.fst
  · rwa [map_fst_upsert_of_mem hkey]
  · rw [upsert_of_notMem hkey, map_append]
    exact List.nodup_append.mpr ⟨hitems, by simp, by
      intro other hother last hlast heq
      simp only [map_cons, map_nil, mem_singleton] at hlast
      exact hkey (hlast ▸ heq ▸ hother)⟩

/-- Write a value under a key: in place when the key is present, at the end otherwise. -/
def insert (value : Value) : OrderedDict Key Value :=
  ⟨upsert key value dict.items, nodup_upsert dict.nodup⟩

/-- Drop a key and its value; a no-op when the key is absent. -/
def erase : OrderedDict Key Value :=
  ⟨dict.items.filter fun item ↦ item.1 ≠ key,
    (List.filter_sublist.map Prod.fst).nodup dict.nodup⟩

/-! ### Lookups -/

@[simp] theorem find_nil : find key ([] : List (Key × Value)) = none := rfl

theorem find_cons (item : Key × Value) (rest : List (Key × Value)) :
    find key (item :: rest) = if item.1 = key then some item.2 else find key rest := rfl

theorem find_append (items others : List (Key × Value)) :
    find key (items ++ others) = (find key items).or (find key others) := by
  induction items with
  | nil => rfl
  | cons item rest ih =>
    rw [cons_append, find_cons, find_cons, ih]
    by_cases hkey : item.1 = key
    · rw [if_pos hkey, if_pos hkey]
      rfl
    · rw [if_neg hkey, if_neg hkey]

@[simp] theorem get?_empty : (empty : OrderedDict Key Value).get? key = none := rfl

theorem find_upsert (key other : Key) (value : Value) (items : List (Key × Value)) :
    find other (upsert key value items) = if key = other then some value else find other items := by
  induction items with
  | nil => rfl
  | cons item rest ih =>
    by_cases hhead : item.1 = key
    · rw [upsert, if_pos hhead, find_cons, find_cons, hhead]
      by_cases hother : key = other <;> simp [hother]
    · rw [upsert, if_neg hhead, find_cons, find_cons, ih]
      by_cases hother : key = other
      · have hne : ¬ item.1 = other := fun heq ↦ hhead (heq.trans hother.symm)
        simp only [if_neg hne, if_pos hother]
      · simp only [if_neg hother]

theorem get?_insert (key other : Key) (value : Value) :
    (dict.insert key value).get? other = if key = other then some value else dict.get? other :=
  find_upsert key other value dict.items

@[simp] theorem get?_insert_self (value : Value) :
    (dict.insert key value).get? key = some value := by
  rw [get?_insert, if_pos rfl]

theorem find_filter_ne (key other : Key) (items : List (Key × Value)) :
    find other (items.filter fun item ↦ item.1 ≠ key) =
      if key = other then none else find other items := by
  induction items with
  | nil => simp
  | cons item rest ih =>
    by_cases hhead : item.1 = key
    · rw [filter_cons_of_neg (by simpa using hhead), ih, find_cons, hhead]
      by_cases hother : key = other <;> simp [hother]
    · rw [filter_cons_of_pos (by simpa using hhead), find_cons, find_cons, ih]
      by_cases hother : key = other
      · have hne : ¬ item.1 = other := fun heq ↦ hhead (heq.trans hother.symm)
        simp [hother, hne]
      · simp [hother]

section

variable (dict : OrderedDict Key Value)

theorem get?_erase (key other : Key) :
    (dict.erase key).get? other = if key = other then none else dict.get? other :=
  find_filter_ne key other dict.items

@[simp] theorem get?_erase_self :
    (dict.erase key).get? key = none := by
  rw [get?_erase, if_pos rfl]

theorem get?_erase_of_ne {key other : Key} (hne : key ≠ other) :
    (dict.erase key).get? other = dict.get? other := by
  rw [get?_erase, if_neg hne]

variable {dict}

theorem get?_of_erase {key other : Key} {value : Value}
    (hfound : (dict.erase key).get? other = some value) :
    key ≠ other ∧ dict.get? other = some value := by
  rw [get?_erase] at hfound
  split at hfound
  · cases hfound
  · next hne => exact ⟨hne, hfound⟩

end

theorem find_eq_some_iff {key : Key} (hitems : (items.map Prod.fst).Nodup) :
    find key items = some value ↔ (key, value) ∈ items := by
  induction items with
  | nil => simp
  | cons item rest ih =>
    obtain ⟨head, content⟩ := item
    simp only [map_cons, nodup_cons] at hitems
    by_cases hkey : head = key
    · subst hkey
      have habsent : (head, value) ∉ rest := fun hmem ↦
        hitems.1 (mem_map.mpr ⟨_, hmem, rfl⟩)
      simp [find_cons, habsent, eq_comm]
    · simp [find_cons, hkey, ih hitems.2, Ne.symm hkey]

theorem mem_of_find {key : Key} (hfind : find key items = some value) : (key, value) ∈ items := by
  induction items with
  | nil => simp at hfind
  | cons item rest ih =>
    rw [find_cons] at hfind
    split at hfind
    · next hkey =>
      cases hfind
      exact mem_cons.mpr (Or.inl (Prod.ext hkey.symm rfl))
    · exact mem_cons_of_mem _ (ih hfind)

theorem find_map {Key' Value' : Type} [DecidableEq Key'] (rename : Key → Key')
    (hrename : Function.Injective rename) (apply : Value → Value') (key : Key)
    (items : List (Key × Value)) :
    find (rename key) (items.map fun item ↦ (rename item.1, apply item.2)) =
      (find key items).map apply := by
  induction items with
  | nil => rfl
  | cons item rest ih =>
    rw [map_cons, find_cons, find_cons, ih]
    by_cases hkey : item.1 = key
    · rw [if_pos hkey, if_pos (congrArg rename hkey), Option.map_some]
    · rw [if_neg hkey, if_neg fun heq ↦ hkey (hrename heq)]

section

variable (dict : OrderedDict Key Value)

theorem get?_eq_some_iff {key : Key} :
    dict.get? key = some value ↔ (key, value) ∈ dict.items :=
  find_eq_some_iff dict.nodup

theorem get?_eq_none_iff {key : Key} :
    dict.get? key = none ↔ key ∉ dict.keys := by
  constructor
  · intro hnone hmem
    obtain ⟨⟨head, value⟩, hitem, rfl⟩ := mem_map.mp hmem
    rw [(get?_eq_some_iff dict).mpr hitem] at hnone
    exact Option.some_ne_none value hnone
  · intro habsent
    cases hget : dict.get? key with
    | none => rfl
    | some value =>
      exact absurd (mem_map.mpr ⟨_, (get?_eq_some_iff dict).mp hget, rfl⟩) habsent

theorem eq_insert_empty {key : Key} (hget : dict.get? key = some value)
    (hothers : ∀ other content, dict.get? other = some content → other = key) :
    dict = empty.insert key value := by
  obtain ⟨items, hnodup⟩ := dict
  ext1
  have hkeys : ∀ item ∈ items, item.1 = key := fun item hitem ↦
    hothers item.1 item.2 (find_eq_some_iff hnodup |>.mpr hitem)
  change items = [(key, value)]
  change find key items = some value at hget
  cases items with
  | nil => cases hget
  | cons item rest =>
    have hfirst : item.1 = key := hkeys item mem_cons_self
    have hrest : rest = [] := by
      refine eq_nil_iff_forall_not_mem.mpr fun other hother ↦ ?_
      refine (nodup_cons.mp hnodup).1 (mem_map.mpr ⟨other, hother, ?_⟩)
      rw [hkeys other (mem_cons_of_mem _ hother), hfirst]
    rw [find_cons, if_pos hfirst] at hget
    cases hget
    rw [hrest, ← hfirst]

end

section

variable (dict : OrderedDict Key Value)

@[simp] theorem insert_insert (first second : Value) :
    (dict.insert key first).insert key second = dict.insert key second := by
  ext1
  change upsert key second (upsert key first dict.items) = upsert key second dict.items
  induction dict.items with
  | nil => simp [upsert]
  | cons item rest ih =>
    by_cases hitem : item.1 = key <;> simp [upsert, hitem, ih]

theorem insert_of_get? {key : Key}
    (hget : dict.get? key = some value) : dict.insert key value = dict := by
  obtain ⟨items, hnodup⟩ := dict
  ext1
  change upsert key value items = items
  change find key items = some value at hget
  induction items with
  | nil => simp at hget
  | cons item rest ih =>
    obtain ⟨head, content⟩ := item
    by_cases hhead : head = key
    · subst hhead
      rw [find_cons, if_pos rfl] at hget
      have hcontent : content = value := Option.some.inj hget
      simp [upsert, hcontent]
    · rw [find_cons, if_neg hhead] at hget
      simp only [map_cons, nodup_cons] at hnodup
      simp only [upsert, if_neg hhead, ih hnodup.2 hget]

theorem items_foldl_erase (erased : List Key) :
    (erased.foldl erase dict).items = dict.items.filter fun item ↦ item.1 ∉ erased := by
  induction erased generalizing dict with
  | nil => simp
  | cons key rest ih =>
    rw [foldl_cons, ih]
    change (dict.items.filter fun item ↦ item.1 ≠ key).filter _ = _
    rw [filter_filter]
    refine filter_congr fun item _ ↦ ?_
    by_cases hkey : item.1 = key <;> simp [hkey]

end

theorem items_foldl_insert {Item : Type} (key : Item → Key) (value : Item → Value)
    (dict : OrderedDict Key Value) (written : List Item)
    (hkeys : (dict.keys ++ written.map key).Nodup) :
    (written.foldl (fun dict item ↦ dict.insert (key item) (value item)) dict).items =
      dict.items ++ written.map fun item ↦ (key item, value item) := by
  induction written generalizing dict with
  | nil => rw [foldl_nil, map_nil, append_nil]
  | cons item rest ih =>
    have hnew : key item ∉ dict.items.map Prod.fst := fun hmem ↦
      (List.nodup_append.mp hkeys).2.2 _ hmem _ mem_cons_self rfl
    have hitems : (dict.insert (key item) (value item)).items =
        dict.items ++ [(key item, value item)] := upsert_of_notMem hnew
    rw [foldl_cons, ih, hitems, append_assoc]
    · rfl
    · rw [keys, hitems, map_append, append_assoc]
      exact hkeys

/-- Writing one value under many keys: the lookup finds it under each of them. -/
theorem get?_foldl_insert (written : List Key) (value : Value)
    (other : Key) : (written.foldl (fun dict key ↦ dict.insert key value) dict).get? other =
      if other ∈ written then some value else dict.get? other := by
  induction written generalizing dict with
  | nil => rw [foldl_nil, if_neg not_mem_nil]
  | cons key rest ih =>
    rw [foldl_cons, ih, get?_insert]
    by_cases hrest : other ∈ rest
    · rw [if_pos hrest, if_pos (mem_cons_of_mem _ hrest)]
    · rw [if_neg hrest]
      by_cases hkey : key = other
      · rw [if_pos hkey, if_pos (hkey ▸ mem_cons_self)]
      · rw [if_neg hkey, if_neg fun hmem ↦ (mem_cons.mp hmem).elim (Ne.symm hkey) hrest]

/-- The dictionary with no key but the given one. -/
def only : OrderedDict Key Value :=
  ⟨dict.items.filter fun item ↦ item.1 = key, (List.filter_sublist.map Prod.fst).nodup dict.nodup⟩

section

variable (dict : OrderedDict Key Value)

@[simp] theorem get?_only_self :
    (dict.only key).get? key = dict.get? key := by
  change find key (dict.items.filter fun item ↦ item.1 = key) = find key dict.items
  induction dict.items with
  | nil => rfl
  | cons item rest ih =>
    by_cases hitem : item.1 = key
    · rw [filter_cons_of_pos (by simpa using hitem), find_cons, find_cons, if_pos hitem,
        if_pos hitem]
    · rw [filter_cons_of_neg (by simpa using hitem), ih, find_cons, if_neg hitem]

theorem only_insert_self (value : Value) :
    (dict.insert key value).only key = (dict.only key).insert key value := by
  ext1
  change (upsert key value dict.items).filter (fun item ↦ item.1 = key) =
    upsert key value (dict.items.filter fun item ↦ item.1 = key)
  induction dict.items with
  | nil => simp [upsert]
  | cons item rest ih =>
    by_cases hitem : item.1 = key
    · simp [upsert, hitem]
    · simp [upsert, hitem, ih]

theorem only_insert_of_ne {key other : Key} (value : Value)
    (hne : other ≠ key) : (dict.insert other value).only key = dict.only key := by
  ext1
  change (upsert other value dict.items).filter (fun item ↦ item.1 = key) =
    dict.items.filter fun item ↦ item.1 = key
  induction dict.items with
  | nil => simp [upsert, hne]
  | cons item rest ih =>
    by_cases hitem : item.1 = other
    · simp [upsert, hitem, hne]
    · rw [upsert, if_neg hitem, filter_cons, filter_cons, ih]

end

/-! ### Mapping the values -/

/-- The dictionary with a function applied to its values. -/
def mapValues {Value' : Type} (apply : Value → Value') (dict : OrderedDict Key Value) :
    OrderedDict Key Value' :=
  ⟨dict.items.map fun item ↦ (item.1, apply item.2), by
    rw [List.map_map]
    exact dict.nodup⟩

variable {Value' : Type}

section

variable (apply : Value → Value')

theorem get?_mapValues : (dict.mapValues apply).get? key = (dict.get? key).map apply :=
  find_map id Function.injective_id apply key dict.items

theorem mapValues_insert (value : Value) :
    (dict.insert key value).mapValues apply = (dict.mapValues apply).insert key (apply value) := by
  ext1
  change (upsert key value dict.items).map _ = upsert key (apply value) (dict.items.map _)
  induction dict.items with
  | nil => rfl
  | cons item rest ih =>
    by_cases hitem : item.1 = key <;> simp [upsert, hitem, ih]

theorem mapValues_erase : (dict.erase key).mapValues apply = (dict.mapValues apply).erase key := by
  ext1
  change (dict.items.filter _).map _ = (dict.items.map _).filter _
  rw [filter_map]
  rfl

/-- Writing under a present key a value that maps to what is there changes nothing after the map. -/
theorem mapValues_insert_of_get? {key : Key} {value old : Value}
    (hold : dict.get? key = some old) (hvalue : apply value = apply old) :
    (dict.insert key value).mapValues apply = dict.mapValues apply := by
  rw [mapValues_insert, hvalue]
  exact insert_of_get? _ (by rw [get?_mapValues, hold, Option.map_some])

end

theorem exists_get?_iff {key : Key} :
    (∃ value, dict.get? key = some value) ↔ key ∈ dict.keys := by
  rw [← Option.ne_none_iff_exists', ne_eq, dict.get?_eq_none_iff, not_not]

theorem mem_keys_insert {key other : Key} :
    other ∈ (dict.insert key value).keys ↔ other = key ∨ other ∈ dict.keys := by
  rw [← exists_get?_iff, ← exists_get?_iff, get?_insert]
  by_cases hkey : key = other
  · simp [hkey]
  · simp [hkey, Ne.symm hkey]

/-- `dict.update(other)`: the lookup finds what was written last. -/
theorem get?_update (dict other : OrderedDict Key Value) (key : Key) :
    (other.items.foldl (fun dict item ↦ dict.insert item.1 item.2) dict).get? key =
      (other.get? key).or (dict.get? key) := by
  unfold get?
  have hnodup := other.nodup
  generalize other.items = items at hnodup
  induction items generalizing dict with
  | nil => rfl
  | cons item rest ih =>
    rw [map_cons, nodup_cons] at hnodup
    rw [foldl_cons, ih _ hnodup.2, find_cons]
    change (find key rest).or ((dict.insert item.1 item.2).get? key) = _
    rw [get?_insert]
    split
    · next hkey =>
      have hnone : find key rest = none := by
        subst hkey
        exact ((⟨rest, hnodup.2⟩ : OrderedDict Key Value).get?_eq_none_iff).mpr hnodup.1
      rw [hnone]
      rfl
    · rfl

def KeyedBy (key : Value → Key) (dict : OrderedDict Key Value) : Prop :=
  ∀ name value, dict.get? name = some value → key value = name

section Keyed

variable {key : Value → Key} {dict : OrderedDict Key Value}

theorem KeyedBy.insert (hkeyed : dict.KeyedBy key) (value : Value) :
    (dict.insert (key value) value).KeyedBy key := by
  intro name other hother
  rw [get?_insert] at hother
  split at hother
  · next heq =>
    cases hother
    exact heq
  · exact hkeyed name other hother

theorem KeyedBy.items_eq (hkeyed : dict.KeyedBy key) :
    dict.items = dict.values.map fun value ↦ (key value, value) := by
  unfold values
  rw [map_map]
  conv_lhs => rw [← map_id dict.items]
  refine map_congr_left fun item hitem ↦ Prod.ext ?_ rfl
  exact (hkeyed item.1 item.2 ((dict.get?_eq_some_iff).mpr hitem)).symm

theorem KeyedBy.map_values (hkeyed : dict.KeyedBy key) : dict.values.map key = dict.keys := by
  unfold keys
  rw [hkeyed.items_eq, map_map]
  rfl

/-- Assumes: the items are those of values under their own keys. The lookups find these values. -/
theorem get?_eq_some_iff_of_items {values : List Value}
    (hitems : dict.items = values.map fun value ↦ (key value, value)) {name : Key}
    {value : Value} : dict.get? name = some value ↔ value ∈ values ∧ key value = name := by
  rw [dict.get?_eq_some_iff, hitems, mem_map]
  constructor
  · rintro ⟨other, hother, heq⟩
    cases heq
    exact ⟨hother, rfl⟩
  · rintro ⟨hvalue, rfl⟩
    exact ⟨value, hvalue, rfl⟩

theorem KeyedBy.get?_eq_some_iff (hkeyed : dict.KeyedBy key) {name : Key} {value : Value} :
    dict.get? name = some value ↔ value ∈ dict.values ∧ key value = name :=
  get?_eq_some_iff_of_items hkeyed.items_eq

end Keyed

end OrderedDict

/-- A list that may be missing is there when it has an item. -/
theorem exists_of_mem_getD {Item : Type} {found : Option (List Item)} {item : Item}
    (hitem : item ∈ found.getD []) : ∃ items, found = some items ∧ item ∈ items := by
  cases found with
  | none => cases hitem
  | some items => exact ⟨items, rfl, hitem⟩

end AbsoluteZero.Foundations

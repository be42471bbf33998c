import AbsoluteZero.Foundations.ClosedVocabulary
import AbsoluteZero.Foundations.JsonText
import Mathlib.Data.List.Perm.Basic

/-!
# Reading typed values back

A typed value is written as a JSON value and read out of the canonical form of what was written. The
value that is read is one that is written alike (`ReadsBack`), since the keys of a dict come back in
their order; the rules give this for lists, optional values and dicts from their parts.
-/

namespace AbsoluteZero.Foundations

open List

namespace Reading

variable {Value : Type}

/-! ### Readers -/

def text? : Json → Option String
  | .str text => some text
  | _ => none

def int? : Json → Option Int
  | .int value => some value
  | _ => none

def word? {Word : Type} [ClosedVocabulary Word] (value : Json) : Option Word :=
  (text? value).bind ClosedVocabulary.read

variable (read : Json → Option Value)

/-- `None`, or a value. -/
def optional? : Json → Option (Option Value)
  | .null => some none
  | value => (read value).map some

def list? : Json → Option (List Value)
  | .arr elements => elements.mapM read
  | _ => none

def dictOf? (items : List (String × Value)) : Option (OrderedDict String Value) :=
  if hitems : (items.map Prod.fst).Nodup then some ⟨items, hitems⟩ else none

def dict? : Json → Option (OrderedDict String Value)
  | .obj fields =>
    (fields.mapM fun field ↦ (read field.2).map fun value ↦ (field.1, value)).bind dictOf?
  | _ => none

variable (write : Value → Json)

def writeOptional : Option Value → Json
  | none => .null
  | some value => write value

def writeList (values : List Value) : Json := .arr (values.map write)

def writeDict (dict : OrderedDict String Value) : Json :=
  .obj (dict.items.map fun item ↦ (item.1, write item.2))

theorem canonicalElements_eq_map (elements : List Json) :
    Json.canonicalElements elements = elements.map Json.canonical := by
  induction elements with
  | nil => rfl
  | cons value rest ih => rw [Json.canonicalElements, ih, map_cons]

theorem canonicalFields_perm (fields : List (String × Json)) :
    (Json.canonicalFields fields).Perm (fields.map fun field ↦ (field.1, field.2.canonical)) := by
  induction fields with
  | nil => exact List.Perm.refl _
  | cons field rest ih =>
    obtain ⟨key, value⟩ := field
    exact (JsonText.insertField_perm (key, value.canonical) _).trans (ih.cons _)

/-- Assumes: no key stands twice, and the fields are the others up to their order and the order
within the values. The canonical forms are equal. -/
theorem canonicalFields_congr {fields others : List (String × Json)}
    (hnodup : (others.map Prod.fst).Nodup)
    (hperm : (fields.map fun field ↦ (field.1, field.2.canonical)).Perm
      (others.map fun field ↦ (field.1, field.2.canonical))) :
    Json.canonicalFields fields = Json.canonicalFields others := by
  refine List.Perm.eq_of_pairwise ?_ (JsonText.keysSorted_canonicalFields fields)
    (JsonText.keysSorted_canonicalFields others)
    ((canonicalFields_perm fields).trans (hperm.trans (canonicalFields_perm others).symm))
  intro first second hfirst hsecond hle hge
  have hkey : first.1 = second.1 := String.le_antisymm (String.not_lt.mp hle) (String.not_lt.mp hge)
  have hmem : first ∈ Json.canonicalFields others := by
    rw [(canonicalFields_perm others).mem_iff, ← hperm.mem_iff,
      ← (canonicalFields_perm fields).mem_iff]
    exact hfirst
  have hothers := (JsonText.map_fst_canonicalFields_perm others).nodup_iff.mpr hnodup
  refine Prod.ext hkey ?_
  have hlookup := (OrderedDict.find_eq_some_iff hothers).mpr hmem
  rw [hkey, (OrderedDict.find_eq_some_iff hothers).mpr hsecond] at hlookup
  exact (Option.some.inj hlookup).symm

theorem get?_canonical (fields : List (String × Json)) (key : String) :
    (Json.obj fields).canonical.get? key = (OrderedDict.find key fields).map Json.canonical :=
  Json.find_canonicalFields key fields

theorem canonical_null : Json.null.canonical = .null := by
  rw [Json.canonical]

theorem canonical_str (text : String) : (Json.str text).canonical = .str text := by
  rw [Json.canonical]

theorem canonical_int (value : Int) : (Json.int value).canonical = .int value := by
  rw [Json.canonical]

/-- What is written is read as a value that is written alike. -/
def ReadsBack (value : Value) : Prop :=
  ∃ copy, read (write value).canonical = some copy ∧
    (write copy).canonical = (write value).canonical

variable {read : Json → Option Value} {write : Value → Json}

theorem mapM_eq_some_iff {Item : Type} {body : Item → Option Value} {items : List Item}
    {results : List Value} : items.mapM body = some results ↔
      List.Forall₂ (fun item result ↦ body item = some result) items results := by
  induction items generalizing results with
  | nil =>
    rw [mapM_nil, forall₂_nil_left_iff]
    exact ⟨fun hresults ↦ (Option.some.inj hresults).symm, fun hresults ↦ hresults ▸ rfl⟩
  | cons item rest ih =>
    rw [mapM_cons, forall₂_cons_left_iff]
    constructor
    · intro hresults
      obtain ⟨result, hresult, hrest⟩ := Option.bind_eq_some_iff.mp hresults
      obtain ⟨others, hothers, hall⟩ := Option.bind_eq_some_iff.mp hrest
      exact ⟨result, others, hresult, ih.mp hothers, (Option.some.inj hall).symm⟩
    · rintro ⟨result, others, hresult, hothers, rfl⟩
      exact Option.bind_eq_some_iff.mpr ⟨result, hresult,
        Option.bind_eq_some_iff.mpr ⟨others, ih.mpr hothers, rfl⟩⟩

theorem exists_forall₂ {Item Copy : Type} {related : Item → Copy → Prop} {items : List Item}
    (hitems : ∀ item ∈ items, ∃ copy, related item copy) :
    ∃ copies, List.Forall₂ related items copies := by
  induction items with
  | nil => exact ⟨[], .nil⟩
  | cons item rest ih =>
    obtain ⟨copy, hcopy⟩ := hitems item mem_cons_self
    obtain ⟨copies, hcopies⟩ := ih fun other hother ↦ hitems other (mem_cons_of_mem _ hother)
    exact ⟨copy :: copies, .cons hcopy hcopies⟩

theorem map_eq_of_forall₂ {Item Copy Seen : Type} {view : Item → Seen} {look : Copy → Seen}
    {items : List Item} {copies : List Copy}
    (hall : List.Forall₂ (fun item copy ↦ look copy = view item) items copies) :
    copies.map look = items.map view := by
  induction hall with
  | nil => rfl
  | cons hcopy _ ih => exact congrArg₂ List.cons hcopy ih

theorem readsBack_list {values : List Value}
    (hvalues : ∀ value ∈ values, ReadsBack read write value) :
    ReadsBack (list? read) (writeList write) values := by
  obtain ⟨copies, hcopies⟩ := exists_forall₂ hvalues
  refine ⟨copies, ?_, ?_⟩
  · simp only [writeList, Json.canonical, list?, canonicalElements_eq_map, map_map]
    rw [mapM_eq_some_iff, forall₂_map_left_iff]
    exact hcopies.imp fun _ _ hcopy ↦ hcopy.1
  · simp only [writeList, Json.canonical, canonicalElements_eq_map, map_map, Json.arr.injEq]
    exact map_eq_of_forall₂ (hcopies.imp fun _ _ hcopy ↦ hcopy.2)

/-- Dicts with the same keys and with values written alike are written alike. -/
theorem canonical_writeDict_congr {first second : OrderedDict String Value}
    (hperm : (first.items.map fun item ↦ (item.1, (write item.2).canonical)).Perm
      (second.items.map fun item ↦ (item.1, (write item.2).canonical))) :
    (writeDict write first).canonical = (writeDict write second).canonical := by
  simp only [writeDict, Json.canonical, Json.obj.injEq]
  refine canonicalFields_congr ?_ ?_
  · rw [map_map]
    exact second.nodup
  · rw [map_map, map_map]
    exact hperm

theorem keys_perm_of_written {first second : OrderedDict String Value}
    (hwritten : (writeDict write first).canonical = (writeDict write second).canonical) :
    first.keys.Perm second.keys := by
  have hkeys (dict : OrderedDict String Value) : ((Json.canonicalFields
      (dict.items.map fun item ↦ (item.1, write item.2))).map Prod.fst).Perm dict.keys := by
    have hperm := JsonText.map_fst_canonicalFields_perm
      (dict.items.map fun item ↦ (item.1, write item.2))
    rwa [map_map] at hperm
  simp only [writeDict, Json.canonical, Json.obj.injEq] at hwritten
  exact (hkeys first).symm.trans (hwritten ▸ hkeys second)

theorem readsBack_dict {dict : OrderedDict String Value}
    (hvalues : ∀ value ∈ dict.values, ReadsBack read write value) :
    ReadsBack (dict? read) (writeDict write) dict := by
  -- the copies in the order of the dict, then the same in the order in which they are read
  obtain ⟨copies, hcopies⟩ : ∃ copies : List (String × Value), List.Forall₂ (fun item copy ↦
      (read (write item.2).canonical).map (fun value ↦ (item.1, value)) = some copy ∧
        (copy.1, (write copy.2).canonical) = (item.1, (write item.2).canonical))
      dict.items copies := by
    refine exists_forall₂ fun item hitem ↦ ?_
    obtain ⟨copy, hread, hcopy⟩ := hvalues item.2 (mem_map_of_mem hitem)
    exact ⟨(item.1, copy), by rw [hread]; rfl, by rw [hcopy]⟩
  have hwritten : copies.map (fun copy ↦ (copy.1, (write copy.2).canonical)) =
      dict.items.map fun item ↦ (item.1, (write item.2).canonical) :=
    map_eq_of_forall₂ (hcopies.imp fun _ _ hcopy ↦ hcopy.2)
  have hperm := canonicalFields_perm (dict.items.map fun item ↦ (item.1, write item.2))
  rw [map_map] at hperm
  have hread : List.Forall₂ (fun (field : String × Json) copy ↦
      (read field.2).map (fun value ↦ (field.1, value)) = some copy)
      (dict.items.map fun item ↦ (item.1, (write item.2).canonical)) copies :=
    forall₂_map_left_iff.mpr (hcopies.imp fun _ _ hcopy ↦ hcopy.1)
  obtain ⟨ordered, hordered, hcopiesPerm⟩ := perm_comp_forall₂ hperm hread
  have hkeys : (copies.map Prod.fst) = dict.items.map Prod.fst := by
    have hfirst := congrArg (List.map Prod.fst) hwritten
    rwa [map_map, map_map] at hfirst
  have hnodup : (ordered.map Prod.fst).Nodup := by
    rw [(hcopiesPerm.map Prod.fst).nodup_iff, hkeys]
    exact dict.nodup
  refine ⟨⟨ordered, hnodup⟩, ?_, canonical_writeDict_congr ?_⟩
  · simp only [writeDict, Json.canonical, dict?]
    rw [mapM_eq_some_iff.mpr hordered]
    exact dif_pos hnodup
  · rw [← hwritten]
    exact hcopiesPerm.map _

end Reading

end AbsoluteZero.Foundations

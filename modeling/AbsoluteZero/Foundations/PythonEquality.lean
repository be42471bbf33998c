import AbsoluteZero.Foundations.JsonText

/-!
# Python's equality of JSON values

Values with the same canonical form are equal in Python (`pyEq_of_canonical_eq`): the order in which
the keys of a dict were written does not matter.
-/

namespace AbsoluteZero.Foundations

namespace JsonText

variable {reader : FloatReader}

/-- A field of the one dict has a counterpart in the other, with the same canonical value. -/
theorem exists_find_of_canonicalFields_eq {fields others : List (String × Json)}
    (hothers : (others.map Prod.fst).Nodup)
    (heq : Json.canonicalFields fields = Json.canonicalFields others) {field : String × Json}
    (hfield : field ∈ fields) :
    ∃ other, OrderedDict.find field.1 others = some other ∧ (field.1, other) ∈ others ∧
      field.2.canonical = other.canonical := by
  have hmem : (field.1, field.2.canonical) ∈ Json.canonicalFields fields :=
    mem_canonicalFields.mpr ⟨field.2, hfield, rfl⟩
  rw [heq] at hmem
  obtain ⟨other, hother, hcanonical⟩ := mem_canonicalFields.mp hmem
  exact ⟨other, (OrderedDict.find_eq_some_iff hothers).mpr hother, hother, hcanonical.symm⟩

mutual

/-- Assumes: JSON text can hold both values. Values with one canonical form are equal. -/
theorem pyEq_of_canonical_eq (value : Json) {other : Json} (hvalue : Holdable reader value)
    (hother : Holdable reader other) (heq : value.canonical = other.canonical) :
    value.pyEq other = true := by
  cases value with
  | null =>
    cases other <;> simp only [Json.canonical, reduceCtorEq] at heq
    rfl
  | bool value | int value | float value text | str text =>
    cases other <;> simp only [Json.canonical, reduceCtorEq] at heq
    cases heq
    simp [Json.pyEq]
  | arr elements =>
    cases other with
    | arr others =>
      simp only [Json.canonical, Json.arr.injEq] at heq
      simp only [Holdable] at hvalue hother
      rw [Json.pyEq]
      exact pyEqElements_of_canonical_eq elements hvalue hother heq
    | null | bool value | int value | float value text | str text | obj fields =>
      simp only [Json.canonical, reduceCtorEq] at heq
  | obj fields =>
    cases other with
    | obj others =>
      simp only [Json.canonical, Json.obj.injEq] at heq
      have hlength : fields.length = others.length := by
        have hfields := (map_fst_canonicalFields_perm fields).length_eq
        have hothers := (map_fst_canonicalFields_perm others).length_eq
        simp only [List.length_map] at hfields hothers
        rw [← hfields, heq, hothers]
      rw [Json.pyEq, Bool.and_eq_true]
      refine ⟨by simpa using hlength,
        pyEqFields_of_canonical_eq fields hvalue.2 fun field hfield ↦ ?_⟩
      obtain ⟨matched, hfind, hmem, hcanonical⟩ :=
        exists_find_of_canonicalFields_eq hother.1 heq hfield
      exact ⟨matched, hfind, holdableFields_iff.mp hother.2 _ hmem, hcanonical⟩
    | null | bool value | int value | float value text | str text | arr elements =>
      simp only [Json.canonical, reduceCtorEq] at heq

theorem pyEqElements_of_canonical_eq (elements : List Json) {others : List Json}
    (helements : HoldableElements reader elements) (hothers : HoldableElements reader others)
    (heq : Json.canonicalElements elements = Json.canonicalElements others) :
    Json.pyEqElements elements others = true := by
  match elements with
  | [] =>
    cases others with
    | nil => rfl
    | cons other rest => simp only [Json.canonicalElements, reduceCtorEq] at heq
  | value :: rest =>
    cases others with
    | nil => simp only [Json.canonicalElements, reduceCtorEq] at heq
    | cons other others =>
      simp only [Json.canonicalElements, List.cons.injEq] at heq
      simp only [HoldableElements] at helements hothers
      rw [Json.pyEqElements, Bool.and_eq_true]
      exact ⟨pyEq_of_canonical_eq value helements.1 hothers.1 heq.1,
        pyEqElements_of_canonical_eq rest helements.2 hothers.2 heq.2⟩

theorem pyEqFields_of_canonical_eq (fields : List (String × Json)) {others : List (String × Json)}
    (hfields : HoldableFields reader fields)
    (hmatched : ∀ field ∈ fields, ∃ other, OrderedDict.find field.1 others = some other ∧
      Holdable reader other ∧ field.2.canonical = other.canonical) :
    Json.pyEqFields fields others = true := by
  match fields with
  | [] => rfl
  | (key, value) :: rest =>
    obtain ⟨other, hfind, hother, hcanonical⟩ := hmatched (key, value) List.mem_cons_self
    rw [Json.pyEqFields, Bool.and_eq_true, hfind]
    exact ⟨pyEq_of_canonical_eq value hfields.1 hother hcanonical,
      pyEqFields_of_canonical_eq rest hfields.2 fun field hfield ↦
        hmatched field (List.mem_cons_of_mem _ hfield)⟩

end

/-- Dicts are compared field by field, each with what stands under its key. -/
theorem pyEqFields_iff {fields others : List (String × Json)} :
    Json.pyEqFields fields others = true ↔ ∀ field ∈ fields, ∃ other,
      OrderedDict.find field.1 others = some other ∧ field.2.pyEq other = true := by
  induction fields with
  | nil => simp [Json.pyEqFields]
  | cons field rest ih =>
    obtain ⟨key, value⟩ := field
    rw [Json.pyEqFields, Bool.and_eq_true, ih, List.forall_mem_cons]
    refine and_congr_left' ?_
    cases OrderedDict.find key others with
    | none | some other => simp

mutual

/-- Sorting the keys of two values changes nothing about their equality. -/
theorem pyEq_canonical (value other : Json) :
    value.canonical.pyEq other.canonical = value.pyEq other := by
  cases value with
  | null | bool value | int value | float value text | str text =>
    cases other <;> simp [Json.canonical, Json.pyEq, Json.number?]
  | arr elements =>
    cases other with
    | arr others =>
      exact pyEqElements_canonical elements others
    | null | bool value | int value | float value text | str text | obj fields =>
      simp only [Json.canonical, Json.pyEq]
  | obj fields =>
    cases other with
    | obj others =>
      have hlength (fields : List (String × Json)) :
          (Json.canonicalFields fields).length = fields.length := by
        have hperm := (map_fst_canonicalFields_perm fields).length_eq
        rwa [List.length_map, List.length_map] at hperm
      simp only [Json.canonical, Json.pyEq, hlength]
      refine congrArg (fields.length == others.length && ·) (Bool.eq_iff_iff.mpr ?_)
      rw [pyEqFields_iff, pyEqFields_iff]
      constructor
      · intro hall field hfield
        obtain ⟨found, hfound, heq⟩ := hall (field.1, field.2.canonical)
          (mem_canonicalFields.mpr ⟨field.2, hfield, rfl⟩)
        rw [Json.find_canonicalFields] at hfound
        obtain ⟨other, hother, rfl⟩ := Option.map_eq_some_iff.mp hfound
        exact ⟨other, hother, (pyEqFields_canonical fields field hfield other) ▸ heq⟩
      · intro hall field hfield
        obtain ⟨value, hvalue, hcanonical⟩ := mem_canonicalFields.mp hfield
        obtain ⟨other, hother, heq⟩ := hall _ hvalue
        refine ⟨other.canonical, ?_, ?_⟩
        · rw [Json.find_canonicalFields]
          exact congrArg (Option.map Json.canonical) hother
        · rw [← hcanonical, pyEqFields_canonical fields _ hvalue other]
          exact heq
    | null | bool value | int value | float value text | str text | arr elements =>
      simp only [Json.canonical, Json.pyEq]

theorem pyEqElements_canonical (elements others : List Json) :
    Json.pyEqElements (Json.canonicalElements elements) (Json.canonicalElements others) =
      Json.pyEqElements elements others := by
  cases elements with
  | nil => cases others <;> simp [Json.canonicalElements, Json.pyEqElements]
  | cons value rest =>
    cases others with
    | nil => simp [Json.canonicalElements, Json.pyEqElements]
    | cons other others =>
      simp only [Json.canonicalElements, Json.pyEqElements]
      rw [pyEq_canonical value other, pyEqElements_canonical rest others]

theorem pyEqFields_canonical (fields : List (String × Json)) : ∀ field ∈ fields, ∀ other : Json,
      field.2.canonical.pyEq other.canonical = field.2.pyEq other := by
  cases fields with
  | nil => simp
  | cons head rest =>
    obtain ⟨key, value⟩ := head
    intro field hfield other
    rcases List.mem_cons.mp hfield with rfl | hrest
    · exact pyEq_canonical value other
    · exact pyEqFields_canonical rest field hrest other

end

/-- A value that JSON text can hold has no `nan`, so it equals itself. -/
theorem pyEq_self {value : Json} (hvalue : Holdable reader value) : value.pyEq value = true :=
  pyEq_of_canonical_eq value hvalue hvalue rfl

end JsonText

end AbsoluteZero.Foundations

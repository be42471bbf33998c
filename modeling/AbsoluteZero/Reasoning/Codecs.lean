import AbsoluteZero.Foundations.Reading
import AbsoluteZero.Foundations.SortedSet
import AbsoluteZero.Reasoning.Outcome
import Mathlib.Data.Prod.Lex

/-!
# Reading artifacts back

Every artifact that is kept in storage is written as a JSON value and rebuilt from it by its own
builder. What is rebuilt is written alike (`readsBack_decisionRecord`, `readsBack_sealedOutcome`).
-/

namespace AbsoluteZero.Reasoning

open Foundations Reading OrderedDict Checked List

theorem readsBack_value (value : Json) : ReadsBack some id value :=
  ⟨value.canonical, rfl, JsonText.canonical_canonical value⟩

variable (dict : JsonDict)

theorem writeDict_id : writeDict id dict = dict.toJson := by
  exact congrArg Json.obj (map_id' dict.items)

theorem readsBack_jsonDict : ReadsBack (dict? some) JsonDict.toJson dict := by
  obtain ⟨copy, hread, hcopy⟩ :=
    @readsBack_dict Json some id dict fun value _ ↦ readsBack_value value
  rw [writeDict_id] at hread hcopy
  rw [writeDict_id] at hcopy
  exact ⟨copy, hread, hcopy⟩

def readScope (data : Json) : Option ApprovedScope := do
  let description ← data.get? "description"
  let granularity ← data.get? "granularity"
  let narrowing ← optional? (dict? some) (data.item "narrowing")
  some ⟨description, granularity, narrowing⟩

/-- The record that `load_decision_record` builds. -/
def readDecisionRecord (data : Json) : Option DecisionRecord := do
  let outcome ← data.get? "outcome"
  let justification ← data.get? "justification"
  let decidedFrom ← data.get? "decided_from"
  let capability ← data.get? "approved_capability_id"
  let rung ← data.get? "approved_required_rung"
  let scope ← data.get? "approved_scope"
  some ⟨← text? outcome, ← dict? some justification, ← dict? some decidedFrom,
    ← optional? text? capability, ← optional? text? rung, ← optional? readScope scope⟩

theorem readsBack_optionalText (text : Option String) :
    ReadsBack (optional? text?) optionalText text := by
  cases text <;> exact ⟨_, rfl, rfl⟩

theorem readsBack_optionalDict (dict : Option JsonDict) :
    ReadsBack (optional? (dict? some)) optionalDict dict := by
  cases dict with
  | none => exact ⟨none, rfl, rfl⟩
  | some dict =>
    obtain ⟨copy, hread, hcopy⟩ := readsBack_jsonDict dict
    refine ⟨some copy, ?_, hcopy⟩
    simp only [optionalDict, JsonDict.toJson, Json.canonical] at hread ⊢
    rw [optional?, hread]
    · rfl
    · simp

theorem readsBack_scope (scope : ApprovedScope) :
    ReadsBack readScope ApprovedScope.toDict scope := by
  obtain ⟨narrowing, hread, hcopy⟩ := readsBack_optionalDict scope.narrowing
  refine ⟨⟨scope.description.canonical, scope.granularity.canonical, narrowing⟩, ?_, ?_⟩
  · simp [readScope, ApprovedScope.toDict, Json.item, Json.getD, get?_canonical, find_cons, hread]
  · simp [ApprovedScope.toDict, Json.canonical, Json.canonicalFields, hcopy,
      JsonText.canonical_canonical]

theorem readsBack_optionalScope (scope : Option ApprovedScope) :
    ReadsBack (optional? readScope) (fun scope ↦ (scope.map ApprovedScope.toDict).getD .null)
      scope := by
  cases scope with
  | none => exact ⟨none, rfl, rfl⟩
  | some scope =>
    obtain ⟨copy, hread, hcopy⟩ := readsBack_scope scope
    refine ⟨some copy, ?_, hcopy⟩
    simp only [Option.map_some, Option.getD_some, ApprovedScope.toDict, Json.canonical] at hread ⊢
    rw [optional?, hread]
    · rfl
    · simp

theorem readsBack_decisionRecord (record : DecisionRecord) :
    ReadsBack readDecisionRecord DecisionRecord.toDict record := by
  obtain ⟨justification, hjustification, hjustification'⟩ := readsBack_jsonDict record.justification
  obtain ⟨decidedFrom, hdecidedFrom, hdecidedFrom'⟩ := readsBack_jsonDict record.decidedFrom
  obtain ⟨capability, hcapability, hcapability'⟩ :=
    readsBack_optionalText record.approvedCapabilityId
  obtain ⟨rung, hrung, hrung'⟩ := readsBack_optionalText record.approvedRequiredRung
  obtain ⟨scope, hscope, hscope'⟩ := readsBack_optionalScope record.approvedScope
  refine ⟨⟨record.outcome, justification, decidedFrom, capability, rung, scope⟩, ?_, ?_⟩
  · simp [readDecisionRecord, DecisionRecord.toDict, get?_canonical, find_cons,
      hjustification, hdecidedFrom, hcapability, hrung, hscope, canonical_str, text?]
  · simp only [DecisionRecord.toDict, Json.canonical, Json.canonicalFields, hjustification',
      hdecidedFrom', hcapability', hrung', hscope']

/-! ### Sealed outcome records -/

/-- The arguments of `build_sealed_outcome` that have no default. -/
def requiredArguments : List String :=
  ["request_content_hash", "resolution_content_hash", "preparation_coordinates", "attempt_index",
    "attempt_history_refs", "recovery_kind", "provider_id", "budget_consumed", "budget_remaining"]

def optionalArguments : List String :=
  ["failure_class", "cancellation_origin", "timing", "output", "metadata"]

def argumentNames (fields : List (String × Json)) : List String :=
  (fields.map Prod.fst).filter fun name ↦ name ≠ "record_version"

/-- The names are arguments of the builder, and all that it requires. -/
def AreArguments (names : List String) : Prop :=
  (∀ name ∈ names, name ∈ requiredArguments ++ optionalArguments) ∧
    ∀ name ∈ requiredArguments, name ∈ names

instance (names : List String) : Decidable (AreArguments names) :=
  inferInstanceAs (Decidable (_ ∧ _))

/-- An element that `dict` takes for an item: a text and a value. -/
def pair? (element : Json) : Option (String × Json) :=
  match element.iterate with
  | .ok [.str key, value] => some (key, value)
  | _ => none

/-- `dict(value or {})`: of a dict, or of pairs, where a later pair of one key wins. -/
def mapping? (value : Json) : Option JsonDict :=
  if value.truthy = false then some .empty
  else
    match value with
    | .obj _ => dict? some value
    | _ => (value.iterate.toOption.bind fun elements ↦ elements.mapM pair?).map
      (foldl (fun dict pair ↦ dict.insert pair.1 pair.2) .empty)

/-- `tuple(value or ())`, of texts. -/
def texts? (value : Json) : Option (List String) :=
  if value.truthy then value.iterate.toOption.bind fun elements ↦ elements.mapM text? else some []

/-- A mapping from the engine that has only JSON values. -/
def DatumDict.ofJson : DatumDict := dict.mapValues .json

/-- The arguments out of a dict. -/
def readOutcomeFields (data : Json) : Option OutcomeFields := do
  some {
    requestContentHash := ← text? (data.item "request_content_hash")
    resolutionContentHash := ← text? (data.item "resolution_content_hash")
    preparationCoordinates := ← mapping? (data.item "preparation_coordinates")
    attemptIndex := ← int? (data.item "attempt_index")
    attemptHistoryRefs := ← texts? (data.item "attempt_history_refs")
    recoveryKind := ← word? (data.item "recovery_kind")
    failureClass := ← optional? word? (data.item "failure_class")
    timing := .ofJson (← mapping? (data.item "timing"))
    budgetConsumed := ← int? (data.item "budget_consumed")
    budgetRemaining := ← int? (data.item "budget_remaining")
    cancellationOrigin := ← optional? word? (data.item "cancellation_origin")
    providerId := ← optional? text? (data.item "provider_id")
    output := data.item "output"
    metadata := .ofJson (← mapping? (data.item "metadata")) }

/-- The record that `load_sealed_outcome` builds. -/
def readSealedOutcome (data : Json) : Option SealedOutcomeRecord := do
  let fields ← data.fields?
  if AreArguments (argumentNames fields) then
    let fields ← readOutcomeFields data
    (buildSealedOutcome fields).toOption
  else none

theorem readsBack_mapping : ReadsBack mapping? JsonDict.toJson dict := by
  obtain ⟨copy, hread, hcopy⟩ := readsBack_jsonDict dict
  by_cases htruthy : dict.toJson.canonical.truthy = false
  · refine ⟨.empty, if_pos htruthy, ?_⟩
    have hempty : Json.canonicalFields dict.items = [] := by
      simpa [JsonDict.toJson, Json.canonical, Json.truthy] using htruthy
    simp [JsonDict.toJson, Json.canonical, hempty, OrderedDict.empty, Json.canonicalFields]
  · refine ⟨copy, ?_, hcopy⟩
    rw [JsonDict.toJson, Json.canonical] at htruthy hread ⊢
    exact (if_neg htruthy).trans hread

theorem texts?_canonical (texts : List String) :
    texts? (Json.arr (texts.map .str)).canonical = some texts := by
  have hcanonical : (texts.map Json.str).map Json.canonical = texts.map .str := by
    rw [map_map]
    exact map_congr_left fun text _ ↦ canonical_str text
  rw [Json.canonical, canonicalElements_eq_map, hcanonical, texts?]
  cases texts with
  | nil => rfl
  | cons text rest =>
    refine (if_pos rfl).trans (mapM_eq_some_iff.mpr (forall₂_map_left_iff.mpr ?_))
    exact forall₂_same.mpr fun _ _ ↦ rfl

theorem word?_optionalWord {Word : Type} [ClosedVocabulary Word] (word : Option Word) :
    optional? word? (SealedOutcomeRecord.optionalWord word).canonical = some word := by
  cases word with
  | none => rfl
  | some word =>
    have hread : word? (Json.str (ClosedVocabulary.text word)) = some word :=
      ClosedVocabulary.read_text word
    rw [SealedOutcomeRecord.optionalWord, canonical_str, optional?, hread]
    · rfl
    · simp

theorem toJson_ofJson : (DatumDict.ofJson dict).toJson = .ok dict.toJson := by
  have hfields : (DatumDict.ofJson dict).items.mapM
      (fun item ↦ (item.2.toJson).map fun value ↦ (item.1, value)) = .ok dict.items := by
    refine mapM_eq_ok_iff.mpr (forall₂_map_left_iff.mpr ?_)
    exact forall₂_same.mpr fun _ _ ↦ rfl
  unfold DatumDict.toJson
  rw [hfields]
  rfl

variable {value : Json}

theorem exists_ofJson {dict : DatumDict} (hvalue : dict.toJson = .ok value) :
    ∃ json : JsonDict, dict = .ofJson json ∧ value = json.toJson := by
  obtain ⟨fields, hfields, hvalue⟩ := bind_eq_ok_iff.mp hvalue
  cases hvalue
  have hitems : fields.map (fun field ↦ (field.1, Datum.json field.2)) = dict.items.map id := by
    refine map_eq_of_forall₂ ((mapM_eq_ok_iff.mp hfields).imp fun item field hfield ↦ ?_)
    obtain ⟨key, datum⟩ := item
    cases datum with
    | json value =>
      cases hfield
      rfl
    | foreign => cases hfield
  rw [map_id] at hitems
  have hnodup : (fields.map Prod.fst).Nodup := by
    have hkeys := congrArg (List.map Prod.fst) hitems
    rw [map_map] at hkeys
    exact hkeys ▸ dict.nodup
  exact ⟨⟨fields, hnodup⟩, ext hitems.symm, rfl⟩

def OutcomeFields.replaced (fields : OutcomeFields) (coordinates timing metadata : JsonDict)
    (output : Json) : OutcomeFields :=
  { fields with
    preparationCoordinates := coordinates
    timing := .ofJson timing
    metadata := .ofJson metadata
    output := output }

/-- Only whether there is an output matters to the builder. -/
theorem complaint?_replaced {fields : OutcomeFields} {coordinates timing metadata : JsonDict}
    {output : Json} (houtput : output = .null ↔ fields.output = .null) :
    (fields.replaced coordinates timing metadata output).complaint? = fields.complaint? := by
  unfold OutcomeFields.complaint? OutcomeFields.combination? OutcomeFields.replaced
  simp only [ne_eq, houtput]

theorem canonical_eq_null_iff : value.canonical = .null ↔ value = .null := by
  cases value <;> simp [Json.canonical]

theorem areArguments_canonicalFields {fields : List (String × Json)}
    (hfields : AreArguments (argumentNames fields)) :
    AreArguments (argumentNames (Json.canonicalFields fields)) := by
  have hperm : (argumentNames (Json.canonicalFields fields)).Perm (argumentNames fields) :=
    (JsonText.map_fst_canonicalFields_perm fields).filter _
  exact ⟨fun name hname ↦ hfields.1 name (hperm.mem_iff.mp hname),
    fun name hname ↦ hperm.mem_iff.mpr (hfields.2 name hname)⟩

theorem readOutcomeFields_canonical {record : SealedOutcomeRecord}
    {timing metadata coordinates timing' metadata' : JsonDict}
    (hcoordinates : mapping? record.preparationCoordinates.toJson.canonical = some coordinates)
    (htiming : mapping? timing.toJson.canonical = some timing')
    (hmetadata : mapping? metadata.toJson.canonical = some metadata') :
    readOutcomeFields (record.toDictWith timing.toJson metadata.toJson).canonical =
      some (record.replaced coordinates timing' metadata' record.output.canonical) := by
  have hkind : word? (Json.str (ClosedVocabulary.text record.recoveryKind)) =
      some record.recoveryKind := ClosedVocabulary.read_text record.recoveryKind
  have hprovider : optional? text? (optionalText record.providerId).canonical =
      some record.providerId := by
    cases record.providerId <;> rfl
  simp [readOutcomeFields, SealedOutcomeRecord.toDictWith, Json.item, Json.getD, get?_canonical,
    find_cons, hcoordinates, htiming, hmetadata, hkind, hprovider, canonical_str,
    canonical_int, text?, int?, texts?_canonical, word?_optionalWord, OutcomeFields.replaced]

theorem readSealedOutcome_eq_some {written : List (String × Json)} {fields : OutcomeFields}
    (harguments : AreArguments (argumentNames written))
    (hfields : readOutcomeFields (Json.obj written).canonical = some fields)
    (hlegal : fields.complaint? = none) :
    readSealedOutcome (Json.obj written).canonical = some ⟨fields, hlegal⟩ := by
  have hwritten : (Json.obj written).canonical.fields? = some (Json.canonicalFields written) := by
    rw [Json.canonical, Json.fields?]
  unfold readSealedOutcome
  rw [hwritten, hfields]
  simp only [bind, Option.bind, if_pos (areArguments_canonicalFields harguments),
    buildSealedOutcome_of_legal hlegal]
  rfl

/-- A record that can be written is rebuilt as one that is written alike. -/
theorem readsBack_sealedOutcome {record : SealedOutcomeRecord}
    (hvalue : record.toDict = .ok value) :
    ∃ copy written, readSealedOutcome value.canonical = some copy ∧ copy.toDict = .ok written ∧
      written.canonical = value.canonical := by
  obtain ⟨timing, htiming, hvalue⟩ := bind_eq_ok_iff.mp hvalue
  obtain ⟨metadata, hmetadata, hvalue⟩ := bind_eq_ok_iff.mp hvalue
  cases hvalue
  obtain ⟨timing, -, rfl⟩ := exists_ofJson htiming
  obtain ⟨metadata, -, rfl⟩ := exists_ofJson hmetadata
  obtain ⟨coordinates, hcoordinates, hcoordinates'⟩ :=
    readsBack_mapping record.preparationCoordinates
  obtain ⟨timing', htiming, htiming'⟩ := readsBack_mapping timing
  obtain ⟨metadata', hmetadata, hmetadata'⟩ := readsBack_mapping metadata
  have hlegal : (record.replaced coordinates timing' metadata' record.output.canonical).complaint? =
      none := (complaint?_replaced canonical_eq_null_iff).trans record.legal
  refine ⟨⟨_, hlegal⟩, SealedOutcomeRecord.toDictWith ⟨_, hlegal⟩ timing'.toJson metadata'.toJson,
    readSealedOutcome_eq_some ?_ (readOutcomeFields_canonical hcoordinates htiming
      hmetadata) hlegal,
    ?_, ?_⟩
  · simp only [argumentNames, map_cons, map_nil]
    decide
  · simp only [SealedOutcomeRecord.toDict, OutcomeFields.replaced, toJson_ofJson]
    rfl
  · simp only [SealedOutcomeRecord.toDictWith, OutcomeFields.replaced, Json.canonical,
      Json.canonicalFields, htiming', hmetadata', hcoordinates', JsonText.canonical_canonical]

end AbsoluteZero.Reasoning

import AbsoluteZero.Reasoning.Codecs

/-!
# The records of the descriptor space as JSON

Capabilities, relationships and descriptor rows are written as dicts with their kind, and rebuilt by
the builders of the records. Capabilities and relationships come back as they were; the claims of a
row come back in the order of their keys.
-/

namespace AbsoluteZero.Reasoning

open Foundations JsonText Reading OrderedDict List

def wordText {Word : Type} [ClosedVocabulary Word] (word : Word) : Json :=
  .str (ClosedVocabulary.text word)

/-- `tuple(value)`, of texts. -/
def tuple? (value : Json) : Option (List String) :=
  value.iterate.toOption.bind fun elements ↦ elements.mapM text?

namespace Characteristics

def toDict (characteristics : Characteristics) : Json :=
  .obj [("inference_depth", wordText characteristics.inferenceDepth),
    ("context_sensitivity", wordText characteristics.contextSensitivity),
    ("determinism_tolerance", wordText characteristics.determinismTolerance),
    ("knowledge_dependency", wordText characteristics.knowledgeDependency),
    ("creativity_requirement", wordText characteristics.creativityRequirement),
    ("reasoning_complexity", wordText characteristics.reasoningComplexity),
    ("verification_difficulty", wordText characteristics.verificationDifficulty),
    ("expected_output_structure", wordText characteristics.expectedOutputStructure)]

/-- `CHARACTERISTIC_NAMES`. -/
def names : List String :=
  ["inference_depth", "context_sensitivity", "determinism_tolerance", "knowledge_dependency",
    "creativity_requirement", "reasoning_complexity", "verification_difficulty",
    "expected_output_structure"]

end Characteristics

def CapabilityRecord.toDict (record : CapabilityRecord) : Json :=
  .obj [("kind", .str "capability"), ("id", .str record.id), ("category", wordText record.category),
    ("characteristics", record.characteristics.toDict),
    ("facets", .arr (record.facets.map .str)), ("lifecycle", wordText record.lifecycle)]

def RelationshipRecord.toDict (record : RelationshipRecord) : Json :=
  .obj [("kind", .str "relationship"), ("relationship_kind", wordText record.kind),
    ("src", .str record.src), ("dst", .str record.dst)]

def Reliability.toDict (reliability : Reliability) : Json :=
  .obj [("baseline", wordText reliability.baseline),
    ("priors_version", writeOptional .int reliability.priorsVersion)]

def ClaimedRungs.toJson (claimed : ClaimedRungs) : Json := .arr (claimed.rungs.map wordText)

def DescriptorRow.toDict (row : DescriptorRow) : Json :=
  .obj [("kind", .str "descriptor_row"), ("provider_id", .str row.providerId),
    ("capabilities_claimed", writeDict ClaimedRungs.toJson row.capabilitiesClaimed),
    ("context_capacity_class", wordText row.contextCapacityClass),
    ("cost_class", wordText row.costClass), ("latency_class", wordText row.latencyClass),
    ("determinism_class", wordText row.determinismClass),
    ("deployment_locality", wordText row.deploymentLocality),
    ("privacy_domain", wordText row.privacyDomain),
    ("compliance_tags", .arr (row.complianceTags.map .str)),
    ("reliability", row.reliability.toDict), ("request_form", wordText row.requestForm)]

variable (data : Json)

/-- The characteristics under exactly the eight names. -/
def readCharacteristics : Option Characteristics := do
  let fields ← data.fields?
  if ∀ name ∈ fields.map Prod.fst, name ∈ Characteristics.names then
    some {
      inferenceDepth := ← word? (data.item "inference_depth")
      contextSensitivity := ← word? (data.item "context_sensitivity")
      determinismTolerance := ← word? (data.item "determinism_tolerance")
      knowledgeDependency := ← word? (data.item "knowledge_dependency")
      creativityRequirement := ← word? (data.item "creativity_requirement")
      reasoningComplexity := ← word? (data.item "reasoning_complexity")
      verificationDifficulty := ← word? (data.item "verification_difficulty")
      expectedOutputStructure := ← word? (data.item "expected_output_structure") }
  else none

def rebuildCapability : Option CapabilityRecord := do
  some {
    id := ← text? (data.item "id")
    category := ← word? (data.item "category")
    characteristics := ← readCharacteristics (data.item "characteristics")
    facets := ← tuple? (data.item "facets")
    lifecycle := ← word? (data.item "lifecycle") }

def rebuildRelationship : Option RelationshipRecord := do
  some ⟨← word? (data.item "relationship_kind"), ← text? (data.item "src"),
    ← text? (data.item "dst")⟩

/-- `tuple(sorted(set(rungs)))`, unless it is empty. -/
def ClaimedRungs.ofRungs? (rungs : List Rung) : Option ClaimedRungs :=
  let sorted := ([.c0, .c1, .c2, .c3, .c4] : List Rung).filter fun rung ↦ rung ∈ rungs
  if hsorted : sorted ≠ [] then some ⟨sorted, hsorted, List.filter_sublist⟩ else none

def readClaimedRungs : Option ClaimedRungs := do
  let rungs ← list? word? data
  ClaimedRungs.ofRungs? rungs

/-- The reliability of a row, with its default. -/
def readReliability : Option Reliability :=
  if data.truthy then do
    some ⟨← word? (data.item "baseline"), ← optional? int? (data.item "priors_version")⟩
  else some ⟨.medium, none⟩

def rebuildDescriptorRow : Option DescriptorRow := do
  let claims ← dict? readClaimedRungs (data.item "capabilities_claimed")
  if hclaims : claims.items ≠ [] then
    some {
      providerId := ← text? (data.item "provider_id")
      capabilitiesClaimed := claims
      contextCapacityClass := ← word? (data.item "context_capacity_class")
      costClass := ← word? (data.item "cost_class")
      latencyClass := ← word? (data.item "latency_class")
      determinismClass := ← word? (data.item "determinism_class")
      deploymentLocality := ← word? (data.item "deployment_locality")
      privacyDomain := ← word? (data.item "privacy_domain")
      complianceTags := ← tuple? (data.item "compliance_tags")
      reliability := ← readReliability (data.item "reliability")
      requestForm := ← word? (data.item "request_form")
      claims_nonempty := hclaims }
  else none

/-! ### Reading back -/

variable {Word : Type}

@[simp] theorem word?_wordText [ClosedVocabulary Word] (word : Word) :
    word? (wordText word) = some word :=
  ClosedVocabulary.read_text word

@[simp] theorem canonical_wordText [ClosedVocabulary Word] (word : Word) :
    (wordText word).canonical = wordText word :=
  canonical_str _

theorem canonical_texts (texts : List String) :
    (Json.arr (texts.map .str)).canonical = .arr (texts.map .str) := by
  rw [Json.canonical, canonicalElements_eq_map, map_map]
  exact congrArg Json.arr (map_congr_left fun text _ ↦ canonical_str text)

theorem tuple?_texts (texts : List String) : tuple? (.arr (texts.map .str)) = some texts := by
  refine mapM_eq_some_iff.mpr (forall₂_map_left_iff.mpr ?_)
  exact forall₂_same.mpr fun _ _ ↦ rfl

theorem readCharacteristics_canonical (characteristics : Characteristics) :
    readCharacteristics characteristics.toDict.canonical = some characteristics := by
  have hnames : ∀ name ∈ (Json.canonicalFields (characteristics.toDict.fields?.getD [])).map
      Prod.fst, name ∈ Characteristics.names := by
    intro name hname
    exact (map_fst_canonicalFields_perm _).mem_iff.mp hname
  unfold readCharacteristics
  have hfields : characteristics.toDict.canonical.fields? =
      some (Json.canonicalFields (characteristics.toDict.fields?.getD [])) := by
    rw [Characteristics.toDict, Json.canonical]
    rfl
  rw [hfields]
  simp only [bind, Option.bind, if_pos hnames]
  simp [Characteristics.toDict, Json.item, Json.getD, get?_canonical, find_cons]

theorem rebuildCapability_canonical (record : CapabilityRecord) :
    rebuildCapability record.toDict.canonical = some record := by
  simp [rebuildCapability, CapabilityRecord.toDict, Json.item, Json.getD, get?_canonical,
    find_cons, readCharacteristics_canonical, canonical_str, canonical_texts,
    tuple?_texts, text?]

theorem rebuildRelationship_canonical (record : RelationshipRecord) :
    rebuildRelationship record.toDict.canonical = some record := by
  simp [rebuildRelationship, RelationshipRecord.toDict, Json.item, Json.getD, get?_canonical,
    find_cons, canonical_str, text?]

theorem filter_mem_of_sublist {Item : Type} [DecidableEq Item] {part items : List Item}
    (hpart : part.Sublist items) (hnodup : items.Nodup) :
    (items.filter fun item ↦ item ∈ part) = part := by
  induction hpart with
  | slnil => rfl
  | @cons part items item hpart ih =>
    obtain ⟨hitem, hrest⟩ := nodup_cons.mp hnodup
    rw [filter_cons_of_neg (by simpa using fun hmem ↦ hitem (hpart.subset hmem)), ih hrest]
  | @cons_cons part items item hpart ih =>
    obtain ⟨hitem, hrest⟩ := nodup_cons.mp hnodup
    rw [filter_cons_of_pos (by simp)]
    refine congrArg (item :: ·) ((filter_congr fun other hother ↦ ?_).trans (ih hrest))
    have hne : other ≠ item := fun heq ↦ hitem (heq ▸ hother)
    simp [hne]

theorem readsBack_claimedRungs (claimed : ClaimedRungs) :
    ReadsBack readClaimedRungs ClaimedRungs.toJson claimed := by
  have hcanonical : claimed.toJson.canonical = claimed.toJson := by
    rw [ClaimedRungs.toJson, Json.canonical, canonicalElements_eq_map, map_map]
    exact congrArg Json.arr (map_congr_left fun rung _ ↦ canonical_wordText rung)
  have hrungs : list? word? claimed.toJson = some claimed.rungs := by
    refine mapM_eq_some_iff.mpr (forall₂_map_left_iff.mpr ?_)
    exact forall₂_same.mpr fun rung _ ↦ word?_wordText rung
  refine ⟨claimed, ?_, rfl⟩
  rw [hcanonical, readClaimedRungs, hrungs]
  have hsorted := filter_mem_of_sublist claimed.sorted (by decide)
  simp only [bind, Option.bind, ClaimedRungs.ofRungs?, hsorted]
  exact dif_pos claimed.nonempty

theorem readReliability_canonical (reliability : Reliability) :
    readReliability reliability.toDict.canonical = some reliability := by
  obtain ⟨baseline, version⟩ := reliability
  have htruthy : (Reliability.mk baseline version).toDict.canonical.truthy = true := by
    simp only [Reliability.toDict, Json.canonical, Json.canonicalFields,
      Json.insertField, Json.truthy]
    split <;> rfl
  rw [readReliability, if_pos htruthy]
  cases version <;>
    simp [Reliability.toDict, Json.item, Json.getD, get?_canonical, find_cons,
      writeOptional, canonical_null, canonical_int, optional?, int?]

theorem exists_rebuiltRow (row : DescriptorRow) :
    ∃ copy, rebuildDescriptorRow row.toDict.canonical = some copy ∧
      copy.toDict.canonical = row.toDict.canonical ∧ copy.providerId = row.providerId := by
  obtain ⟨claims, hread, hclaims⟩ :=
    @readsBack_dict _ readClaimedRungs ClaimedRungs.toJson row.capabilitiesClaimed fun claimed _ ↦
      readsBack_claimedRungs claimed
  have hnonempty : claims.items ≠ [] := by
    intro hnil
    have hkeys := keys_perm_of_written hclaims
    rw [OrderedDict.keys, hnil, map_nil, nil_perm, OrderedDict.keys, map_eq_nil_iff] at hkeys
    exact row.claims_nonempty hkeys
  refine ⟨{ row with capabilitiesClaimed := claims, claims_nonempty := hnonempty }, ?_, ?_, rfl⟩
  · simp [rebuildDescriptorRow, DescriptorRow.toDict, Json.item, Json.getD, get?_canonical,
      find_cons, hread, hnonempty, canonical_str, canonical_texts, tuple?_texts, text?,
      readReliability_canonical]
  · simp only [DescriptorRow.toDict, Json.canonical, Json.canonicalFields, hclaims]

variable {reader : FloatReader}

theorem holdable_wordText [ClosedVocabulary Word] (word : Word) :
    Holdable reader (wordText word) := by
  simp [wordText, Holdable]

theorem holdable_texts (texts : List String) :
    Holdable reader (.arr (texts.map .str)) := by
  refine holdableElements_iff.mpr fun value hvalue ↦ ?_
  obtain ⟨text, -, rfl⟩ := mem_map.mp hvalue
  simp [Holdable]

theorem holdable_capability (record : CapabilityRecord) :
    Holdable reader record.toDict := by
  have htexts := @holdable_texts reader record.facets
  simp [CapabilityRecord.toDict, Characteristics.toDict, Holdable,
    HoldableFields, wordText] at htexts ⊢
  exact htexts

theorem holdable_relationship (record : RelationshipRecord) :
    Holdable reader record.toDict := by
  simp [RelationshipRecord.toDict, Holdable, HoldableFields, wordText]

theorem holdable_descriptorRow (row : DescriptorRow) : Holdable reader row.toDict := by
  have htags := @holdable_texts reader row.complianceTags
  have hclaims : Holdable reader
      (writeDict ClaimedRungs.toJson row.capabilitiesClaimed) := by
    simp only [writeDict, Holdable, map_map]
    refine ⟨row.capabilitiesClaimed.nodup, holdableFields_iff.mpr fun field hfield ↦ ?_⟩
    obtain ⟨item, -, rfl⟩ := mem_map.mp hfield
    refine holdableElements_iff.mpr fun value hvalue ↦ ?_
    obtain ⟨rung, -, rfl⟩ := mem_map.mp hvalue
    exact holdable_wordText rung
  have hreliability : Holdable reader row.reliability.toDict := by
    obtain ⟨baseline, version⟩ := row.reliability
    cases version <;> simp [Reliability.toDict, writeOptional, Holdable,
      HoldableFields, wordText]
  simp [DescriptorRow.toDict, Holdable, HoldableFields, wordText, hclaims, hreliability]
  simpa [Holdable] using htags

end AbsoluteZero.Reasoning

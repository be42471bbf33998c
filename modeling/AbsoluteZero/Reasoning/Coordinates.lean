import AbsoluteZero.Reasoning.Persistence

/-!
# Replay coordinates

Two artifacts are the same when they are written with one text. A load gives an artifact back
exactly when its key was free or already held a text that stands for it (`Artifact.roundTrips_iff`);
only what is kept under its content hash notices a text of another artifact
(`Artifact.replayCoordinate_iff`).
-/

namespace AbsoluteZero.Reasoning

open Foundations Reading OrderedDict Checked List

/-! ### Artifacts and coordinates -/

/-- An artifact of one of the five persisted kinds. -/
inductive Artifact
  | decision (record : DecisionRecord)
  | outcome (record : SealedOutcomeRecord)
  | priors (artifact : PriorsArtifact)
  | descriptorSpace (snapshot : SpaceSnapshot)
  | schemas (registry : SchemaRegistry)

/-- What a replay names an artifact by. -/
inductive Coordinate
  | decision (hash : String)
  | outcome (hash : String)
  | priors (version : Int)
  | descriptorSpace (version : Int)
  | schemas

namespace Coordinate

def key : Coordinate → String
  | .decision hash => decisionKey hash
  | .outcome hash => outcomeKey hash
  | .priors version => priorsKey version
  | .descriptorSpace version => descriptorSpaceKey version
  | .schemas => schemaRegistryKey

def load (platform : Platform) (storage : Storage) : Coordinate → Except LoadError Artifact
  | .decision hash => (loadDecisionRecord platform hash storage).map .decision
  | .outcome hash => (loadSealedOutcome platform hash storage).map .outcome
  | .priors version => (loadPriorsArtifact platform version storage).map .priors
  | .descriptorSpace version =>
    (loadDescriptorSpaceVersion platform version storage).map .descriptorSpace
  | .schemas => (loadSchemaRegistry platform storage).map .schemas

def build (platform : Platform) (text : String) : Coordinate → Except LoadError Artifact
  | .decision _ => (decode platform readDecisionRecord text).map .decision
  | .outcome _ => (decode platform readSealedOutcome text).map .outcome
  | .priors _ => (decode platform readPriorsArtifact text).map .priors
  | .descriptorSpace version =>
    (decode platform (SpaceSnapshot.readSnapshot platform version) text).map .descriptorSpace
  | .schemas => do
    let entries ← decode platform (list? readSchemaEntry) text
    match registerAll entries with
    | .error _ => .error .malformed
    | .ok registry => .ok (.schemas registry)

end Coordinate

namespace Artifact

/-- The value that is written for an artifact, if it can be written. -/
def written? : Artifact → Except PyError Json
  | .decision record => .ok record.toDict
  | .outcome record => record.toDict
  | .priors artifact => .ok artifact.toDict
  | .descriptorSpace snapshot => .ok snapshot.content
  | .schemas registry => .ok (writeList schemaEntry registry.entries)

def coordinateOf (platform : Platform) (written : Json) : Artifact → Coordinate
  | .decision _ => .decision (platform.hash written)
  | .outcome _ => .outcome (platform.hash written)
  | .priors artifact => .priors artifact.priorsVersion
  | .descriptorSpace snapshot => .descriptorSpace snapshot.version
  | .schemas _ => .schemas

/-- The persist function of the artifact's kind: the coordinate, and the storage afterwards. -/
def persist (platform : Platform) (storage : Storage) :
    Artifact → Except PyError (Coordinate × Storage)
  | .decision record =>
    .ok (.decision (record.contentHash platform), persistDecisionRecord platform record storage)
  | .outcome record =>
    (persistSealedOutcome platform record storage).map fun persisted ↦
      (.outcome persisted.1, persisted.2)
  | .priors artifact =>
    .ok (.priors artifact.priorsVersion, persistPriorsArtifact artifact storage)
  | .descriptorSpace snapshot =>
    .ok (.descriptorSpace snapshot.version, persistDescriptorSpaceVersion snapshot storage)
  | .schemas registry => .ok (.schemas, persistSchemaRegistry registry storage)

/-- The kinds that are kept under their content hash. -/
def contentAddressed : Artifact → Bool
  | .decision _ | .outcome _ => true
  | .priors _ | .descriptorSpace _ | .schemas _ => false

/-- Artifacts of one kind that are written with one text. -/
def Same : Artifact → Artifact → Prop
  | .decision first, .decision second =>
    JsonText.dumps first.toDict = JsonText.dumps second.toDict
  | .outcome first, .outcome second =>
    ∃ text, first.canonical = .ok text ∧ second.canonical = .ok text
  | .priors first, .priors second => JsonText.dumps first.toDict = JsonText.dumps second.toDict
  | .descriptorSpace first, .descriptorSpace second =>
    JsonText.dumps first.content = JsonText.dumps second.content
  | .schemas first, .schemas second =>
    JsonText.dumps (writeList schemaEntry first.entries) =
      JsonText.dumps (writeList schemaEntry second.entries)
  | _, _ => False

def Holdable (platform : Platform) (artifact : Artifact) : Prop :=
  ∀ written, artifact.written? = .ok written → JsonText.Holdable platform.reader written

/-- A text that was stored under the artifact's key before and stands for it: it decodes to the
artifact. A text of a version-addressed kind has to be written as the artifact is; the schema
registry overwrites every text. -/
def StandsFor (platform : Platform) (text : String) : Artifact → Prop
  | .decision record =>
    ∃ other, decode platform readDecisionRecord text = .ok other ∧
      (Artifact.decision other).Same (.decision record)
  | .outcome record =>
    ∃ other, decode platform readSealedOutcome text = .ok other ∧
      (Artifact.outcome other).Same (.outcome record)
  | .priors artifact =>
    ∃ data other, decode platform some text = .ok data ∧
      decode platform readPriorsArtifact text = .ok other ∧
      other.priorsVersion = artifact.priorsVersion ∧
      JsonText.dumps data = JsonText.dumps artifact.toDict ∧
      (Artifact.priors other).Same (.priors artifact)
  | .descriptorSpace snapshot => text = JsonText.dumps snapshot.content
  | .schemas _ => True

/-- The artifact can be written, and its key is free or holds a text that stands for it. -/
def Fits (platform : Platform) (storage : Storage) (artifact : Artifact) : Prop :=
  ∃ written, artifact.written? = .ok written ∧
    ∀ text ∈ storage.get? (artifact.coordinateOf platform written).key,
      artifact.StandsFor platform text

def RoundTrips (platform : Platform) (storage : Storage) (artifact : Artifact) : Prop :=
  ∃ coordinate stored loaded, artifact.persist platform storage = .ok (coordinate, stored) ∧
    coordinate.load platform stored = .ok loaded ∧ loaded.Same artifact

/-- Whenever the stored text is replaced by one that decodes to another artifact, the load refuses
it as poisoned. -/
def TamperEvident (platform : Platform) (storage : Storage) (artifact : Artifact) : Prop :=
  ∀ coordinate stored text other, artifact.persist platform storage = .ok (coordinate, stored) →
    coordinate.build platform text = .ok other → ¬ other.Same artifact →
      ∃ message, coordinate.load platform (stored.insert coordinate.key text) =
        .error (.poisoned message)

/-! ### Loading a text that stands for the artifact -/

variable {platform : Platform} {storage : Storage}

variable {text : String}

theorem load_decision_iff {record : DecisionRecord}
    (htext : storage.get? (decisionKey (record.contentHash platform)) = some text) :
    (∃ loaded, (Coordinate.decision (record.contentHash platform)).load platform storage =
        .ok loaded ∧ loaded.Same (.decision record)) ↔
      (Artifact.decision record).StandsFor platform text := by
  simp only [Coordinate.load, map_eq_ok_iff, loadDecisionRecord_eq_ok_iff, htext, StandsFor]
  constructor
  · rintro ⟨loaded, ⟨other, ⟨same, hsame, hother, -⟩, rfl⟩, hwritten⟩
    cases hsame
    exact ⟨other, hother, hwritten⟩
  · rintro ⟨other, hother, hwritten⟩
    exact ⟨.decision other, ⟨other, ⟨text, rfl, hother, congrArg platform.digest hwritten⟩, rfl⟩,
      hwritten⟩

theorem contentHash_of_canonical {record : SealedOutcomeRecord}
    (hrecord : record.canonical = .ok text) :
    record.contentHash platform = .ok (platform.digest text) := by
  obtain ⟨written, hwritten, rfl⟩ := map_eq_ok_iff.mp hrecord
  exact map_eq_ok_iff.mpr ⟨written, hwritten, rfl⟩

variable {written : Json}

theorem load_outcome_iff {record : SealedOutcomeRecord} (hwritten : record.toDict = .ok written)
    (htext : storage.get? (outcomeKey (platform.hash written)) = some text) :
    (∃ loaded, (Coordinate.outcome (platform.hash written)).load platform storage = .ok loaded ∧
        loaded.Same (.outcome record)) ↔ (Artifact.outcome record).StandsFor platform text := by
  have hrecord : record.canonical = .ok (JsonText.dumps written) :=
    map_eq_ok_iff.mpr ⟨written, hwritten, rfl⟩
  simp only [Coordinate.load, map_eq_ok_iff, loadSealedOutcome_eq_ok_iff, htext, StandsFor]
  constructor
  · rintro ⟨loaded, ⟨other, ⟨same, hsame, hother, -⟩, rfl⟩, halike⟩
    cases hsame
    exact ⟨other, hother, halike⟩
  · rintro ⟨other, hother, otherText, hotherText, hrecordText⟩
    rw [hrecord] at hrecordText
    cases hrecordText
    exact ⟨.outcome other, ⟨other, ⟨text, rfl, hother, contentHash_of_canonical hotherText⟩, rfl⟩,
      _, hotherText, hrecord⟩

theorem load_priors_iff {artifact : PriorsArtifact} {text : String}
    (htext : storage.get? (priorsKey artifact.priorsVersion) = some text) :
    (∃ loaded, (Coordinate.priors artifact.priorsVersion).load platform storage = .ok loaded ∧
        loaded.Same (.priors artifact)) ↔ (Artifact.priors artifact).StandsFor platform text := by
  simp only [Coordinate.load, map_eq_ok_iff, loadPriorsArtifact_eq_ok_iff, htext, StandsFor]
  constructor
  · rintro ⟨loaded, ⟨other, ⟨same, hsame, data, hdata, hother, hversion, hchecked⟩, rfl⟩, halike⟩
    cases hsame
    exact ⟨data, other, hdata, hother, hversion, hchecked.symm.trans halike, halike⟩
  · rintro ⟨data, other, hdata, hother, hversion, hwritten, halike⟩
    exact ⟨.priors other, ⟨other, ⟨text, rfl, data, hdata, hother, hversion,
      Eq.trans halike hwritten.symm⟩, rfl⟩, halike⟩

theorem canonical_truthy_arr (elements : List Json) :
    (Json.arr elements).canonical.truthy = !elements.isEmpty := by
  cases elements <;> simp [Json.canonical, Json.canonicalElements, Json.truthy]

theorem readsBack_proposals (proposals : List JsonDict) :
    ReadsBack readProposals (writeList JsonDict.toJson) proposals := by
  by_cases hnil : proposals = []
  · rw [hnil]
    exact ⟨[], rfl, rfl⟩
  · obtain ⟨copies, hread, hcopies⟩ := readsBack_list fun proposal (_ : proposal ∈ proposals) ↦
      readsBack_jsonDict proposal
    have htruthy : (writeList JsonDict.toJson proposals).canonical.truthy = true := by
      rw [writeList, canonical_truthy_arr]
      simpa using hnil
    exact ⟨copies, (if_pos htruthy).trans hread, hcopies⟩

theorem exists_rebuiltPriors (artifact : PriorsArtifact) :
    ∃ copy, readPriorsArtifact artifact.toDict.canonical = some copy ∧
      copy.priorsVersion = artifact.priorsVersion ∧
      copy.toDict.canonical = artifact.toDict.canonical := by
  obtain ⟨providers, hproviders, hproviders'⟩ := readsBack_jsonDict artifact.providerPriors
  obtain ⟨routing, hrouting, hrouting'⟩ := readsBack_jsonDict artifact.routingPriors
  obtain ⟨shapes, hshapes, hshapes'⟩ := readsBack_jsonDict artifact.demandShapePriors
  obtain ⟨proposals, hproposals, hproposals'⟩ := readsBack_proposals artifact.policyProposals
  refine ⟨⟨artifact.priorsVersion, providers, routing, shapes, proposals, artifact.version_pos⟩, ?_,
    rfl, ?_⟩
  · have hnames : (∀ name ∈ (Json.canonicalFields (artifact.toDict.fields?.getD [])).map Prod.fst,
        name ∈ "policy_proposals" :: requiredPriors) ∧ ∀ name ∈ requiredPriors,
          name ∈ (Json.canonicalFields (artifact.toDict.fields?.getD [])).map Prod.fst := by
      have hmem (name : String) := @List.Perm.mem_iff _ name _ _
        (JsonText.map_fst_canonicalFields_perm (artifact.toDict.fields?.getD []))
      simp only [hmem]
      simp [PriorsArtifact.toDict, Json.fields?, requiredPriors]
    have hfields : artifact.toDict.canonical.fields? =
        some (Json.canonicalFields (artifact.toDict.fields?.getD [])) := by
      rfl
    have hversion : artifact.toDict.canonical.item "priors_version" =
        .int artifact.priorsVersion := by
      simp [PriorsArtifact.toDict, Json.item, Json.getD, get?_canonical, find_cons, canonical_int]
    have hitems : artifact.toDict.canonical.item "provider_priors" =
          artifact.providerPriors.toJson.canonical ∧
        artifact.toDict.canonical.item "routing_priors" = artifact.routingPriors.toJson.canonical ∧
        artifact.toDict.canonical.item "demand_shape_priors" =
          artifact.demandShapePriors.toJson.canonical ∧
        artifact.toDict.canonical.item "policy_proposals" =
          (writeList JsonDict.toJson artifact.policyProposals).canonical := by
      refine ⟨?_, ?_, ?_, ?_⟩ <;> simp [PriorsArtifact.toDict, Json.item, Json.getD, get?_canonical,
        find_cons]
    obtain ⟨hprovider, hroute, hshape, hproposal⟩ := hitems
    unfold readPriorsArtifact
    rw [hfields, hversion, hprovider, hroute, hshape, hproposal, hproviders, hrouting, hshapes,
      hproposals]
    simp only [bind, Option.bind, if_pos hnames, int?, dif_pos artifact.version_pos]
  · simp only [PriorsArtifact.toDict, Json.canonical, Json.canonicalFields, hproviders', hrouting',
      hshapes', hproposals']

/-- Assumes: each record is rebuilt from its text as one with the same key and the same text. Sorted
records are rebuilt as records that are sorted and have the same texts. -/
theorem exists_rebuiltRecords {Record Key : Type} [LinearOrder Key] {toDict : Record → Json}
    {rebuild : Json → Option Record} {key : Record → Key} {records : List Record}
    (hrecords : ∀ record, JsonText.Holdable platform.reader (toDict record) ∧
      ∃ copy, rebuild (toDict record).canonical = some copy ∧
        (toDict copy).canonical = (toDict record).canonical ∧ key copy = key record) :
    ∃ copies, list? (SpaceSnapshot.readRecord platform rebuild) (Json.arr
        ((sortedBy key records).map (SpaceSnapshot.recordText toDict))).canonical = some copies ∧
      (sortedBy key copies).map (SpaceSnapshot.recordText toDict) =
        (sortedBy key records).map (SpaceSnapshot.recordText toDict) := by
  have hsorted := pairwise_sortedBy key records
  revert hsorted
  generalize sortedBy key records = sorted
  intro hsorted
  obtain ⟨copies, hcopies⟩ : ∃ copies, List.Forall₂ (fun record copy ↦
      SpaceSnapshot.readRecord platform rebuild (SpaceSnapshot.recordText toDict record) =
        some copy ∧ SpaceSnapshot.recordText toDict copy = SpaceSnapshot.recordText toDict record ∧
        key copy = key record) sorted copies := by
    refine exists_forall₂ fun record _ ↦ ?_
    obtain ⟨hholdable, copy, hread, hcopy, hkey⟩ := hrecords record
    refine ⟨copy, ?_, congrArg Json.str (dumps_congr hcopy), hkey⟩
    change (JsonText.loads platform.reader (JsonText.dumps (toDict record))).bind rebuild =
      some copy
    rw [JsonText.loads_dumps hholdable]
    exact hread
  have hkeys : copies.map key = sorted.map key :=
    map_eq_of_forall₂ (hcopies.imp fun _ _ hcopy ↦ hcopy.2.2)
  have hcopiesSorted : copies.Pairwise fun first second ↦ key first ≤ key second := by
    have hpairwise : (sorted.map key).Pairwise (· ≤ ·) := pairwise_map.mpr hsorted
    rw [← hkeys] at hpairwise
    exact pairwise_map.mp hpairwise
  refine ⟨copies, ?_, ?_⟩
  · rw [Json.canonical, canonicalElements_eq_map, map_map]
    refine mapM_eq_some_iff.mpr (forall₂_map_left_iff.mpr (hcopies.imp fun record _ hcopy ↦ ?_))
    exact hcopy.1
  · rw [show sortedBy key copies = copies from hcopiesSorted.insertionSort_eq]
    exact map_eq_of_forall₂ (hcopies.imp fun _ _ hcopy ↦ hcopy.2.1)

theorem holdable_recordTexts {Record : Type} (toDict : Record → Json) (records : List Record) :
    JsonText.Holdable platform.reader (.arr (records.map (SpaceSnapshot.recordText toDict))) := by
  refine JsonText.holdableElements_iff.mpr fun value hvalue ↦ ?_
  obtain ⟨record, -, rfl⟩ := mem_map.mp hvalue
  simp [SpaceSnapshot.recordText, JsonText.Holdable]

theorem holdable_content (snapshot : SpaceSnapshot) :
    JsonText.Holdable platform.reader snapshot.content := by
  have hcapabilities := @holdable_recordTexts platform _ CapabilityRecord.toDict
    (sortedBy CapabilityRecord.id snapshot.capabilities)
  have hrelationships := @holdable_recordTexts platform _ RelationshipRecord.toDict
    (sortedBy RelationshipRecord.key snapshot.relationships)
  have hrows := @holdable_recordTexts platform _ DescriptorRow.toDict
    (sortedBy DescriptorRow.providerId snapshot.descriptorRows)
  exact ⟨by simp, trivial, hcapabilities, hrelationships, hrows, trivial⟩

theorem exists_rebuiltSnapshot (snapshot : SpaceSnapshot) :
    ∃ copy, SpaceSnapshot.readSnapshot platform snapshot.version snapshot.content.canonical =
      some copy ∧ copy.content = snapshot.content := by
  obtain ⟨capabilities, hcapabilities, hcapabilities'⟩ := @exists_rebuiltRecords platform _ _ _
    CapabilityRecord.toDict rebuildCapability CapabilityRecord.id snapshot.capabilities
    fun record ↦ ⟨holdable_capability record, record, rebuildCapability_canonical record, rfl, rfl⟩
  obtain ⟨relationships, hrelationships, hrelationships'⟩ := @exists_rebuiltRecords platform _ _ _
    RelationshipRecord.toDict rebuildRelationship RelationshipRecord.key snapshot.relationships
    fun record ↦
      ⟨holdable_relationship record, record, rebuildRelationship_canonical record, rfl, rfl⟩
  obtain ⟨rows, hrows, hrows'⟩ := @exists_rebuiltRecords platform _ _ _ DescriptorRow.toDict
    rebuildDescriptorRow DescriptorRow.providerId snapshot.descriptorRows
    fun row ↦ ⟨holdable_descriptorRow row, exists_rebuiltRow row⟩
  refine ⟨⟨snapshot.version, capabilities, relationships, rows⟩, ?_, ?_⟩
  · have hitems : snapshot.content.canonical.item "capabilities" = (Json.arr
          ((sortedBy CapabilityRecord.id snapshot.capabilities).map
            (SpaceSnapshot.recordText CapabilityRecord.toDict))).canonical ∧
        snapshot.content.canonical.item "relationships" = (Json.arr
          ((sortedBy RelationshipRecord.key snapshot.relationships).map
            (SpaceSnapshot.recordText RelationshipRecord.toDict))).canonical ∧
        snapshot.content.canonical.item "descriptor_rows" = (Json.arr
          ((sortedBy DescriptorRow.providerId snapshot.descriptorRows).map
            (SpaceSnapshot.recordText DescriptorRow.toDict))).canonical := by
      refine ⟨?_, ?_, ?_⟩ <;>
        simp only [SpaceSnapshot.content, Json.item, Json.getD, get?_canonical,
          find_cons, String.reduceEq, if_false, if_true, Option.map_some,
          Option.getD_some]
    obtain ⟨hcapability, hrelationship, hrow⟩ := hitems
    unfold SpaceSnapshot.readSnapshot
    rw [hcapability, hrelationship, hrow, hcapabilities, hrelationships, hrows]
    rfl
  · simp only [SpaceSnapshot.content, hcapabilities', hrelationships', hrows']

theorem load_descriptorSpace_iff {snapshot : SpaceSnapshot} {text : String}
    (htext : storage.get? (descriptorSpaceKey snapshot.version) = some text) :
    (∃ loaded, (Coordinate.descriptorSpace snapshot.version).load platform storage = .ok loaded ∧
        loaded.Same (.descriptorSpace snapshot)) ↔
      (Artifact.descriptorSpace snapshot).StandsFor platform text := by
  simp only [Coordinate.load, map_eq_ok_iff, loadDescriptorSpaceVersion_eq_ok_iff, htext, StandsFor]
  constructor
  · rintro ⟨loaded, ⟨other, ⟨same, hsame, -, hchecked⟩, rfl⟩, halike⟩
    cases hsame
    exact hchecked.symm.trans halike
  · rintro rfl
    obtain ⟨copy, hcopy, hcontent⟩ := @exists_rebuiltSnapshot platform snapshot
    have halike : JsonText.dumps copy.content = JsonText.dumps snapshot.content :=
      congrArg JsonText.dumps hcontent
    exact ⟨.descriptorSpace copy, ⟨copy, ⟨_, rfl, decode_dumps (holdable_content snapshot) hcopy,
      halike⟩, rfl⟩, halike⟩

section

variable (entries : List ((String × Int) × List String))

theorem canonical_schemaEntries :
    (writeList schemaEntry entries).canonical = writeList schemaEntry entries := by
  rw [writeList, Json.canonical, canonicalElements_eq_map, map_map]
  refine congrArg Json.arr (map_congr_left fun entry _ ↦ ?_)
  rw [Function.comp_apply, schemaEntry, Json.canonical, canonicalElements_eq_map]
  simp only [map_cons, map_nil, canonical_str, canonical_int, canonical_texts]

theorem holdable_schemaEntries :
    JsonText.Holdable platform.reader (writeList schemaEntry entries) := by
  refine JsonText.holdableElements_iff.mpr fun value hvalue ↦ ?_
  obtain ⟨entry, -, rfl⟩ := mem_map.mp hvalue
  have hfields := @holdable_texts platform.reader entry.2
  exact ⟨trivial, trivial, hfields, trivial⟩

theorem list?_schemaEntries :
    list? readSchemaEntry (writeList schemaEntry entries) = some entries := by
  refine mapM_eq_some_iff.mpr (forall₂_map_left_iff.mpr ?_)
  refine forall₂_same.mpr fun entry _ ↦ ?_
  simp [schemaEntry, readSchemaEntry, text?, int?, tuple?_texts]

end

theorem foldlM_register {entries : List ((String × Int) × List String)} {registry : SchemaRegistry}
    (hkeys : (registry.keys ++ entries.map Prod.fst).Nodup) :
    ∃ filled, entries.foldlM (fun registry entry ↦
        SchemaRegistry.register registry entry.1.1 entry.1.2 entry.2) registry = .ok filled ∧
      filled.items = registry.items ++ entries := by
  induction entries generalizing registry with
  | nil => exact ⟨registry, rfl, (append_nil _).symm⟩
  | cons entry rest ih =>
    have hnew : entry.1 ∉ registry.items.map Prod.fst := fun hmem ↦
      (List.nodup_append.mp hkeys).2.2 _ hmem _ mem_cons_self rfl
    have hitems : (registry.insert entry.1 entry.2).items = registry.items ++ [entry] :=
      upsert_of_notMem hnew
    have hfree : registry.get? entry.1 = none := by
      rw [get?_eq_none_iff]
      exact hnew
    obtain ⟨filled, hfilled, hfilledItems⟩ := @ih (registry.insert entry.1 entry.2) (by
      rw [OrderedDict.keys, hitems, map_append, append_assoc]
      exact hkeys)
    refine ⟨filled, ?_, by rw [hfilledItems, hitems, append_assoc]; rfl⟩
    rw [foldlM_cons, SchemaRegistry.register, hfree]
    exact hfilled

theorem exists_registerAll (registry : SchemaRegistry) :
    ∃ filled, registerAll registry.entries = .ok filled ∧ filled.entries = registry.entries := by
  have hperm : registry.entries.Perm registry.items := perm_sortedBy _ _
  obtain ⟨filled, hfilled, hitems⟩ := @foldlM_register registry.entries .empty
    ((hperm.map Prod.fst).nodup_iff.mpr registry.nodup)
  refine ⟨filled, hfilled, ?_⟩
  have hsorted : registry.entries.Pairwise fun first second ↦
      toLex first.1 ≤ toLex second.1 := pairwise_sortedBy _ _
  rw [SchemaRegistry.entries, hitems]
  exact hsorted.insertionSort_eq

theorem load_schemas {registry : SchemaRegistry} (htext : storage.get? schemaRegistryKey =
      some (JsonText.dumps (writeList schemaEntry registry.entries))) :
    ∃ loaded, Coordinate.schemas.load platform storage = .ok loaded ∧
      loaded.Same (.schemas registry) := by
  obtain ⟨filled, hfilled, hentries⟩ := exists_registerAll registry
  have hdecode : decode platform (list? readSchemaEntry)
      (JsonText.dumps (writeList schemaEntry registry.entries)) = .ok registry.entries :=
    decode_dumps (holdable_schemaEntries _)
      (by rw [canonical_schemaEntries, list?_schemaEntries])
  refine ⟨.schemas filled, map_eq_ok_iff.mpr ⟨filled, ?_, rfl⟩, ?_⟩
  · unfold loadSchemaRegistry
    rw [read_eq_ok_iff.mpr htext]
    simp only [bind, Except.bind, hdecode, hfilled, if_pos hentries]
  · exact congrArg (fun entries ↦ JsonText.dumps (writeList schemaEntry entries)) hentries

variable {artifact other third : Artifact}

theorem get?_writeOnce (storage : Storage) (key text : String) :
    (storage.writeOnce key text).get? key = some ((storage.get? key).getD text) := by
  unfold Storage.writeOnce
  cases hold : storage.get? key with
  | none => simp
  | some old => simpa using hold

theorem standsFor_own (hwritten : artifact.written? = .ok written)
    (hholdable : artifact.Holdable platform) :
    artifact.StandsFor platform (JsonText.dumps written) := by
  have hheld := hholdable written hwritten
  cases artifact with
  | decision record =>
    cases hwritten
    obtain ⟨copy, hread, hcopy⟩ := readsBack_decisionRecord record
    exact ⟨copy, decode_dumps hheld hread, dumps_congr hcopy⟩
  | outcome record =>
    obtain ⟨copy, value, hread, hvalue, hcopy⟩ := readsBack_sealedOutcome hwritten
    exact ⟨copy, decode_dumps hheld hread, JsonText.dumps value,
      map_eq_ok_iff.mpr ⟨value, hvalue, rfl⟩,
      map_eq_ok_iff.mpr ⟨written, hwritten, (dumps_congr hcopy).symm⟩⟩
  | priors artifact =>
    cases hwritten
    obtain ⟨copy, hread, hversion, hcopy⟩ := exists_rebuiltPriors artifact
    exact ⟨_, copy, decode_dumps hheld rfl, decode_dumps hheld hread, hversion,
      JsonText.dumps_canonical _, dumps_congr hcopy⟩
  | descriptorSpace snapshot =>
    cases hwritten
    rfl
  | schemas registry => trivial

theorem roundTrips_iff_of_once (hwritten : artifact.written? = .ok written)
    (hpersist : artifact.persist platform storage = .ok (artifact.coordinateOf platform written,
      storage.writeOnce (artifact.coordinateOf platform written).key (JsonText.dumps written)))
    (hload : ∀ (stored : Storage) text,
      stored.get? (artifact.coordinateOf platform written).key = some text →
        ((∃ loaded, (artifact.coordinateOf platform written).load platform stored = .ok loaded ∧
          loaded.Same artifact) ↔ artifact.StandsFor platform text))
    (hholdable : artifact.Holdable platform) :
    artifact.RoundTrips platform storage ↔ artifact.Fits platform storage := by
  have hstands := hload _ _ (get?_writeOnce storage
    (artifact.coordinateOf platform written).key (JsonText.dumps written))
  constructor
  · rintro ⟨coordinate, stored, loaded, hpersisted, hloaded, hsame⟩
    rw [hpersist] at hpersisted
    cases hpersisted
    refine ⟨written, hwritten, fun text htext ↦ ?_⟩
    have hbefore := hstands.mp ⟨loaded, hloaded, hsame⟩
    rwa [Option.mem_def.mp htext] at hbefore
  · rintro ⟨value, hvalue, hbefore⟩
    rw [hwritten] at hvalue
    cases hvalue
    obtain ⟨loaded, hloaded, hsame⟩ := hstands.mpr (by
      cases hold : storage.get? (artifact.coordinateOf platform written).key with
      | none => exact standsFor_own hwritten hholdable
      | some old => exact hbefore old hold)
    exact ⟨_, _, loaded, hpersist, hloaded, hsame⟩

theorem roundTrips_iff (hholdable : artifact.Holdable platform) :
    artifact.RoundTrips platform storage ↔ artifact.Fits platform storage := by
  cases artifact with
  | decision record =>
    exact roundTrips_iff_of_once rfl rfl (fun stored text htext ↦ load_decision_iff htext) hholdable
  | outcome record =>
    cases hwritten : record.toDict with
    | error raised =>
      have hpersist : (Artifact.outcome record).persist platform storage = .error raised := by
        rw [persist, persistSealedOutcome, hwritten]
        rfl
      constructor
      · rintro ⟨coordinate, stored, loaded, hpersisted, -⟩
        rw [hpersist] at hpersisted
        cases hpersisted
      · rintro ⟨written, hvalue, -⟩
        rw [written?, hwritten] at hvalue
        cases hvalue
    | ok written =>
      refine roundTrips_iff_of_once hwritten ?_
        (fun stored text htext ↦ load_outcome_iff hwritten htext) hholdable
      rw [persist, persistSealedOutcome, hwritten]
      rfl
  | priors artifact =>
    exact roundTrips_iff_of_once rfl rfl (fun stored text htext ↦ load_priors_iff htext) hholdable
  | descriptorSpace snapshot =>
    exact roundTrips_iff_of_once rfl rfl (fun stored text htext ↦ load_descriptorSpace_iff htext)
      hholdable
  | schemas registry =>
    refine ⟨fun _ ↦ ⟨_, rfl, fun _ _ ↦ trivial⟩, fun _ ↦ ?_⟩
    obtain ⟨loaded, hloaded, hsame⟩ := @load_schemas platform
      (persistSchemaRegistry registry storage) registry (get?_insert_self ..)
    exact ⟨_, _, loaded, rfl, hloaded, hsame⟩

/-! ### Altered texts -/

theorem tamperEvident_of_contentAddressed (hfree : platform.CollisionFree)
    (haddressed : artifact.contentAddressed = true) : artifact.TamperEvident platform storage := by
  intro coordinate stored text altered hpersist hbuild hother
  cases artifact with
  | decision record =>
    cases hpersist
    obtain ⟨rebuilt, hdecode, rfl⟩ := map_eq_ok_iff.mp hbuild
    have hhash : rebuilt.contentHash platform ≠ record.contentHash platform := fun heq ↦
      hother (hfree heq)
    refine ⟨"persistence.poisoned_decision_record:" ++ record.contentHash platform, ?_⟩
    simp only [Coordinate.load, Coordinate.key, loadDecisionRecord, hdecode,
      read_eq_ok_iff.mpr (get?_insert_self _ _ text), bind, Except.bind, if_neg hhash]
    rfl
  | outcome record =>
    cases hwritten : record.toDict with
    | error raised =>
      rw [persist, persistSealedOutcome, hwritten] at hpersist
      cases hpersist
    | ok written =>
      rw [persist, persistSealedOutcome, hwritten] at hpersist
      cases hpersist
      obtain ⟨rebuilt, hdecode, rfl⟩ := map_eq_ok_iff.mp hbuild
      have hhash : rebuilt.contentHash platform ≠ .ok (platform.hash written) := by
        intro heq
        obtain ⟨value, hvalue, hdigest⟩ := map_eq_ok_iff.mp heq
        exact hother ⟨JsonText.dumps written,
          map_eq_ok_iff.mpr ⟨value, hvalue, hfree hdigest⟩,
          map_eq_ok_iff.mpr ⟨written, hwritten, rfl⟩⟩
      refine ⟨"persistence.poisoned_sealed_outcome:" ++ platform.hash written, ?_⟩
      simp only [Coordinate.load, Coordinate.key, loadSealedOutcome, hdecode,
        read_eq_ok_iff.mpr (get?_insert_self _ _ text), bind, Except.bind, if_neg hhash]
      rfl
  | priors artifact | descriptorSpace snapshot | schemas registry => cases haddressed

theorem Same.symm (hsame : artifact.Same other) : other.Same artifact := by
  cases artifact <;> cases other <;> first
    | exact Eq.symm hsame
    | exact hsame.elim
    | exact hsame.imp fun text htexts ↦ htexts.symm

theorem Same.trans (hfirst : artifact.Same other) (hsecond : other.Same third) :
    artifact.Same third := by
  cases artifact <;> cases other <;> cases third <;> first
    | exact hfirst.elim
    | exact hsecond.elim
    | exact Eq.trans hfirst hsecond
    | skip
  obtain ⟨text, hartifact, hother⟩ := hfirst
  obtain ⟨same, hother', hthird⟩ := hsecond
  rw [hother] at hother'
  cases hother'
  exact ⟨text, hartifact, hthird⟩

theorem build_of_load {coordinate : Coordinate} {stored : Storage}
    {loaded : Artifact} (htext : stored.get? coordinate.key = some text)
    (hload : coordinate.load platform stored = .ok loaded) :
    coordinate.build platform text = .ok loaded := by
  cases coordinate with
  | decision hash =>
    obtain ⟨rebuilt, hrebuilt, rfl⟩ := map_eq_ok_iff.mp hload
    obtain ⟨same, hsame, hdecode, -⟩ := loadDecisionRecord_eq_ok_iff.mp hrebuilt
    cases htext.symm.trans hsame
    exact map_eq_ok_iff.mpr ⟨rebuilt, hdecode, rfl⟩
  | outcome hash =>
    obtain ⟨rebuilt, hrebuilt, rfl⟩ := map_eq_ok_iff.mp hload
    obtain ⟨same, hsame, hdecode, -⟩ := loadSealedOutcome_eq_ok_iff.mp hrebuilt
    cases htext.symm.trans hsame
    exact map_eq_ok_iff.mpr ⟨rebuilt, hdecode, rfl⟩
  | priors version =>
    obtain ⟨rebuilt, hrebuilt, rfl⟩ := map_eq_ok_iff.mp hload
    obtain ⟨same, hsame, data, -, hdecode, -⟩ := loadPriorsArtifact_eq_ok_iff.mp hrebuilt
    cases htext.symm.trans hsame
    exact map_eq_ok_iff.mpr ⟨rebuilt, hdecode, rfl⟩
  | descriptorSpace version =>
    obtain ⟨rebuilt, hrebuilt, rfl⟩ := map_eq_ok_iff.mp hload
    obtain ⟨same, hsame, hdecode, -⟩ := loadDescriptorSpaceVersion_eq_ok_iff.mp hrebuilt
    cases htext.symm.trans hsame
    exact map_eq_ok_iff.mpr ⟨rebuilt, hdecode, rfl⟩
  | schemas =>
    obtain ⟨rebuilt, hrebuilt, rfl⟩ := map_eq_ok_iff.mp hload
    obtain ⟨same, hsame, hdecoded⟩ := bind_eq_ok_iff.mp hrebuilt
    cases (read_eq_ok_iff.mpr htext).symm.trans hsame
    obtain ⟨entries, hentries, hchecked⟩ := bind_eq_ok_iff.mp hdecoded
    refine bind_eq_ok_iff.mpr ⟨entries, hentries, ?_⟩
    cases hregistry : registerAll entries with
    | error raised =>
      rw [hregistry] at hchecked
      cases hchecked
    | ok registry =>
      simp only [hregistry] at hchecked
      split at hchecked
      · cases hchecked
        rfl
      · cases hchecked

/-- Assumes: two artifacts that are not the same are each loaded from a text of theirs under the
coordinate of a third. One of these texts is not noticed in place of the third's. -/
theorem not_tamperEvident_of_pair {coordinate : Coordinate} {stored : Storage}
    {first second : Artifact}
    (hpersist : artifact.persist platform storage = .ok (coordinate, stored))
    (hne : ¬ first.Same second) (hload : ∀ altered : Artifact, altered = first ∨ altered = second →
      ∃ text, ∀ stored : Storage, stored.get? coordinate.key = some text →
        ∃ loaded, coordinate.load platform stored = .ok loaded ∧ loaded.Same altered) :
    ¬ artifact.TamperEvident platform storage := by
  have hother : ∀ altered : Artifact, altered = first ∨ altered = second →
      ¬ altered.Same artifact → ¬ artifact.TamperEvident platform storage := by
    intro altered haltered hother hevident
    obtain ⟨text, htext⟩ := hload altered haltered
    have hkey : (stored.insert coordinate.key text).get? coordinate.key = some text :=
      get?_insert_self ..
    obtain ⟨loaded, hloaded, hsame⟩ := htext _ hkey
    obtain ⟨message, hpoisoned⟩ := hevident coordinate stored text loaded hpersist
      (build_of_load hkey hloaded) fun halike ↦ hother (hsame.symm.trans halike)
    rw [hloaded] at hpoisoned
    cases hpoisoned
  by_cases hfirst : first.Same artifact
  · exact hother second (.inr rfl) fun hsecond ↦ hne (hfirst.trans hsecond.symm)
  · exact hother first (.inl rfl) hfirst

/-- A priors artifact that proposes as many empty policies as given. -/
def bareProposals (version : Int) (count : Nat) (hversion : 1 ≤ version) : PriorsArtifact :=
  ⟨version, .empty, .empty, .empty, List.replicate count .empty, hversion⟩

theorem holdable_bareProposals (version : Int) (count : Nat) (hversion : 1 ≤ version) :
    (Artifact.priors (bareProposals version count hversion)).Holdable platform := by
  intro written hwritten
  cases hwritten
  have hproposals : JsonText.Holdable platform.reader
      (writeList JsonDict.toJson (List.replicate count .empty)) := by
    refine JsonText.holdableElements_iff.mpr fun value hvalue ↦ ?_
    obtain ⟨dict, hdict, rfl⟩ := mem_map.mp hvalue
    rw [eq_of_mem_replicate hdict]
    exact ⟨nodup_nil, trivial⟩
  simp only [PriorsArtifact.toDict, bareProposals, JsonDict.toJson, OrderedDict.empty,
    JsonText.Holdable, JsonText.HoldableFields, map_nil, nodup_nil]
  exact ⟨by simp, trivial, ⟨trivial, trivial⟩, ⟨trivial, trivial⟩, ⟨trivial, trivial⟩, hproposals,
    trivial⟩

theorem get?_policyProposals (artifact : PriorsArtifact) :
    artifact.toDict.canonical.get? "policy_proposals" =
      some (writeList JsonDict.toJson artifact.policyProposals).canonical := by
  simp [PriorsArtifact.toDict, get?_canonical, find_cons]

theorem not_tamperEvident_priors (artifact : PriorsArtifact) :
    ¬ (Artifact.priors artifact).TamperEvident platform storage := by
  have hversion := artifact.version_pos
  refine @not_tamperEvident_of_pair platform storage _ _ _
    (.priors (bareProposals artifact.priorsVersion 0 hversion))
    (.priors (bareProposals artifact.priorsVersion 1 hversion)) rfl ?_ ?_
  · intro hsame
    have hcanonical := (JsonText.dumps_inj (@holdable_bareProposals platform _ 0 hversion _ rfl)
      (@holdable_bareProposals platform _ 1 hversion _ rfl)).mp hsame
    have hitem := (get?_policyProposals _).symm.trans ((congrArg (fun value : Json ↦
      value.get? "policy_proposals") hcanonical).trans (get?_policyProposals _))
    simp only [bareProposals, writeList, Json.canonical, canonicalElements_eq_map] at hitem
    have hlength := congrArg List.length (Json.arr.inj (Option.some.inj hitem))
    simp at hlength
  · rintro altered (rfl | rfl)
    · exact ⟨_, fun stored htext ↦ (@load_priors_iff platform stored
        (bareProposals artifact.priorsVersion 0 hversion) _ htext).mpr
          (standsFor_own rfl (holdable_bareProposals _ 0 hversion))⟩
    · exact ⟨_, fun stored htext ↦ (@load_priors_iff platform stored
        (bareProposals artifact.priorsVersion 1 hversion) _ htext).mpr
          (standsFor_own rfl (holdable_bareProposals _ 1 hversion))⟩

/-- A snapshot with the given relationships and nothing else. -/
def bareSnapshot (version : Int) (relationships : List RelationshipRecord) : SpaceSnapshot :=
  ⟨version, [], relationships, []⟩

theorem not_tamperEvident_descriptorSpace (snapshot : SpaceSnapshot) :
    ¬ (Artifact.descriptorSpace snapshot).TamperEvident platform storage := by
  refine @not_tamperEvident_of_pair platform storage _ _ _
    (.descriptorSpace (bareSnapshot snapshot.version []))
    (.descriptorSpace (bareSnapshot snapshot.version [⟨.dependency, "", ""⟩])) rfl ?_ ?_
  · intro hsame
    have hcanonical := (JsonText.dumps_inj (@holdable_content platform _)
      (@holdable_content platform _)).mp hsame
    have hitem := congrArg (fun value : Json ↦ value.get? "relationships") hcanonical
    simp only [SpaceSnapshot.content, get?_canonical, find_cons, String.reduceEq,
      if_false, if_true, Option.map_some, bareSnapshot, sortedBy] at hitem
    simp [Json.canonical, Json.canonicalElements] at hitem
  · rintro altered (rfl | rfl)
    · exact ⟨_, fun stored htext ↦ (@load_descriptorSpace_iff platform stored
        (bareSnapshot snapshot.version []) _ htext).mpr rfl⟩
    · exact ⟨_, fun stored htext ↦ (@load_descriptorSpace_iff platform stored
        (bareSnapshot snapshot.version [⟨.dependency, "", ""⟩]) _ htext).mpr rfl⟩

theorem not_tamperEvident_schemas (registry : SchemaRegistry) :
    ¬ (Artifact.schemas registry).TamperEvident platform storage := by
  refine @not_tamperEvident_of_pair platform storage _ _ _ (.schemas .empty)
    (.schemas (OrderedDict.empty.insert ("", 1) [])) rfl ?_ ?_
  · intro hsame
    have hcanonical := (JsonText.dumps_inj (@holdable_schemaEntries platform _)
      (@holdable_schemaEntries platform _)).mp hsame
    cases hcanonical
  · rintro altered (rfl | rfl)
    · exact ⟨_, fun stored htext ↦ load_schemas htext⟩
    · exact ⟨_, fun stored htext ↦ load_schemas htext⟩

/-- Assumes: the digest has no collisions, and JSON text can hold the artifact. An artifact is
loaded back, and no text of another one in its place is taken for it, exactly when it is of a kind
that is kept under its content hash and fits into the storage. To be loaded back alone, it has to
fit. -/
theorem replayCoordinate_iff (hfree : platform.CollisionFree)
    (hholdable : artifact.Holdable platform) :
    (artifact.RoundTrips platform storage ∧ artifact.TamperEvident platform storage ↔
        artifact.contentAddressed = true ∧ artifact.Fits platform storage) ∧
      (artifact.RoundTrips platform storage ↔ artifact.Fits platform storage) := by
  have hround := @roundTrips_iff platform storage artifact hholdable
  have htamper : artifact.TamperEvident platform storage ↔ artifact.contentAddressed = true := by
    refine ⟨fun hevident ↦ ?_, tamperEvident_of_contentAddressed hfree⟩
    cases artifact with
    | decision record | outcome record => rfl
    | priors artifact => exact absurd hevident (not_tamperEvident_priors artifact)
    | descriptorSpace snapshot => exact absurd hevident (not_tamperEvident_descriptorSpace snapshot)
    | schemas registry => exact absurd hevident (not_tamperEvident_schemas registry)
  exact ⟨by rw [hround, htamper, and_comm], hround⟩

/-- An approved decision, with a justification and a narrowed scope. -/
def narrowedDecision : DecisionRecord where
  outcome := "REASONING_APPROVED"
  justification := OrderedDict.empty.insert "rules" (.arr [.str "r1", .obj
    [("passed", .bool true)]])
  decidedFrom := OrderedDict.empty.insert "policy" (.int 1)
  approvedCapabilityId := some "cap.a"
  approvedRequiredRung := some "C1"
  approvedScope := some ⟨.str "summarize", .str "single_demand",
    some (OrderedDict.empty.insert "paths" (.arr [.str "docs"]))⟩

/-- A storage with a schema registry. -/
def registryStorage : Storage :=
  persistSchemaRegistry (OrderedDict.empty.insert ("schema", 1) ["summary"]) .empty

theorem replayCoordinate_narrowed :
    (Artifact.decision narrowedDecision).RoundTrips plainPlatform registryStorage ∧
      (Artifact.decision narrowedDecision).TamperEvident plainPlatform registryStorage := by
  have hfree : registryStorage.get? (decisionKey (narrowedDecision.contentHash plainPlatform)) =
      none := by decide +kernel
  refine (replayCoordinate_iff collisionFree_plainPlatform ?_).1.mpr
    ⟨rfl, _, rfl, fun text htext ↦ by cases hfree.symm.trans htext⟩
  intro written hwritten
  cases hwritten
  simp [DecisionRecord.toDict, ApprovedScope.toDict, narrowedDecision, JsonDict.toJson,
    OrderedDict.insert, OrderedDict.upsert, OrderedDict.empty, optionalText, optionalDict,
    JsonText.Holdable, JsonText.HoldableFields, JsonText.HoldableElements]

/-- The first version of the priors in an empty storage: the text of another artifact of that
version is loaded in its place. -/
theorem not_replayCoordinate_priors :
    ¬ ((Artifact.priors (bareProposals 1 0 (Int.le_refl 1))).RoundTrips plainPlatform .empty ∧
      (Artifact.priors (bareProposals 1 0 (Int.le_refl 1))).TamperEvident plainPlatform .empty) :=
  fun hboth ↦ not_tamperEvident_priors _ hboth.2

end Artifact

end AbsoluteZero.Reasoning

import AbsoluteZero.Reasoning.DescriptorSpace
import AbsoluteZero.Reasoning.RecordTexts

/-!
# Durable artifacts

Decision records and sealed outcome records are kept under their own content hash, and a load
compares it. Priors artifacts and versions of the descriptor space are kept under a version number,
and a load only compares what it rebuilt with the text it was rebuilt from. The stored bytes are
modelled by the text they decode to.
-/

namespace AbsoluteZero.Reasoning

open Foundations Checked JsonText Reading

/-! ### Storage -/

/-- The stored texts under their keys. -/
abbrev Storage := OrderedDict String String

/-- How a load fails: no text under the key, a text that decodes to no artifact of the kind, or
`PoisonedCoordinateError`. -/
inductive LoadError
  | missing (key : String)
  | malformed
  | poisoned (message : String)

namespace Storage

def writeOnce (storage : Storage) (key text : String) : Storage :=
  if (storage.get? key).isSome then storage else storage.insert key text

def read (storage : Storage) (key : String) : Except LoadError String :=
  match storage.get? key with
  | none => .error (.missing key)
  | some text => .ok text

end Storage

def decode {Artifact : Type} (platform : Platform) (build : Json → Option Artifact)
    (text : String) : Except LoadError Artifact :=
  match (loads platform.reader text).bind build with
  | none => .error .malformed
  | some artifact => .ok artifact

variable {storage : Storage}

theorem read_eq_ok_iff {key text : String} :
    storage.read key = .ok text ↔ storage.get? key = some text := by
  unfold Storage.read
  cases storage.get? key <;> simp

variable {platform : Platform}

theorem decode_eq_ok_iff {Artifact : Type} {build : Json → Option Artifact}
    {text : String} {artifact : Artifact} : decode platform build text = .ok artifact ↔
      (loads platform.reader text).bind build = some artifact := by
  unfold decode
  cases (loads platform.reader text).bind build <;> simp

theorem decode_dumps {Artifact : Type} {build : Json → Option Artifact}
    {written : Json} {artifact : Artifact} (hwritten : Holdable platform.reader written)
    (hbuild : build written.canonical = some artifact) :
    decode platform build (dumps written) = .ok artifact := by
  rw [decode_eq_ok_iff, loads_dumps hwritten]
  exact hbuild

theorem dumps_congr {first second : Json} (heq : first.canonical = second.canonical) :
    dumps first = dumps second := by
  rw [← dumps_canonical first, heq, dumps_canonical]

def decisionKey (hash : String) : String := "ro/decision/" ++ hash

def persistDecisionRecord (platform : Platform) (record : DecisionRecord) (storage : Storage) :
    Storage :=
  storage.writeOnce (decisionKey (record.contentHash platform)) (dumps record.toDict)

def loadDecisionRecord (platform : Platform) (hash : String) (storage : Storage) :
    Except LoadError DecisionRecord := do
  let text ← storage.read (decisionKey hash)
  let record ← decode platform readDecisionRecord text
  if record.contentHash platform = hash then .ok record
  else .error (.poisoned ("persistence.poisoned_decision_record:" ++ hash))

theorem loadDecisionRecord_eq_ok_iff {hash : String} {record : DecisionRecord} :
    loadDecisionRecord platform hash storage = .ok record ↔
      ∃ text, storage.get? (decisionKey hash) = some text ∧
        decode platform readDecisionRecord text = .ok record ∧
          record.contentHash platform = hash := by
  simp only [loadDecisionRecord, @bind_eq_ok_iff _ _ _ (storage.read _),
    read_eq_ok_iff, guarded_eq_ok_iff]

def outcomeKey (hash : String) : String := "ro/outcome/" ++ hash

/-- `persist_sealed_outcome`: the hash, and the storage afterwards. -/
def persistSealedOutcome (platform : Platform) (record : SealedOutcomeRecord) (storage : Storage) :
    Except PyError (String × Storage) := do
  let value ← record.toDict
  let hash := platform.hash value
  .ok (hash, storage.writeOnce (outcomeKey hash) (dumps value))

def loadSealedOutcome (platform : Platform) (hash : String) (storage : Storage) :
    Except LoadError SealedOutcomeRecord := do
  let text ← storage.read (outcomeKey hash)
  let record ← decode platform readSealedOutcome text
  if record.contentHash platform = .ok hash then .ok record
  else .error (.poisoned ("persistence.poisoned_sealed_outcome:" ++ hash))

theorem loadSealedOutcome_eq_ok_iff {hash : String} {record : SealedOutcomeRecord} :
    loadSealedOutcome platform hash storage = .ok record ↔
      ∃ text, storage.get? (outcomeKey hash) = some text ∧
        decode platform readSealedOutcome text = .ok record ∧
          record.contentHash platform = .ok hash := by
  simp only [loadSealedOutcome, @bind_eq_ok_iff _ _ _ (storage.read _),
    read_eq_ok_iff, guarded_eq_ok_iff]

/-- `PriorsArtifact`: its version is positive. -/
structure PriorsArtifact where
  priorsVersion : Int
  providerPriors : JsonDict
  routingPriors : JsonDict
  demandShapePriors : JsonDict
  policyProposals : List JsonDict
  version_pos : 1 ≤ priorsVersion

def PriorsArtifact.toDict (artifact : PriorsArtifact) : Json :=
  .obj [("priors_version", .int artifact.priorsVersion),
    ("provider_priors", artifact.providerPriors.toJson),
    ("routing_priors", artifact.routingPriors.toJson),
    ("demand_shape_priors", artifact.demandShapePriors.toJson),
    ("policy_proposals", writeList JsonDict.toJson artifact.policyProposals)]

/-- The arguments of `build_priors_artifact` that have no default. -/
def requiredPriors : List String :=
  ["priors_version", "provider_priors", "routing_priors", "demand_shape_priors"]

/-- `_freeze_proposals`. -/
def readProposals (value : Json) : Option (List JsonDict) :=
  if value.truthy then list? (dict? some) value else some []

/-- `build_priors_artifact(**data)`. -/
def readPriorsArtifact (data : Json) : Option PriorsArtifact := do
  let fields ← data.fields?
  if (∀ name ∈ fields.map Prod.fst, name ∈ "policy_proposals" :: requiredPriors) ∧
      ∀ name ∈ requiredPriors, name ∈ fields.map Prod.fst then
    let version ← int? (data.item "priors_version")
    if hversion : 1 ≤ version then
      some ⟨version, ← dict? some (data.item "provider_priors"),
        ← dict? some (data.item "routing_priors"), ← dict? some (data.item "demand_shape_priors"),
        ← readProposals (data.item "policy_proposals"), hversion⟩
    else none
  else none

def priorsKey (version : Int) : String := "ro/priors/v" ++ toString version

def persistPriorsArtifact (artifact : PriorsArtifact) (storage : Storage) : Storage :=
  storage.writeOnce (priorsKey artifact.priorsVersion) (dumps artifact.toDict)

def loadPriorsArtifact (platform : Platform) (version : Int) (storage : Storage) :
    Except LoadError PriorsArtifact := do
  let text ← storage.read (priorsKey version)
  let data ← decode platform some text
  let artifact ← decode platform readPriorsArtifact text
  if artifact.priorsVersion = version ∧ dumps artifact.toDict = dumps data then
    .ok artifact
  else .error (.poisoned ("persistence.poisoned_priors_artifact:v" ++ toString version))

theorem loadPriorsArtifact_eq_ok_iff {version : Int} {artifact : PriorsArtifact} :
    loadPriorsArtifact platform version storage = .ok artifact ↔
      ∃ text, storage.get? (priorsKey version) = some text ∧
        ∃ data, decode platform some text = .ok data ∧
          decode platform readPriorsArtifact text = .ok artifact ∧
            artifact.priorsVersion = version ∧
              dumps artifact.toDict = dumps data := by
  simp only [loadPriorsArtifact, @bind_eq_ok_iff _ _ _ (storage.read _),
    @bind_eq_ok_iff _ _ _ (decode platform some _), read_eq_ok_iff,
    guarded_eq_ok_iff]

/-! ### Versions of the descriptor space -/

/-- What a snapshot of the descriptor space lists: `RegistrySnapshot` and `_FrozenSnapshot`. -/
structure SpaceSnapshot where
  version : Int
  capabilities : List CapabilityRecord
  relationships : List RelationshipRecord
  descriptorRows : List DescriptorRow

def RelationshipRecord.key (record : RelationshipRecord) : String ×ₗ String ×ₗ String :=
  toLex (ClosedVocabulary.text record.kind, toLex (record.src, record.dst))

namespace SpaceSnapshot

def recordText {Record : Type} (toDict : Record → Json) (record : Record) : Json :=
  .str (dumps (toDict record))

/-- `_descriptor_space_content`. -/
def content (snapshot : SpaceSnapshot) : Json :=
  .obj [("version", .int snapshot.version),
    ("capabilities", .arr ((sortedBy CapabilityRecord.id snapshot.capabilities).map
      (recordText CapabilityRecord.toDict))),
    ("relationships", .arr ((sortedBy RelationshipRecord.key snapshot.relationships).map
      (recordText RelationshipRecord.toDict))),
    ("descriptor_rows", .arr ((sortedBy DescriptorRow.providerId snapshot.descriptorRows).map
      (recordText DescriptorRow.toDict)))]

def readRecord {Record : Type} (platform : Platform) (rebuild : Json → Option Record)
    (value : Json) : Option Record :=
  (text? value).bind fun text ↦ (loads platform.reader text).bind rebuild

/-- The records that are listed in a stored snapshot, under the version that was asked for. -/
def readSnapshot (platform : Platform) (version : Int) (data : Json) : Option SpaceSnapshot := do
  some ⟨version, ← list? (readRecord platform rebuildCapability) (data.item "capabilities"),
    ← list? (readRecord platform rebuildRelationship) (data.item "relationships"),
    ← list? (readRecord platform rebuildDescriptorRow) (data.item "descriptor_rows")⟩

end SpaceSnapshot

def descriptorSpaceKey (version : Int) : String := "ro/descriptor_space/v" ++ toString version

/-- `persist_descriptor_space_version`, of a version that the space has. -/
def persistDescriptorSpaceVersion (snapshot : SpaceSnapshot) (storage : Storage) : Storage :=
  storage.writeOnce (descriptorSpaceKey snapshot.version) (dumps snapshot.content)

def loadDescriptorSpaceVersion (platform : Platform) (version : Int) (storage : Storage) :
    Except LoadError SpaceSnapshot := do
  let text ← storage.read (descriptorSpaceKey version)
  let snapshot ← decode platform (SpaceSnapshot.readSnapshot platform version) text
  if dumps snapshot.content = text then .ok snapshot
  else .error (.poisoned ("persistence.poisoned_descriptor_space:v" ++ toString version))

theorem loadDescriptorSpaceVersion_eq_ok_iff {version : Int} {snapshot : SpaceSnapshot} :
    loadDescriptorSpaceVersion platform version storage = .ok snapshot ↔
      ∃ text, storage.get? (descriptorSpaceKey version) = some text ∧
        decode platform (SpaceSnapshot.readSnapshot platform version) text = .ok snapshot ∧
          dumps snapshot.content = text := by
  simp only [loadDescriptorSpaceVersion, @bind_eq_ok_iff _ _ _ (storage.read _),
    read_eq_ok_iff, guarded_eq_ok_iff]

/-- The entries of a registry in the order of their ids and versions. -/
def SchemaRegistry.entries (registry : SchemaRegistry) : List ((String × Int) × List String) :=
  sortedBy (fun entry ↦ toLex entry.1) registry.items

def schemaEntry (entry : (String × Int) × List String) : Json :=
  .arr [.str entry.1.1, .int entry.1.2, .arr (entry.2.map .str)]

def readSchemaEntry : Json → Option ((String × Int) × List String)
  | .arr [schemaId, version, requiredFields] => do
    some ((← text? schemaId, ← int? version), ← tuple? requiredFields)
  | _ => none

def schemaRegistryKey : String := "ro/schema_registry/snapshot"

def persistSchemaRegistry (registry : SchemaRegistry) (storage : Storage) : Storage :=
  storage.insert schemaRegistryKey (dumps (writeList schemaEntry registry.entries))

/-- A registry with the entries, in which none was registered twice. -/
def registerAll (entries : List ((String × Int) × List String)) :
    Except SchemaError SchemaRegistry :=
  entries.foldlM (fun registry entry ↦ registry.register entry.1.1 entry.1.2 entry.2) .empty

def loadSchemaRegistry (platform : Platform) (storage : Storage) :
    Except LoadError SchemaRegistry := do
  let text ← storage.read schemaRegistryKey
  let entries ← decode platform (list? readSchemaEntry) text
  match registerAll entries with
  | .error _ => .error .malformed
  | .ok registry =>
    if registry.entries = entries then .ok registry
    else .error (.poisoned "persistence.poisoned_schema_registry")

end AbsoluteZero.Reasoning

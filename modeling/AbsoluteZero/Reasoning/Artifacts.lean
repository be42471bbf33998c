import AbsoluteZero.Foundations.JsonText
import AbsoluteZero.Reasoning.Records

/-!
# Artifacts and their content hashes

The frozen values that a governed reasoning call passes on. An artifact is named by the digest of
its canonical text (`Platform.hash`); the digest is a parameter, together with the reader of decimal
literals.
-/

namespace AbsoluteZero.Reasoning

open Foundations

/-! ### The platform -/

/-- What the artifacts are named and read with: `hashlib.sha256(..).hexdigest()`, `float`, and the
texts of an engine on which `json.loads` runs out of stack. -/
structure Platform where
  digest : String → String
  reader : JsonText.FloatReader
  overflows : String → Bool

variable (platform : Platform)

def Platform.hash (value : Json) : String :=
  platform.digest (JsonText.dumps value)

/-- No two texts have one digest. -/
def Platform.CollisionFree : Prop := Function.Injective platform.digest

/-- The platform on which every text is its own digest. -/
def plainPlatform : Platform := ⟨id, .integersOnly, fun _ ↦ false⟩

theorem collisionFree_plainPlatform : plainPlatform.CollisionFree := Function.injective_id

/-- A frozen mapping. -/
abbrev JsonDict := OrderedDict String Json

def JsonDict.toJson (dict : JsonDict) : Json := .obj dict.items

/-- `None` for an absent text. -/
def optionalText : Option String → Json
  | none => .null
  | some text => .str text

/-- `None` for an absent mapping. -/
def optionalDict : Option JsonDict → Json
  | none => .null
  | some dict => dict.toJson

structure ApprovedScope where
  description : Json
  granularity : Json
  narrowing : Option JsonDict

def ApprovedScope.toDict (scope : ApprovedScope) : Json :=
  .obj [("description", scope.description), ("granularity", scope.granularity),
    ("narrowing", optionalDict scope.narrowing)]

structure DecisionRecord where
  outcome : String
  justification : JsonDict
  decidedFrom : JsonDict
  approvedCapabilityId : Option String
  approvedRequiredRung : Option String
  approvedScope : Option ApprovedScope

namespace DecisionRecord

def toDict (record : DecisionRecord) : Json :=
  .obj [("kind", .str "decision_record"), ("outcome", .str record.outcome),
    ("justification", record.justification.toJson), ("decided_from", record.decidedFrom.toJson),
    ("approved_capability_id", optionalText record.approvedCapabilityId),
    ("approved_required_rung", optionalText record.approvedRequiredRung),
    ("approved_scope", (record.approvedScope.map ApprovedScope.toDict).getD .null)]

def contentHash (record : DecisionRecord) : String :=
  platform.hash record.toDict

end DecisionRecord

/-- `BudgetEnvelope`: a positive ceiling. -/
structure BudgetEnvelope where
  ceiling : Int
  sourcePolicyVersion : Int
  parentRef : Option String
  ceiling_pos : 0 < ceiling

def BudgetEnvelope.toDict (envelope : BudgetEnvelope) : Json :=
  .obj [("ceiling", .int envelope.ceiling),
    ("source_policy_version", .int envelope.sourcePolicyVersion),
    ("parent_ref", optionalText envelope.parentRef)]

/-- `BudgetInvalidError`, `BudgetExhaustedError` and `BudgetInfeasibleError`. -/
inductive BudgetError
  | invalid (message : String)
  | exhausted (message : String)
  | infeasible (message : String)

def allocateBudget (ceiling sourcePolicyVersion : Int)
    (parent : Option BudgetEnvelope) (alreadyAllocatedFromParent : Int) :
    Except BudgetError BudgetEnvelope :=
  if hceiling : 0 < ceiling then
    match parent with
    | none => .ok ⟨ceiling, sourcePolicyVersion, none, hceiling⟩
    | some parent =>
      let remaining := parent.ceiling - alreadyAllocatedFromParent
      if remaining < ceiling then
        .error (.exhausted ("budget.exceeds_parent_remaining:ceiling=" ++ toString ceiling ++
          ":remaining=" ++ toString remaining))
      else .ok ⟨ceiling, sourcePolicyVersion, some (platform.hash parent.toDict), hceiling⟩
  else .error (.invalid ("budget.bad_ceiling:" ++ toString ceiling))

def requireFits (envelope : BudgetEnvelope) (contentSizeBytes : Nat) : Except BudgetError Unit :=
  if envelope.ceiling < contentSizeBytes then
    .error (.infeasible ("budget.content_exceeds_ceiling:size=" ++ toString contentSizeBytes ++
      ":ceiling=" ++ toString envelope.ceiling))
  else .ok ()

structure SchemaRecord where
  schemaId : String
  version : Int
  requiredFields : List String

/-- `SchemaRegistry`: the required fields under a schema id and a version. -/
abbrev SchemaRegistry := OrderedDict (String × Int) (List String)

/-- `DuplicateSchemaVersionError` and `UnknownSchemaError`. -/
inductive SchemaError
  | duplicateVersion (message : String)
  | unknown (message : String)

namespace SchemaRegistry

def register (registry : SchemaRegistry) (schemaId : String) (version : Int)
    (requiredFields : List String) : Except SchemaError SchemaRegistry :=
  if (registry.get? (schemaId, version)).isSome then
    .error (.duplicateVersion
      ("schemas.duplicate_version:" ++ schemaId ++ ":" ++ toString version))
  else .ok (registry.insert (schemaId, version) requiredFields)

def require (registry : SchemaRegistry) (schemaId : String) (version : Int) :
    Except SchemaError SchemaRecord :=
  match registry.get? (schemaId, version) with
  | none => .error (.unknown ("schemas.unknown:" ++ schemaId ++ ":" ++ toString version))
  | some requiredFields => .ok ⟨schemaId, version, requiredFields⟩

end SchemaRegistry

end AbsoluteZero.Reasoning

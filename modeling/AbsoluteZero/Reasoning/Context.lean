import AbsoluteZero.Reasoning.Artifacts

/-!
# Context selection and reduction

The characteristics of the capability name the sections of a sealed request memory and their size
class. Within a section an item is dropped when the cap of the class is reached, when its content
was seen before, or when its score is below the threshold. Every item taken or dropped is recorded.
-/

namespace AbsoluteZero.Reasoning

open Foundations

/-- `ContextRefusal` in its kinds, or an exception that Python raises on the way. -/
inductive ContextError
  | malformedRqm (message : String)
  | staleRqm (message : String)
  | emptyContext (message : String)
  | raised (error : PyError)

/-- An item of a request memory; the tier and the score are `None` when absent. -/
structure ContextItem where
  id : String
  content : String
  provenance : String
  tier : Json
  score : Json

abbrev RequestMemory := OrderedDict String (List ContextItem)

/-- `_canonical_item`. -/
def ContextItem.toDict (item : ContextItem) : Json :=
  .obj [("id", .str item.id), ("content", .str item.content),
    ("provenance", .str item.provenance), ("tier", item.tier), ("score", item.score)]

/-- The first of the three texts that an item lacks. -/
def ContextItem.missing? (item : ContextItem) : Option String :=
  if item.id = "" then some "id"
  else if item.content = "" then some "content"
  else if item.provenance = "" then some "provenance"
  else none

def validateRqm (rqm : RequestMemory) : Except ContextError Unit :=
  match rqm.items.findSome? fun entry ↦ entry.2.findSome? fun item ↦
      item.missing?.map fun key ↦ entry.1 ++ ":" ++ key with
  | none => .ok ()
  | some place => .error (.malformedRqm ("context_prep.rqm_item_missing:" ++ place))

variable (platform : Platform)

def rqmContentHash (rqm : RequestMemory) : String :=
  platform.hash (.obj (rqm.items.map fun entry ↦
    (entry.1, .arr (entry.2.map ContextItem.toDict))))

def checkFreshness (rqm : RequestMemory) (rqmStale : Bool) (expectedRqmHash : Option String) :
    Except ContextError String :=
  let actual := rqmContentHash platform rqm
  if rqmStale then .error (.staleRqm "context_prep.caller_signaled_stale")
  else
    match expectedRqmHash with
    | none => .ok actual
    | some expected =>
      if actual = expected then .ok actual
      else .error (.staleRqm
        ("context_prep.hash_mismatch:expected=" ++ expected ++ ":actual=" ++ actual))

/-- `SIZE_CLASSES`. -/
inductive SizeClass
  | none
  | minimal
  | standard
  | extensive
  deriving DecidableEq

instance : ClosedVocabulary SizeClass where
  all := [.none, .minimal, .standard, .extensive]
  text
    | .none => "none"
    | .minimal => "minimal"
    | .standard => "standard"
    | .extensive => "extensive"

/-- `_SIZE_CLASS_ITEM_CAP`; no number means uncapped. -/
def SizeClass.itemCap : SizeClass → Option Nat
  | .none => some 0
  | .minimal => some 2
  | .standard => some 5
  | .extensive => Option.none

/-- `CONTEXT_SELECTION_TABLE`, from the knowledge dependency and the context sensitivity. -/
def contextSelection : Level → Level → List String × SizeClass
  | .low, .low => ([], .none)
  | .low, .medium => (["core"], .minimal)
  | .low, .high => (["core"], .minimal)
  | .medium, .low => (["core"], .minimal)
  | .medium, .medium => (["core", "supporting"], .standard)
  | .medium, .high => (["core", "supporting"], .standard)
  | .high, .low => (["core", "supporting"], .standard)
  | .high, .medium => (["core", "supporting", "background"], .extensive)
  | .high, .high => (["core", "supporting", "background"], .extensive)

/-! ### Reduction -/

structure InclusionRecord where
  id : String
  sectionName : String
  justification : String
  provenance : String

structure ReductionRecord where
  id : String
  sectionName : String
  reason : String

def InclusionRecord.toDict (record : InclusionRecord) : Json :=
  .obj [("id", .str record.id), ("section", .str record.sectionName),
    ("justification", .str record.justification), ("provenance", .str record.provenance)]

def ReductionRecord.toDict (record : ReductionRecord) : Json :=
  .obj [("id", .str record.id), ("section", .str record.sectionName),
    ("reason", .str record.reason)]

/-- What the pass over the sections has collected. -/
structure Reduced where
  included : List ContextItem
  inclusion : List InclusionRecord
  reduction : List ReductionRecord
  seen : List String

/-- `score is not None and score < relevance_threshold`. -/
def belowThreshold (score : Json) (relevanceThreshold : Rat) : Except ContextError Bool :=
  match score, score.number? with
  | .null, _ => .ok false
  | _, some value => .ok (value < relevanceThreshold)
  | _, none => .error (.raised .typeError)

/-- The recorded reason for taking items of a section. -/
def inclusionJustification (characteristics : Characteristics) (sizeClass : SizeClass)
    (name : String) : String :=
  "capability characteristics knowledge_dependency=" ++
    ClosedVocabulary.text characteristics.knowledgeDependency ++ ",context_sensitivity=" ++
    ClosedVocabulary.text characteristics.contextSensitivity ++ " -> size_class=" ++
    ClosedVocabulary.text sizeClass ++ ",section=" ++ name

/-- One turn of the loop over the items of a section, with the number taken from it so far. -/
def reduceItem (characteristics : Characteristics) (sizeClass : SizeClass)
    (relevanceThreshold : Rat) (name : String) (state : Reduced × Nat) (item : ContextItem) :
    Except ContextError (Reduced × Nat) :=
  let (reduced, taken) := state
  let drop (reason : String) : Reduced × Nat :=
    ({ reduced with reduction := reduced.reduction ++ [⟨item.id, name, reason⟩] }, taken)
  if sizeClass.itemCap.any fun cap ↦ cap ≤ taken then .ok (drop "size_class_cap_reached")
  else if platform.digest item.content ∈ reduced.seen then .ok (drop "duplicate_content")
  else
    match belowThreshold item.score relevanceThreshold with
    | .error error => .error error
    | .ok true => .ok (drop "below_relevance_threshold")
    | .ok false => .ok ({ reduced with
        included := reduced.included ++ [item]
        inclusion := reduced.inclusion ++ [⟨item.id, name,
          inclusionJustification characteristics sizeClass name, item.provenance⟩]
        seen := reduced.seen ++ [platform.digest item.content] }, taken + 1)

/-- One turn of the loop over the sections. -/
def reduceSection (rqm : RequestMemory) (characteristics : Characteristics) (sizeClass : SizeClass)
    (relevanceThreshold : Rat) (reduced : Reduced) (name : String) :
    Except ContextError Reduced := do
  let last ← ((rqm.get? name).getD []).foldlM
    (reduceItem platform characteristics sizeClass relevanceThreshold name) (reduced, 0)
  .ok last.1

def selectAndReduce (rqm : RequestMemory) (capability : CapabilityRecord)
    (relevanceThreshold : Rat) : Except ContextError Reduced := do
  validateRqm rqm
  let characteristics := capability.characteristics
  let plan := contextSelection characteristics.knowledgeDependency
    characteristics.contextSensitivity
  let reduced ← plan.1.foldlM
    (reduceSection platform rqm characteristics plan.2 relevanceThreshold) ⟨[], [], [], []⟩
  if reduced.included = [] ∧ characteristics.knowledgeDependency ≠ .low then
    .error (.emptyContext
      ("context_prep.empty_context_for_knowledge_demanding_capability:" ++ capability.id))
  else .ok reduced

end AbsoluteZero.Reasoning

import AbsoluteZero.Foundations.JsonText
import AbsoluteZero.Foundations.SortedSet
import AbsoluteZero.Scheduler.Artifact
import Mathlib.Data.List.Infix
import Mathlib.Data.Prod.Lex
import Mathlib.Data.String.Basic

/-!
# The plan artifact

The planner's frozen capability graph. It is built from plain values, which are checked one by one
(`buildArtifact`), and the scheduler reads it through a projection to plain values again
(`PlanArtifact.toSealedGraph`). The digest that names an artifact is a parameter.
-/

namespace AbsoluteZero.Planning

open Foundations Scheduler

/-- `EDGE_TYPES`. -/
inductive EdgeType
  | requires
  | composes
  | alternativeOf
  | conflictsWith
  | servesGoal
  deriving DecidableEq

instance : ClosedVocabulary EdgeType where
  all := [.requires, .composes, .alternativeOf, .conflictsWith, .servesGoal]
  text
    | .requires => "requires"
    | .composes => "composes"
    | .alternativeOf => "alternative-of"
    | .conflictsWith => "conflicts-with"
    | .servesGoal => "serves-goal"

/-- `ORIGINS`. -/
inductive Origin
  | explicit
  | implicit
  | derived
  deriving DecidableEq

instance : ClosedVocabulary Origin where
  all := [.explicit, .implicit, .derived]
  text
    | .explicit => "explicit"
    | .implicit => "implicit"
    | .derived => "derived"

/-- `GAP_TYPES`. -/
inductive GapType
  | unknownAbility
  | missingCapability
  | unsatisfiableConstraint
  | ambiguousMapping
  deriving DecidableEq

instance : ClosedVocabulary GapType where
  all := [.unknownAbility, .missingCapability, .unsatisfiableConstraint, .ambiguousMapping]
  text
    | .unknownAbility => "unknown-ability"
    | .missingCapability => "missing-capability"
    | .unsatisfiableConstraint => "unsatisfiable-constraint"
    | .ambiguousMapping => "ambiguous-mapping"

/-- `TUPLE_KEYS`, sorted. -/
def tupleKeys : List String :=
  ["config_version", "priors_version", "registry_version", "request_id", "request_memory_hash"]

/-! ### Checks -/

/-- `ArtifactRefusal` with its text, or an exception that Python raises on the way. -/
inductive ArtifactError
  | refused (message : String)
  | raised (error : PyError)

def readWord (Word : Type) [ClosedVocabulary Word] : Option Json → Option Word
  | some (.str text) => ClosedVocabulary.read text
  | _ => none

/-- `isinstance(value, (int, float)) and not isinstance(value, bool) and 0 <= value <= 1`. -/
def inUnit : Json → Bool
  | .int value => 0 ≤ value ∧ value ≤ 1
  | .float value _ => 0 ≤ value ∧ value ≤ 1
  | _ => false

/-- `"plugin" in key or "provider" in key`. -/
def namesProvider (key : String) : Bool :=
  "plugin".toList <:+: key.toList ∨ "provider".toList <:+: key.toList

/-- `isinstance(value, int) and not isinstance(value, bool)`. -/
def plainInt? : Option Json → Option Int
  | some (.int value) => some value
  | _ => none

structure PlanNode where
  capabilityId : String
  origin : Origin
  priorityBand : PriorityBand
  confidence : Json
  constraints : List Json
  group : Option (String × Int)
  capability_nonempty : capabilityId ≠ ""

structure NamedNode where
  id : String
  node : PlanNode
  id_nonempty : id ≠ ""

/-- `isinstance(value, str) and value`, as the text. -/
def nonemptyText? : Option Json → Option {text : String // text ≠ ""}
  | some (.str text) => if htext : text = "" then none else some ⟨text, htext⟩
  | _ => none

/-- The branch group of a node: none without a group id, which is turned into a text; with one the
rank is an integer. -/
def readGroup (id : String) (fields : List (String × Json)) :
    Except ArtifactError (Option (String × Int)) :=
  match OrderedDict.find "group_id" fields with
  | none | some .null => .ok none
  | some groupId =>
    match plainInt? (OrderedDict.find "rank" fields) with
    | none => .error (.refused ("cp.group_without_rank:" ++ id))
    | some rank => .ok (some (groupId.pyStr, rank))

/-- `tuple(node.get("constraints", ()))`. -/
def readConstraints (fields : List (String × Json)) : Except ArtifactError (List Json) :=
  match OrderedDict.find "constraints" fields with
  | none => .ok []
  | some constraints =>
    match constraints.iterate with
    | .ok elements => .ok elements
    | .error error => .error (.raised error)

/-- One turn of the loop over the nodes. -/
def readNode (field : String × Json) : Except ArtifactError NamedNode :=
  let id := field.1
  if hid : id = "" then .error (.refused ("cp.bad_node_id:" ++ Json.quoted id))
  else
    match field.2 with
    | .obj fields =>
      match readWord Origin (OrderedDict.find "origin" fields) with
      | none => .error (.refused ("cp.bad_origin:" ++ id ++ ":" ++
        ((OrderedDict.find "origin" fields).getD .null).repr))
      | some origin =>
        match readWord PriorityBand (OrderedDict.find "priority_band" fields) with
        | none => .error (.refused ("cp.bad_band:" ++ id))
        | some priorityBand =>
          match nonemptyText? (OrderedDict.find "capability_id" fields) with
          | none => .error (.refused ("cp.bad_capability:" ++ id))
          | some capabilityId =>
            let confidence := (OrderedDict.find "confidence" fields).getD .null
            if inUnit confidence = false then
              .error (.refused ("cp.bad_node_confidence:" ++ id))
            else if fields.any fun field ↦ namesProvider field.1 then
              .error (.refused ("cp.provider_awareness:" ++ id))
            else do
              let constraints ← readConstraints fields
              let group ← readGroup id fields
              .ok ⟨id, ⟨capabilityId, origin, priorityBand, confidence, constraints, group,
                capabilityId.property⟩, hid⟩
    | _ => .error (.raised .attributeError)

variable (ids : List String)

/-- `value in clean_nodes`: hashing a list or a dict raises. -/
def isNode : Json → Except PyError (Option String)
  | .str text => .ok (if text ∈ ids then some text else none)
  | value => if value.hashable then .ok none else .error .typeError

abbrev PlanEdge := EdgeType × String × String

/-- One turn of the loop over the edges. -/
def readEdge (edge : Json) : Except ArtifactError PlanEdge :=
  let bad : Except ArtifactError PlanEdge := .error (.refused ("cp.bad_edge:" ++ edge.repr))
  let dangling : Except ArtifactError PlanEdge :=
    .error (.refused ("cp.dangling_edge:" ++ edge.repr))
  match edge with
  | .arr [kind, source, target] =>
    match readWord EdgeType (some kind) with
    | none => bad
    | some kind =>
      match isNode ids source with
      | .error error => .error (.raised error)
      | .ok none => dangling
      | .ok (some source) =>
        match isNode ids target with
        | .error error => .error (.raised error)
        | .ok none => dangling
        | .ok (some target) => .ok (kind, source, target)
  | _ => bad

def readMember (groupId : String) (member : Json) :
    Except ArtifactError String :=
  match isNode ids member with
  | .error error => .error (.raised error)
  | .ok none => .error (.refused ("cp.bad_group_member:" ++ groupId ++ ":" ++ member.pyStr))
  | .ok (some id) => .ok id

/-- One turn of the loop over the groups; the members are sorted. -/
def readGroupMembers (field : String × Json) :
    Except ArtifactError (String × List String) :=
  match field.2.iterate with
  | .error error => .error (.raised error)
  | .ok members => do
    let members ← members.mapM (readMember ids field.1)
    .ok (field.1, sortedBy id members)

/-- One turn of the loop over the gaps. -/
def readGap (gap : Json) : Except ArtifactError (List (String × Json)) :=
  match gap with
  | .obj fields =>
    match readWord GapType (OrderedDict.find "gap_type" fields) with
    | none => .error (.refused ("cp.bad_gap:" ++ gap.repr))
    | some _ => .ok fields
  | _ => .error (.refused ("cp.bad_gap:" ++ gap.repr))

/-! ### The artifact -/

/-- `PlanArtifact`: the nodes in the order of their ids, no id twice. -/
structure PlanArtifact where
  planId : String
  planVersion : Int
  determinism : List (String × Json)
  nodes : List NamedNode
  edges : List PlanEdge
  groups : List (String × List String)
  gaps : List (List (String × Json))
  confidence : Json
  predecessor : Option (String × Int)
  contentHash : String

/-- The items of a node's group. -/
def groupFields : Option (String × Int) → List (String × Json)
  | none => []
  | some group => [("group_id", .str group.1), ("rank", .int group.2)]

def PlanNode.toDict (node : PlanNode) : Json :=
  .obj ([("capability_id", .str node.capabilityId),
    ("origin", .str (ClosedVocabulary.text node.origin)),
    ("priority_band", .str (ClosedVocabulary.text node.priorityBand)),
    ("confidence", node.confidence), ("constraints", .arr node.constraints)] ++
    groupFields node.group)

/-- `clean_edges.sort()`. -/
def sortEdges (edges : List PlanEdge) : List PlanEdge :=
  sortedBy (fun edge ↦ toLex (ClosedVocabulary.text edge.1, toLex (edge.2.1, edge.2.2))) edges

def PlanEdge.toDict (edge : PlanEdge) : Json :=
  .arr [.str (ClosedVocabulary.text edge.1), .str edge.2.1, .str edge.2.2]

/-- The value whose text is hashed. -/
def canonicalContent (determinism : List (String × Json)) (nodes : List NamedNode)
    (edges : List PlanEdge) (groups : List (String × List String))
    (gaps : List (List (String × Json))) (confidence : Json) (predecessor : Option (String × Int))
    (planVersion : Int) : Json :=
  .obj [("determinism", .obj determinism),
    ("nodes", .obj (nodes.map fun named ↦ (named.id, named.node.toDict))),
    ("edges", .arr (edges.map PlanEdge.toDict)),
    ("groups", .obj (groups.map fun group ↦ (group.1, .arr (group.2.map .str)))),
    ("gaps", .arr ((sortedBy id (gaps.map fun gap ↦ JsonText.dumpsSpaced (.obj gap))).map .str)),
    ("confidence", confidence),
    ("predecessor", match predecessor with
      | none => .null
      | some predecessor => .arr [.str predecessor.1, .int predecessor.2]),
    ("plan_version", .int planVersion)]

/-- The arguments of `build_artifact`; the nodes are none when they are no dict, and the predecessor
is given by its two converted parts. -/
structure ArtifactInput where
  determinism : Json
  nodes : Option (OrderedDict String Json)
  edges : Json
  groups : Json
  gaps : Json
  confidence : Json
  predecessor : Option (String × Int)

def readDeterminism (determinism : Json) : Except ArtifactError (List (String × Json)) :=
  match determinism with
  | .obj fields =>
    if sortedBy id (fields.map Prod.fst) = tupleKeys then .ok fields
    else .error (.refused ("cp.bad_determinism_tuple:" ++ determinism.repr))
  | _ => .error (.refused ("cp.bad_determinism_tuple:" ++ determinism.repr))

/-- The nodes: a dict with some node, taken in the order of the ids. -/
def readNodes : Option (OrderedDict String Json) → Except ArtifactError (List NamedNode)
  | none => .error (.refused "cp.no_nodes")
  | some nodes =>
    if nodes.items = [] then .error (.refused "cp.no_nodes")
    else (sortedBy Prod.fst nodes.items).mapM readNode

/-- `list(value)` for a loop over it. -/
def loopOver (value : Json) : Except ArtifactError (List Json) :=
  match value.iterate with
  | .ok elements => .ok elements
  | .error error => .error (.raised error)

/-- `groups or {}`, and the loop over its items. -/
def readGroups (groups : Json) :
    Except ArtifactError (List (String × List String)) :=
  if groups.truthy = false then .ok []
  else
    match groups with
    | .obj fields => fields.mapM (readGroupMembers ids)
    | _ => .error (.raised .attributeError)

def buildArtifact (digest : String → String) (input : ArtifactInput) :
    Except ArtifactError PlanArtifact := do
  let determinism ← readDeterminism input.determinism
  let nodes ← readNodes input.nodes
  let ids := nodes.map NamedNode.id
  let edges ← (← loopOver input.edges).mapM (readEdge ids)
  let groups ← readGroups ids input.groups
  let gaps ← (← loopOver input.gaps).mapM readGap
  if inUnit input.confidence = false then
    .error (.refused ("cp.bad_plan_confidence:" ++ input.confidence.repr))
  else
    let planVersion := match input.predecessor with
      | none => 1
      | some predecessor => predecessor.2 + 1
    let contentHash := digest (JsonText.dumps (canonicalContent determinism nodes (sortEdges edges)
      groups gaps input.confidence input.predecessor planVersion))
    .ok ⟨"plan-" ++ String.ofList (contentHash.toList.take 16), planVersion, determinism, nodes,
      sortEdges edges, groups, gaps, input.confidence, input.predecessor, contentHash⟩

namespace PlanArtifact

/-- The edges that the scheduler reads. -/
def requires (artifact : PlanArtifact) : List (String × String) :=
  (artifact.edges.filter fun edge ↦ edge.1 = .requires).map Prod.snd

/-- A node as the scheduler reads it. -/
def sealedNode (named : NamedNode) : Json :=
  .obj ([("node_id", .str named.id), ("capability_id", .str named.node.capabilityId),
    ("priority_band", .str (ClosedVocabulary.text named.node.priorityBand))] ++
    groupFields named.node.group)

def toSealedGraph (artifact : PlanArtifact) : Json :=
  .obj [("plan_artifact_id", .str artifact.planId), ("plan_version", .int artifact.planVersion),
    ("nodes", .arr ((sortedBy NamedNode.id artifact.nodes).map sealedNode)),
    ("requires_edges", .arr (artifact.requires.map fun edge ↦ .arr [.str edge.1, .str edge.2]))]

end PlanArtifact

end AbsoluteZero.Planning

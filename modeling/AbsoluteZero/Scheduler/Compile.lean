import AbsoluteZero.Foundations.JsonText
import AbsoluteZero.Foundations.Kahn
import AbsoluteZero.Scheduler.Artifact
import Mathlib.Data.Prod.Lex
import Mathlib.Data.String.Basic

/-!
# The workflow compiler

From the sealed capability graph, a plain value, to the compiled workflow: one unit for each node,
the edges, levels and canonical order of the units, and the branch groups with the members best rank
first. Any structural defect rejects the whole graph. The digest from which ids are derived is a
parameter.
-/

namespace AbsoluteZero.Scheduler

open Foundations

/-- `WorkflowRejected` with its text, or an exception that Python raises on the way. -/
inductive CompileError
  | rejected (message : String)
  | raised (error : PyError)

structure CompiledUnit where
  unitId : String
  nodeId : String
  capabilityId : String
  priorityBand : PriorityBand
  gateRequired : Bool
  group : Option (String × Int)

/-- `Workflow`: what the compiler publishes. -/
structure CompiledWorkflow where
  workflowId : String
  planArtifactId : String
  planVersion : Json
  wsConfigVersion : Int
  units : OrderedDict String CompiledUnit
  edges : List (String × String)
  canonicalOrder : List String
  levels : List (List String)
  groups : OrderedDict String (List String)
  contentHash : String

variable (digest : String → String)

/-- The first sixteen characters of a digest. -/
def shortDigest (text : String) : String := String.ofList ((digest text).toList.take 16)

def workflowIdOf (planId : String) (planVersion wsConfigVersion : Int) : String :=
  "wf-" ++ shortDigest digest
    (planId ++ ":" ++ toString planVersion ++ ":" ++ toString wsConfigVersion)

/-- `_unit_id`. -/
def unitIdOf (workflowId nodeId : String) : String :=
  "u-" ++ shortDigest digest (workflowId ++ ":" ++ nodeId)

/-! ### Nodes -/

/-- What the loop over the nodes has compiled so far. -/
structure CompiledNodes where
  units : OrderedDict String CompiledUnit
  byNode : OrderedDict String String
  groups : OrderedDict String (List String)

def CompiledNodes.start : CompiledNodes := ⟨.empty, .empty, .empty⟩

/-- The group after `groups.setdefault(group_id, []).append(uid)`. -/
def appendMember (groups : OrderedDict String (List String)) (unit : CompiledUnit) :
    OrderedDict String (List String) :=
  match unit.group with
  | none => groups
  | some group => groups.insert group.1 ((groups.get? group.1).getD [] ++ [unit.unitId])

/-- What one turn of the loop writes. -/
def CompiledNodes.add (compiled : CompiledNodes) (unit : CompiledUnit) : CompiledNodes :=
  ⟨compiled.units.insert unit.unitId unit, compiled.byNode.insert unit.nodeId unit.unitId,
    appendMember compiled.groups unit⟩

/-- `"plugin" in key or "provider" in key`. -/
def bindsEarly (key : String) : Bool :=
  "plugin".toList <:+: key.toList ∨ "provider".toList <:+: key.toList

/-- The group of a unit: none without a group id, which is turned into a text; with one the rank is
an integer. -/
def readUnitGroup (nodeId : String) (fields : List (String × Json)) :
    Except CompileError (Option (String × Int)) :=
  match OrderedDict.find "group_id" fields with
  | none | some .null => .ok none
  | some groupId =>
    match OrderedDict.find "rank" fields with
    | some (.int rank) => .ok (some (groupId.pyStr, rank))
    | _ => .error (.rejected ("ws.group_without_rank:" ++ nodeId))

def readUnit (workflowId : String) (byNode : OrderedDict String String)
    (fields : List (String × Json)) : Except CompileError CompiledUnit :=
  let nodeId := (OrderedDict.find "node_id" fields).getD .null
  let badNode : Except CompileError CompiledUnit :=
    .error (.rejected ("ws.bad_or_duplicate_node:" ++ nodeId.repr))
  match nodeId with
  | .str nodeId =>
    if nodeId = "" ∨ (byNode.get? nodeId).isSome then badNode
    else
      match OrderedDict.find "capability_id" fields with
      | some (.str capabilityId) =>
        if capabilityId = "" then .error (.rejected ("ws.bad_capability:" ++ nodeId))
        else
          let band := (OrderedDict.find "priority_band" fields).getD .null
          match (match band with
            | .str text => ClosedVocabulary.read text
            | _ => none) with
          | none => .error (.rejected ("ws.bad_band:" ++ nodeId ++ ":" ++ band.repr))
          | some priorityBand =>
            if fields.any fun field ↦ bindsEarly field.1 then
              .error (.rejected ("ws.provider_id_in_graph:" ++ nodeId))
            else
              match readUnitGroup nodeId fields with
              | .error error => .error error
              | .ok group => .ok ⟨unitIdOf digest workflowId nodeId, nodeId, capabilityId,
                priorityBand, true, group⟩
      | _ => .error (.rejected ("ws.bad_capability:" ++ nodeId))
  | _ => badNode

/-- One turn of the loop over the nodes. -/
def compileNode (workflowId : String) (compiled : CompiledNodes) (node : Json) :
    Except CompileError CompiledNodes :=
  match node with
  | .obj fields =>
    match readUnit digest workflowId compiled.byNode fields with
    | .error error => .error error
    | .ok unit => .ok (compiled.add unit)
  | _ => .error (.raised .attributeError)

/-- `str(n.get("node_id"))`, by which the nodes are sorted. -/
def nodeKey (node : Json) : String := (node.item "node_id").pyStr

/-- `by_node[value]` where `value in by_node`: hashing a list or a dict raises. -/
def unitOfNode (byNode : OrderedDict String String) : Json → Except PyError (Option String)
  | .str text => .ok (byNode.get? text)
  | value => if value.hashable then .ok none else .error .typeError

/-- One turn of the loop over the edges, after those compiled so far. -/
def compileEdge (byNode : OrderedDict String String) (seen : List (String × String))
    (edge : Json) : Except CompileError (List (String × String)) :=
  let bad : Except CompileError (List (String × String)) :=
    .error (.rejected ("ws.bad_edge:" ++ edge.repr))
  match edge with
  | .arr [producer, consumer] =>
    match unitOfNode byNode producer with
    | .error error => .error (.raised error)
    | .ok none => bad
    | .ok (some producer) =>
      match unitOfNode byNode consumer with
      | .error error => .error (.raised error)
      | .ok none => bad
      | .ok (some consumer) =>
        if (producer, consumer) ∈ seen ∨ producer = consumer then
          .error (.rejected ("ws.duplicate_or_self_edge:" ++ edge.repr))
        else .ok (seen ++ [(producer, consumer)])
  | _ => bad

def sortMembers (units : OrderedDict String CompiledUnit) (members : List String) : List String :=
  sortedBy (fun member ↦
    toLex ((((units.get? member).bind CompiledUnit.group).map Prod.snd).getD 0, member)) members

def CompiledUnit.toDict (unit : CompiledUnit) : Json :=
  .obj ([("unit_id", .str unit.unitId), ("node_id", .str unit.nodeId),
    ("capability_id", .str unit.capabilityId),
    ("priority_band", .str (ClosedVocabulary.text unit.priorityBand)),
    ("gate_required", .bool unit.gateRequired)] ++
    match unit.group with
    | none => []
    | some group => [("group_id", .str group.1), ("rank", .int group.2)])

/-- The value whose text is hashed. -/
def canonicalWorkflow (workflowId planId : String) (planVersion : Json) (wsConfigVersion : Int)
    (units : OrderedDict String CompiledUnit) (edges : List (String × String))
    (levels : List (List String)) (groups : OrderedDict String (List String)) : Json :=
  .obj [("workflow_id", .str workflowId),
    ("provenance", .obj [("plan_artifact_id", .str planId), ("plan_version", planVersion),
      ("ws_config_version", .int wsConfigVersion)]),
    ("units", .obj (units.items.map fun item ↦ (item.1, item.2.toDict))),
    ("edges", .arr (edges.map fun edge ↦ .arr [.str edge.1, .str edge.2])),
    ("canonical_order", .arr (levels.flatten.map .str)),
    ("levels", .arr (levels.map fun level ↦ .arr (level.map .str))),
    ("groups", .obj (groups.items.map fun group ↦ (group.1, .arr (group.2.map .str))))]

def graphNodes (graph : List (String × Json)) : Except CompileError (List Json) :=
  match OrderedDict.find "nodes" graph with
  | some (.arr (first :: rest)) =>
    if (first :: rest).any fun node ↦ node.fields?.isNone then .error (.raised .attributeError)
    else .ok (sortedBy nodeKey (first :: rest))
  | _ => .error (.rejected "ws.no_nodes")

def graphEdges (graph : List (String × Json)) : Except CompileError (List Json) :=
  match ((OrderedDict.find "requires_edges" graph).getD (.arr [])).iterate with
  | .ok edges => .ok edges
  | .error error => .error (.raised error)

def compileWorkflow (sealedGraph : Json) (wsConfigVersion : Int) :
    Except CompileError CompiledWorkflow :=
  match sealedGraph with
  | .obj graph =>
    let planVersion := (OrderedDict.find "plan_version" graph).getD .null
    match OrderedDict.find "plan_artifact_id" graph, planVersion.int? with
    | some (.str planId), some version =>
      if planId = "" then .error (.rejected "ws.bad_provenance")
      else do
        let nodes ← graphNodes graph
        let workflowId := workflowIdOf digest planId version wsConfigVersion
        let compiled ← nodes.foldlM (compileNode digest workflowId) .start
        let edges ← (← graphEdges graph).foldlM (compileEdge compiled.byNode) []
        let edges := sortedBy (fun edge ↦ toLex edge) edges
        match Kahn.levels compiled.units.keys.length
            (Kahn.incoming compiled.units.keys edges) with
        | none => .error (.rejected "ws.cycle_detected")
        | some levels =>
          let groups := compiled.groups.mapValues (sortMembers compiled.units)
          .ok ⟨workflowId, planId, planVersion, wsConfigVersion, compiled.units, edges,
            levels.flatten, levels, groups,
            digest (JsonText.dumps (canonicalWorkflow workflowId planId planVersion wsConfigVersion
              compiled.units edges levels groups))⟩
    | _, _ => .error (.rejected "ws.bad_provenance")
  | _ => .error (.rejected "ws.graph_not_mapping")

end AbsoluteZero.Scheduler

import AbsoluteZero.Foundations.Checked
import AbsoluteZero.Foundations.Grouping
import AbsoluteZero.Scheduler.Compile

/-!
# The graphs that compile

What a sealed graph says is a value whose fields carry the checks of the compiler: ids and
capabilities are not empty, no id and no edge stands twice, the edges join nodes and make no cycle.
A plain value compiles exactly when it presents such a graph (`compiles_iff_presents`).
-/

namespace AbsoluteZero.Scheduler

open Foundations OrderedDict Checked List

structure SealedNode where
  nodeId : String
  capabilityId : String
  priorityBand : PriorityBand
  group : Option (String × Int)
  nodeId_nonempty : nodeId ≠ ""
  capability_nonempty : capabilityId ≠ ""

/-- A sealed graph that the checks accept; a node that requires itself would be a cycle. -/
structure SealedGraph where
  planId : String
  planVersion : Json
  version : Int
  nodes : List SealedNode
  edges : List (String × String)
  planId_nonempty : planId ≠ ""
  version_eq : planVersion.int? = some version
  nodes_nonempty : nodes ≠ []
  nodes_distinct : (nodes.map SealedNode.nodeId).Nodup
  edges_join : ∀ edge ∈ edges, edge.1 ∈ nodes.map SealedNode.nodeId ∧
    edge.2 ∈ nodes.map SealedNode.nodeId
  edges_distinct : edges.Nodup
  acyclic : DepthFirst.Acyclic edges

def DeclaresGroup (node : Json) : Option (String × Int) → Prop
  | none => node.item "group_id" = .null
  | some group => node.item "group_id" ≠ .null ∧ (node.item "group_id").pyStr = group.1 ∧
      node.item "rank" = .int group.2

structure Declares (value : Json) (node : SealedNode) : Prop where
  nodeId : value.item "node_id" = .str node.nodeId
  capability : value.item "capability_id" = .str node.capabilityId
  band : value.item "priority_band" = .str (ClosedVocabulary.text node.priorityBand)
  lateBound : ∀ field ∈ value.fields?.getD [], bindsEarly field.1 = false
  group : DeclaresGroup value node.group

variable {value : Json}

theorem Declares.isSome_fields {node : SealedNode} (hnode : Declares value node) :
    value.fields?.isSome = true := by
  cases value with
  | obj fields => rfl
  | _ => cases hnode.nodeId

/-- An edge as a sealed graph lists it. -/
def edgeValue (edge : String × String) : Json := .arr [.str edge.1, .str edge.2]

/-- The value presents the graph; the nodes are taken in the order of their ids. -/
structure Presents (value : Json) (graph : SealedGraph) : Prop where
  planId : value.item "plan_artifact_id" = .str graph.planId
  planVersion : value.item "plan_version" = graph.planVersion
  nodes : List.Forall₂ Declares (sortedBy nodeKey (value.item "nodes").elements) graph.nodes
  edges : (value.getD "requires_edges" (.arr [])).iterate = .ok (graph.edges.map edgeValue)

theorem item_obj (fields : List (String × Json)) (key : String) :
    (Json.obj fields).item key = (OrderedDict.find key fields).getD .null := rfl

variable {fields : List (String × Json)}

theorem item_eq_iff {key : String} (hvalue : value ≠ .null) :
    (Json.obj fields).item key = value ↔ OrderedDict.find key fields = some value := by
  rw [item_obj]
  cases OrderedDict.find key fields with
  | none => simp [hvalue.symm]
  | some other => simp

/-! ### Nodes -/

section Nodes

variable {digest : String → String} {workflowId : String}

def SealedNode.unit (digest : String → String) (workflowId : String) (node : SealedNode) :
    CompiledUnit :=
  ⟨unitIdOf digest workflowId node.nodeId, node.nodeId, node.capabilityId, node.priorityBand, true,
    node.group⟩

theorem readUnitGroup_eq_ok_iff {nodeId : String} {group : Option (String × Int)} :
    readUnitGroup nodeId fields = .ok group ↔ DeclaresGroup (.obj fields) group := by
  unfold readUnitGroup DeclaresGroup
  simp only [item_obj]
  split
  · next hnone => cases group <;> simp [hnone]
  · next hnull => cases group <;> simp [hnull]
  · next groupId hnull hgroup =>
    have hsome : groupId ≠ .null := hnull
    rw [hgroup]
    split
    · next rank hrank =>
      rw [hrank]
      cases group with
      | none => simp [hsome]
      | some group =>
        simp [hsome, Prod.ext_iff]
    · next hrank =>
      cases group with
      | none => simp [hsome]
      | some group =>
        simp only [reduceCtorEq, false_iff, not_and]
        exact fun _ _ hfound ↦ hrank _ ((item_eq_iff (by simp)).mp hfound)

theorem readUnit_eq_ok_iff {byNode : OrderedDict String String}
    {unit : CompiledUnit} : readUnit digest workflowId byNode fields = .ok unit ↔
      ∃ node, Declares (.obj fields) node ∧ byNode.get? node.nodeId = none ∧
        unit = node.unit digest workflowId := by
  unfold readUnit
  constructor
  · intro hread
    simp only at hread
    split at hread
    · next nodeId hid =>
      obtain ⟨hnew, hread⟩ := Checked.unless_eq_ok_iff.mp hread
      rw [not_or, Bool.not_eq_true, Option.isSome_eq_false_iff, Option.isNone_iff_eq_none] at hnew
      split at hread
      · next capabilityId hcapability =>
        obtain ⟨hsome, hread⟩ := Checked.unless_eq_ok_iff.mp hread
        split at hread
        · cases hread
        · next band hband =>
          obtain ⟨hlate, hread⟩ := Checked.unless_eq_ok_iff.mp hread
          split at hread
          · cases hread
          · next group hgroup =>
            split at hband
            · next text htext =>
              cases hread
              rw [ClosedVocabulary.read_eq_some_iff] at hband
              refine ⟨⟨nodeId, capabilityId, band, group, hnew.1, hsome⟩,
                ⟨hid, (item_eq_iff (by simp)).mpr hcapability, htext.trans (by rw [hband]),
                  fun field hfield ↦ ?_, readUnitGroup_eq_ok_iff.mp hgroup⟩, hnew.2, rfl⟩
              exact Bool.eq_false_iff.mpr fun hearly ↦
                hlate (any_eq_true.mpr ⟨field, hfield, hearly⟩)
            · cases hband
      · cases hread
    · cases hread
  · rintro ⟨node, hnode, hnew, rfl⟩
    have hid := hnode.nodeId
    have hband := hnode.band
    rw [item_obj] at hid hband
    have hlate : ¬ (fields.any fun field ↦ bindsEarly field.1) = true := by
      rw [any_eq_true]
      rintro ⟨field, hfield, hearly⟩
      exact absurd (hnode.lateBound field hfield) (by simp [hearly])
    simp only [hid, hband, (item_eq_iff (by simp)).mp hnode.capability, hnew, node.nodeId_nonempty,
      node.capability_nonempty, ClosedVocabulary.read_text, if_neg hlate,
      readUnitGroup_eq_ok_iff.mpr hnode.group, Option.isSome_none, Bool.false_eq_true, or_false,
      if_false]
    rfl

theorem compileNode_eq_ok_iff {compiled after : CompiledNodes} :
    compileNode digest workflowId compiled value = .ok after ↔
      ∃ node, Declares value node ∧ compiled.byNode.get? node.nodeId = none ∧
        after = compiled.add (node.unit digest workflowId) := by
  unfold compileNode
  cases value with
  | obj fields =>
    simp only
    constructor
    · intro hok
      split at hok
      · cases hok
      · next unit hunit =>
        obtain ⟨node, hnode, hnew, rfl⟩ := readUnit_eq_ok_iff.mp hunit
        exact ⟨node, hnode, hnew, (Except.ok.inj hok).symm⟩
    · rintro ⟨node, hnode, hnew, rfl⟩
      simp only [readUnit_eq_ok_iff.mpr ⟨node, hnode, hnew, rfl⟩]
  | _ =>
    refine ⟨fun hok ↦ (by cases hok), ?_⟩
    rintro ⟨node, hnode, -⟩
    cases hnode.nodeId

/-- The loop over the nodes ends well exactly when they declare nodes whose ids are new and
distinct. -/
theorem foldlM_compileNode_eq_ok_iff {values : List Json} {compiled after : CompiledNodes} :
    values.foldlM (compileNode digest workflowId) compiled = .ok after ↔
      ∃ nodes, List.Forall₂ Declares values nodes ∧ (nodes.map SealedNode.nodeId).Nodup ∧
        (∀ node ∈ nodes, compiled.byNode.get? node.nodeId = none) ∧
        after = (nodes.map (SealedNode.unit digest workflowId)).foldl CompiledNodes.add
          compiled := by
  induction values generalizing compiled with
  | nil =>
    simp [pure, Except.pure, eq_comm]
  | cons value rest ih =>
    simp only [foldlM_cons, bind_eq_ok_iff, compileNode_eq_ok_iff, ih, forall₂_cons_left_iff]
    have hnext : ∀ node other : SealedNode,
        ((compiled.add (node.unit digest workflowId)).byNode.get? other.nodeId = none ↔
          node.nodeId ≠ other.nodeId ∧ compiled.byNode.get? other.nodeId = none) := by
      intro node other
      change (compiled.byNode.insert node.nodeId _).get? other.nodeId = none ↔ _
      rw [get?_insert]
      split <;> simp_all
    constructor
    · rintro ⟨_, ⟨node, hnode, hnew, rfl⟩, nodes, hnodes, hdistinct, hfresh, rfl⟩
      refine ⟨node :: nodes, ⟨node, nodes, hnode, hnodes, rfl⟩,
        nodup_cons.mpr ⟨fun hmem ↦ ?_, hdistinct⟩, ?_, rfl⟩
      · obtain ⟨other, hother, heq⟩ := mem_map.mp hmem
        exact ((hnext node other).mp (hfresh other hother)).1 heq.symm
      · intro other hother
        rcases mem_cons.mp hother with rfl | hother
        · exact hnew
        · exact ((hnext node other).mp (hfresh other hother)).2
    · rintro ⟨_, ⟨node, nodes, hnode, hnodes, rfl⟩, hdistinct, hfresh, rfl⟩
      obtain ⟨hnew, hdistinct⟩ := nodup_cons.mp hdistinct
      refine ⟨_, ⟨node, hnode, hfresh node mem_cons_self, rfl⟩, nodes, hnodes, hdistinct,
        fun other hother ↦ (hnext node other).mpr ⟨fun heq ↦ hnew ?_, ?_⟩, rfl⟩
      · exact heq ▸ mem_map_of_mem hother
      · exact hfresh other (mem_cons_of_mem _ hother)

def compiledOf (digest : String → String) (workflowId : String) (nodes : List SealedNode) :
    CompiledNodes :=
  (nodes.map (SealedNode.unit digest workflowId)).foldl CompiledNodes.add .start

/-- What units add: the units, the units of the nodes, and to each group the units that name it. -/
theorem foldl_add (units : List CompiledUnit) (compiled : CompiledNodes) :
    (units.foldl CompiledNodes.add compiled).units =
      units.foldl (fun dict unit ↦ dict.insert unit.unitId unit) compiled.units ∧
    (units.foldl CompiledNodes.add compiled).byNode =
      units.foldl (fun dict unit ↦ dict.insert unit.nodeId unit.unitId) compiled.byNode ∧
    ∀ groupId, ((units.foldl CompiledNodes.add compiled).groups.get? groupId).getD [] =
      (compiled.groups.get? groupId).getD [] ++
        (units.filter fun unit ↦ unit.group.map Prod.fst = some groupId).map
          CompiledUnit.unitId := by
  induction units generalizing compiled with
  | nil => exact ⟨rfl, rfl, fun groupId ↦ (append_nil _).symm⟩
  | cons unit rest ih =>
    obtain ⟨hunits, hnodes, hgroups⟩ := ih (compiled.add unit)
    refine ⟨hunits, hnodes, fun groupId ↦ ?_⟩
    rw [foldl_cons, hgroups groupId]
    change ((appendMember compiled.groups unit).get? groupId).getD [] ++ _ = _
    unfold appendMember
    cases hgroup : unit.group with
    | none => rw [filter_cons_of_neg (by simp [hgroup])]
    | some group =>
      simp only [get?_insert]
      by_cases heq : group.1 = groupId
      · subst heq
        rw [if_pos rfl, filter_cons_of_pos (by simp [hgroup]), map_cons,
          Option.getD_some, append_assoc, singleton_append]
      · rw [if_neg heq, filter_cons_of_neg (by simpa [hgroup] using heq)]

variable {nodes : List SealedNode}

theorem byNode_compiledOf (hdistinct : (nodes.map SealedNode.nodeId).Nodup) :
    (compiledOf digest workflowId nodes).byNode.keys = nodes.map SealedNode.nodeId ∧
      ∀ id ∈ (compiledOf digest workflowId nodes).byNode.keys,
        (compiledOf digest workflowId nodes).byNode.get? id =
          some (unitIdOf digest workflowId id) := by
  have hitems : (compiledOf digest workflowId nodes).byNode.items =
      nodes.map fun node ↦ (node.nodeId, unitIdOf digest workflowId node.nodeId) := by
    rw [compiledOf, (foldl_add _ _).2.1, items_foldl_insert, map_map]
    · rfl
    · rwa [map_map]
  have hkeys : (compiledOf digest workflowId nodes).byNode.keys = nodes.map SealedNode.nodeId := by
    rw [OrderedDict.keys, hitems, map_map]
    rfl
  refine ⟨hkeys, fun id hid ↦ ?_⟩
  rw [get?_eq_some_iff, hitems]
  obtain ⟨node, hnode, rfl⟩ := mem_map.mp (hkeys ▸ hid)
  exact mem_map.mpr ⟨node, hnode, rfl⟩

theorem items_units_compiledOf
    (hdistinct : (nodes.map fun node ↦ unitIdOf digest workflowId node.nodeId).Nodup) :
    (compiledOf digest workflowId nodes).units.items = nodes.map fun node ↦
      (unitIdOf digest workflowId node.nodeId, node.unit digest workflowId) := by
  rw [compiledOf, (foldl_add _ _).1, items_foldl_insert, map_map]
  · rfl
  · rwa [map_map]

theorem mem_keys_units_compiledOf {id : String} (hid : id ∈ nodes.map SealedNode.nodeId) :
    unitIdOf digest workflowId id ∈ (compiledOf digest workflowId nodes).units.keys := by
  obtain ⟨node, hnode, rfl⟩ := mem_map.mp hid
  rw [compiledOf, (foldl_add _ _).1]
  obtain ⟨earlier, later, rfl⟩ := append_of_mem hnode
  rw [map_append, map_cons, foldl_append, foldl_cons]
  refine List.foldlRecOn _ _ (motive := fun dict : OrderedDict String CompiledUnit ↦
    unitIdOf digest workflowId node.nodeId ∈ dict.keys) ?_ fun dict hmem unit _ ↦ ?_
  · exact (mem_keys_insert _).mpr (.inl rfl)
  · exact (mem_keys_insert _).mpr (.inr hmem)

theorem join_units {edges : List (String × String)} (hjoin : ∀ edge ∈ edges,
      edge.1 ∈ nodes.map SealedNode.nodeId ∧ edge.2 ∈ nodes.map SealedNode.nodeId) :
    ∀ pair ∈ sortedBy (fun edge ↦ toLex edge)
        (edges.map (Prod.map (unitIdOf digest workflowId) (unitIdOf digest workflowId))),
      pair.1 ∈ (compiledOf digest workflowId nodes).units.keys ∧
        pair.2 ∈ (compiledOf digest workflowId nodes).units.keys := by
  intro pair hpair
  obtain ⟨edge, hedge, rfl⟩ := mem_map.mp (mem_sortedBy.mp hpair)
  exact ⟨mem_keys_units_compiledOf (hjoin edge hedge).1,
    mem_keys_units_compiledOf (hjoin edge hedge).2⟩

end Nodes

section Edges

variable {byNode : OrderedDict String String} {unitId : String → String}
  (hunits : ∀ id ∈ byNode.keys, byNode.get? id = some (unitId id))

include hunits

theorem unitOfNode_eq_ok_iff {unit : String} :
    unitOfNode byNode value = .ok (some unit) ↔
      ∃ id, value = .str id ∧ id ∈ byNode.keys ∧ unit = unitId id := by
  cases value with
  | str text =>
    constructor
    · intro hok
      have hget := Except.ok.inj hok
      have hmem := (exists_get?_iff byNode).mp ⟨unit, hget⟩
      exact ⟨text, rfl, hmem, Option.some.inj (hget.symm.trans (hunits text hmem))⟩
    · rintro ⟨_, ⟨⟩, hmem, rfl⟩
      exact congrArg Except.ok (hunits text hmem)
  | _ => simp [unitOfNode, Json.hashable]

/-- An edge is compiled exactly when it joins nodes with different units, and joins them first. -/
theorem compileEdge_eq_ok_iff {seen after : List (String × String)} :
    compileEdge byNode seen value = .ok after ↔
      ∃ edge, value = edgeValue edge ∧ (edge.1 ∈ byNode.keys ∧ edge.2 ∈ byNode.keys) ∧
        unitId edge.1 ≠ unitId edge.2 ∧ Prod.map unitId unitId edge ∉ seen ∧
        after = seen ++ [Prod.map unitId unitId edge] := by
  constructor
  · intro hok
    unfold compileEdge at hok
    split at hok
    · split at hok
      · cases hok
      · cases hok
      · next hproducer =>
        split at hok
        · cases hok
        · cases hok
        · next hconsumer =>
          split at hok
          · cases hok
          · next hnew =>
            obtain ⟨producer, rfl, hfrom, rfl⟩ := (unitOfNode_eq_ok_iff hunits).mp hproducer
            obtain ⟨consumer, rfl, hto, rfl⟩ := (unitOfNode_eq_ok_iff hunits).mp hconsumer
            rw [not_or] at hnew
            exact ⟨(producer, consumer), rfl, ⟨hfrom, hto⟩, hnew.2, hnew.1,
              (Except.ok.inj hok).symm⟩
    · cases hok
  · rintro ⟨⟨producer, consumer⟩, rfl, ⟨hproducer, hconsumer⟩, hloop, hnew, rfl⟩
    unfold compileEdge edgeValue
    simp only [(unitOfNode_eq_ok_iff hunits).mpr ⟨_, rfl, hproducer, rfl⟩,
      (unitOfNode_eq_ok_iff hunits).mpr ⟨_, rfl, hconsumer, rfl⟩]
    exact if_neg (not_or.mpr ⟨hnew, hloop⟩)

/-- The loop over the edges ends well exactly when they join nodes with different units, and no two
of them, nor one that was seen, join the same units. -/
theorem foldlM_compileEdge_eq_ok_iff {values : List Json} {seen after : List (String × String)}
    (hseen : seen.Nodup) : values.foldlM (compileEdge byNode) seen = .ok after ↔
      ∃ edges : List (String × String), values = edges.map edgeValue ∧
        (∀ edge ∈ edges, (edge.1 ∈ byNode.keys ∧ edge.2 ∈ byNode.keys) ∧
          unitId edge.1 ≠ unitId edge.2) ∧
        after = seen ++ edges.map (Prod.map unitId unitId) ∧ after.Nodup := by
  induction values generalizing seen with
  | nil =>
    constructor
    · intro hok
      cases hok
      exact ⟨[], rfl, fun _ hedge ↦ (by cases hedge), (append_nil _).symm, hseen⟩
    · rintro ⟨edges, hempty, -, rfl, -⟩
      rw [map_eq_nil_iff.mp hempty.symm, map_nil, append_nil]
      rfl
  | cons value rest ih =>
    rw [foldlM_cons, bind_eq_ok_iff]
    have hlast : ∀ pair, (seen ++ [pair]).Nodup ↔ pair ∉ seen ∧ seen.Nodup := fun pair ↦
      concat_eq_append ▸ nodup_concat seen pair
    constructor
    · rintro ⟨middle, hmiddle, hok⟩
      obtain ⟨edge, rfl, hjoin, hloop, hnew, rfl⟩ := (compileEdge_eq_ok_iff hunits).mp hmiddle
      obtain ⟨edges, rfl, hedges, rfl, hnodup⟩ :=
        (ih ((hlast _).mpr ⟨hnew, hseen⟩)).mp hok
      refine ⟨edge :: edges, rfl, ?_, by simp, hnodup⟩
      exact forall_mem_cons.mpr ⟨⟨hjoin, hloop⟩, hedges⟩
    · rintro ⟨edges, hvalues, hedges, rfl, hnodup⟩
      obtain ⟨edge, edges, rfl, rfl, rfl⟩ := map_eq_cons_iff.mp hvalues.symm
      obtain ⟨⟨hjoin, hloop⟩, hedges⟩ := forall_mem_cons.mp hedges
      have hfirst : (seen ++ [Prod.map unitId unitId edge]).Nodup :=
        hnodup.sublist (by simp)
      refine ⟨_, (compileEdge_eq_ok_iff hunits).mpr
        ⟨edge, rfl, hjoin, hloop, ((hlast _).mp hfirst).1, rfl⟩,
        (ih hfirst).mpr ⟨edges, rfl, hedges, by simp, hnodup⟩⟩

end Edges

/-! ### The whole graph -/

namespace SealedGraph

section

variable (digest : String → String) (config : Int) (graph : SealedGraph)

def workflowId : String := workflowIdOf digest graph.planId graph.version config

def unitId (nodeId : String) : String := unitIdOf digest (graph.workflowId digest config) nodeId

def compiled : CompiledNodes := compiledOf digest (graph.workflowId digest config) graph.nodes

def unitEdges : List (String × String) :=
  sortedBy (fun edge ↦ toLex edge)
    (graph.edges.map (Prod.map (graph.unitId digest config) (graph.unitId digest config)))

def arranged : Option (List (List String)) :=
  Kahn.levels (graph.compiled digest config).units.keys.length
    (Kahn.incoming (graph.compiled digest config).units.keys (graph.unitEdges digest config))

def workflow (levels : List (List String)) : CompiledWorkflow :=
  let compiled := graph.compiled digest config
  let edges := graph.unitEdges digest config
  let groups := compiled.groups.mapValues (sortMembers compiled.units)
  let workflowId := graph.workflowId digest config
  ⟨workflowId, graph.planId, graph.planVersion, config, compiled.units, edges, levels.flatten,
    levels, groups, digest (JsonText.dumps (canonicalWorkflow workflowId graph.planId
      graph.planVersion config compiled.units edges levels groups))⟩

def UnitsApart : Prop :=
  ∀ first ∈ graph.nodes.map SealedNode.nodeId, ∀ second ∈ graph.nodes.map SealedNode.nodeId,
    graph.unitId digest config first = graph.unitId digest config second → first = second

end

variable {digest : String → String} {config : Int} {graph : SealedGraph}

theorem nodup_unitEdges_iff : (graph.unitEdges digest config).Nodup ↔ (graph.edges.map
      (Prod.map (graph.unitId digest config) (graph.unitId digest config))).Nodup :=
  (perm_sortedBy _ _).nodup_iff

theorem mem_unitEdges_iff {pair : String × String} : pair ∈ graph.unitEdges digest config ↔
    ∃ edge ∈ graph.edges, Prod.map (graph.unitId digest config) (graph.unitId digest config) edge =
      pair :=
  mem_sortedBy.trans mem_map

end SealedGraph

section Whole

variable {digest : String → String} {config : Int}

theorem graphNodes_eq_ok_iff {nodes : List Json} :
    graphNodes fields = .ok nodes ↔ ∃ listed, (Json.obj fields).item "nodes" = .arr listed ∧
      listed ≠ [] ∧ (∀ node ∈ listed, node.fields?.isSome) ∧ nodes = sortedBy nodeKey listed := by
  unfold graphNodes
  constructor
  · intro hok
    split at hok
    · next first rest hlist =>
      obtain ⟨hdicts, hok⟩ := Checked.unless_eq_ok_iff.mp hok
      refine ⟨first :: rest, (item_eq_iff (by simp)).mpr hlist, cons_ne_nil _ _,
        fun node hnode ↦ ?_, (Except.ok.inj hok).symm⟩
      by_contra hnot
      exact hdicts (any_eq_true.mpr ⟨node, hnode, by simpa using hnot⟩)
    · cases hok
  · rintro ⟨listed, hlist, hsome, hdicts, rfl⟩
    obtain ⟨first, rest, rfl⟩ := exists_cons_of_ne_nil hsome
    rw [(item_eq_iff (by simp)).mp hlist]
    refine if_neg fun hany ↦ ?_
    obtain ⟨node, hnode, hnone⟩ := any_eq_true.mp hany
    have hsome := hdicts node hnode
    rw [Option.isNone_iff_eq_none.mp hnone] at hsome
    cases hsome

theorem graphEdges_eq_ok_iff {edges : List Json} :
    graphEdges fields = .ok edges ↔
      ((Json.obj fields).getD "requires_edges" (.arr [])).iterate = .ok edges := by
  unfold graphEdges
  change _ ↔ ((OrderedDict.find "requires_edges" fields).getD (.arr [])).iterate = .ok edges
  split
  · next hedges => rw [hedges, Except.ok.injEq, Except.ok.injEq]
  · next hedges => simp [hedges]

variable {value : Json}

/-- A value compiles exactly when it presents a graph whose units the edges join one after another
and which can be arranged. -/
theorem compileWorkflow_eq_ok_iff {workflow : CompiledWorkflow} :
    compileWorkflow digest value config = .ok workflow ↔
      ∃ graph, Presents value graph ∧ (graph.unitEdges digest config).Nodup ∧
        (∀ pair ∈ graph.unitEdges digest config, pair.1 ≠ pair.2) ∧
        ∃ levels, graph.arranged digest config = some levels ∧
          workflow = graph.workflow digest config levels := by
  unfold compileWorkflow
  cases value with
  | obj fields =>
    constructor
    · intro hok
      simp only at hok
      split at hok
      · next planId version hid hversion =>
        obtain ⟨hplan, hok⟩ := Checked.unless_eq_ok_iff.mp hok
        obtain ⟨listed, hlisted, hloop⟩ := bind_eq_ok_iff.mp hok
        obtain ⟨compiled, hcompiled, hread⟩ := bind_eq_ok_iff.mp hloop
        obtain ⟨required, hrequired, hjoin⟩ := bind_eq_ok_iff.mp hread
        obtain ⟨pairs, hpairs, hlast⟩ := bind_eq_ok_iff.mp hjoin
        obtain ⟨nodes, hnodes, hdistinct, -, rfl⟩ := foldlM_compileNode_eq_ok_iff.mp hcompiled
        obtain ⟨hkeys, hunits⟩ := @byNode_compiledOf digest _ _ hdistinct
        obtain ⟨edges, rfl, hedges, rfl, hnodup⟩ :=
          (foldlM_compileEdge_eq_ok_iff hunits nodup_nil).mp hpairs
        obtain ⟨values, hvalues, hsome, -, rfl⟩ := graphNodes_eq_ok_iff.mp hlisted
        split at hlast
        · cases hlast
        · next levels hlevels =>
          have hends : ∀ edge ∈ edges, edge.1 ∈ nodes.map SealedNode.nodeId ∧
              edge.2 ∈ nodes.map SealedNode.nodeId := fun edge hedge ↦
            hkeys ▸ (hedges edge hedge).1
          have hacyclic := Kahn.acyclic_of_levels (OrderedDict.nodup _) (join_units hends) hlevels
          refine ⟨⟨planId, _, version, nodes, edges, hplan, hversion, ?_, hdistinct, hends,
            hnodup.of_map _, fun id hcycle ↦ hacyclic _ (hcycle.lift _ fun source target hedge ↦
              mem_sortedBy.mpr (mem_map.mpr ⟨_, hedge, rfl⟩))⟩,
            ⟨(item_eq_iff (by simp)).mpr hid, rfl, ?_, graphEdges_eq_ok_iff.mp hrequired⟩,
            SealedGraph.nodup_unitEdges_iff.mpr hnodup, ?_, levels, hlevels,
            (Except.ok.inj hlast).symm⟩
          · rintro rfl
            exact hsome (sortedBy_eq_nil.mp (forall₂_nil_right_iff.mp hnodes))
          · rw [hvalues]
            exact hnodes
          · intro pair hpair
            obtain ⟨edge, hedge, rfl⟩ := SealedGraph.mem_unitEdges_iff.mp hpair
            exact (hedges edge hedge).2
      · cases hok
    · rintro ⟨graph, hpresents, hnodup, hloops, levels, hlevels, rfl⟩
      have hversion : (OrderedDict.find "plan_version" fields).getD .null = graph.planVersion :=
        hpresents.planVersion
      have hnodes : graphNodes fields =
          .ok (sortedBy nodeKey ((Json.obj fields).item "nodes").elements) := by
        have hsome : ((Json.obj fields).item "nodes").elements ≠ [] := by
          intro hnil
          have hnodes := hpresents.nodes
          rw [hnil] at hnodes
          exact graph.nodes_nonempty (forall₂_nil_left_iff.mp hnodes)
        have hdicts := (forall₂_and_left _ _).mp
          (hpresents.nodes.imp fun value node hnode ↦ ⟨hnode.isSome_fields, hnode⟩)
        refine graphNodes_eq_ok_iff.mpr ⟨_, ?_, hsome,
          fun value hvalue ↦ hdicts.1 value (mem_sortedBy.mpr hvalue), rfl⟩
        cases hlist : (Json.obj fields).item "nodes" with
        | arr elements => rfl
        | _ => exact absurd (congrArg Json.elements hlist) hsome
      have hcompiled : List.foldlM (compileNode digest
          (workflowIdOf digest graph.planId graph.version config)) .start
          (sortedBy nodeKey ((Json.obj fields).item "nodes").elements) =
            .ok (graph.compiled digest config) := foldlM_compileNode_eq_ok_iff.mpr
        ⟨graph.nodes, hpresents.nodes, graph.nodes_distinct, fun _ _ ↦ rfl, rfl⟩
      obtain ⟨hkeys, hunits⟩ := @byNode_compiledOf digest
        (graph.workflowId digest config) _ graph.nodes_distinct
      have hedges : List.foldlM (compileEdge (graph.compiled digest config).byNode) []
          (graph.edges.map edgeValue) = .ok (graph.edges.map
            (Prod.map (graph.unitId digest config) (graph.unitId digest config))) :=
        (foldlM_compileEdge_eq_ok_iff hunits nodup_nil).mpr
        ⟨graph.edges, rfl, fun edge hedge ↦ ⟨hkeys ▸ graph.edges_join edge hedge, hloops _
          (SealedGraph.mem_unitEdges_iff.mpr ⟨edge, hedge, rfl⟩)⟩, rfl,
          SealedGraph.nodup_unitEdges_iff.mp hnodup⟩
      simp only [(item_eq_iff (by simp)).mp hpresents.planId, hversion, graph.version_eq,
        if_neg graph.planId_nonempty, hnodes, graphEdges_eq_ok_iff.mpr hpresents.edges, bind,
        Except.bind, hcompiled, hedges]
      unfold SealedGraph.arranged SealedGraph.unitEdges at hlevels
      rw [hlevels]
      rfl
  | _ =>
    refine ⟨fun hok ↦ (by cases hok), ?_⟩
    rintro ⟨graph, hpresents, -⟩
    cases hpresents.planId

def CompiledWorkflow.rank (workflow : CompiledWorkflow) (unitId : String) : Int :=
  (((workflow.units.get? unitId).bind CompiledUnit.group).map Prod.snd).getD 0

/-- The workflow lays the graph out: one unit for each node, the edges between the units, every
edge forward in the canonical order, each level the sorted units of its depth, and in each group the
units of its nodes, sorted by rank and id. -/
structure LaidOut (digest : String → String) (config : Int) (graph : SealedGraph)
    (workflow : CompiledWorkflow) : Prop where
  workflowId : workflow.workflowId = graph.workflowId digest config
  provenance : workflow.planArtifactId = graph.planId ∧ workflow.planVersion = graph.planVersion ∧
    workflow.wsConfigVersion = config
  units : workflow.units.items = graph.nodes.map fun node ↦
    (graph.unitId digest config node.nodeId, node.unit digest (graph.workflowId digest config))
  edges : workflow.edges.Perm (graph.edges.map
    (Prod.map (graph.unitId digest config) (graph.unitId digest config)))
  order : workflow.canonicalOrder.Perm workflow.units.keys ∧ ∀ edge ∈ workflow.edges,
    workflow.canonicalOrder.idxOf edge.1 < workflow.canonicalOrder.idxOf edge.2
  flat : workflow.canonicalOrder = workflow.levels.flatten
  levels : ∀ position level, workflow.levels[position]? = some level →
    level.Pairwise (· ≤ ·) ∧
      ∀ unit ∈ level, Kahn.Depth workflow.edges workflow.units.keys unit position
  groups : ∀ groupId, ((workflow.groups.get? groupId).getD []).Perm
    ((graph.nodes.filter fun node ↦ node.group.map Prod.fst = some groupId).map
      fun node ↦ graph.unitId digest config node.nodeId)
  ranked : ∀ groupId members, workflow.groups.get? groupId = some members →
    members.Pairwise fun first second ↦
      toLex (workflow.rank first, first) ≤ toLex (workflow.rank second, second)

variable {graph : SealedGraph} {levels : List (List String)}

theorem laidOut_workflow (hapart : graph.UnitsApart digest config)
    (hlevels : graph.arranged digest config = some levels) :
    LaidOut digest config graph (graph.workflow digest config levels) := by
  have hjoin := @join_units digest (graph.workflowId digest config) _ _ graph.edges_join
  have hacyclic := Kahn.acyclic_of_levels (OrderedDict.nodup _) hjoin hlevels
  obtain ⟨hperm, hdepth⟩ := Kahn.depth_of_levels (OrderedDict.nodup _) hjoin hlevels
  obtain ⟨arranged, harranged, -, hforward⟩ :=
    Kahn.exists_levels hacyclic (OrderedDict.nodup _) hjoin
  obtain rfl := Option.some.inj (hlevels.symm.trans harranged)
  refine ⟨rfl, ⟨rfl, rfl, rfl⟩, items_units_compiledOf ?_, perm_sortedBy _ _,
    ⟨hperm, hforward⟩, rfl, hdepth, fun groupId ↦ ?_, fun groupId members hget ↦ ?_⟩
  · rw [← Function.comp_def, ← map_map]
    exact graph.nodes_distinct.map_on hapart
  · change ((((graph.compiled digest config).groups.mapValues
      (sortMembers (graph.compiled digest config).units)).get? groupId).getD []).Perm _
    have hmembers := (foldl_add (graph.nodes.map
      (SealedNode.unit digest (graph.workflowId digest config))) .start).2.2 groupId
    rw [filter_map, map_map] at hmembers
    refine List.Perm.trans ?_ (List.Perm.of_eq hmembers)
    rw [get?_mapValues, SealedGraph.compiled, compiledOf]
    cases OrderedDict.get? _ groupId with
    | none => exact List.Perm.refl _
    | some members => exact perm_sortedBy _ _
  · change ((graph.compiled digest config).groups.mapValues
      (sortMembers (graph.compiled digest config).units)).get? groupId = _ at hget
    rw [get?_mapValues] at hget
    obtain ⟨unsorted, -, rfl⟩ := Option.map_eq_some_iff.mp hget
    exact pairwise_sortedBy _ unsorted

/-- Assumes: the units have distinct ids, and no edge stands twice. The graph compiles to a workflow
that lays it out. -/
theorem compiles_of_presents (hpresents : Presents value graph)
    (hapart : graph.UnitsApart digest config) :
    ∃ workflow, compileWorkflow digest value config = .ok workflow ∧
      LaidOut digest config graph workflow := by
  have hmeet : ∀ edge ∈ graph.edges, ∀ other ∈ graph.edges,
      graph.unitId digest config edge.2 = graph.unitId digest config other.1 →
        edge.2 = other.1 := fun edge hedge other hother ↦
    hapart _ (graph.edges_join edge hedge).2 _ (graph.edges_join other hother).1
  have hacyclic : DepthFirst.Acyclic (graph.unitEdges digest config) := fun node hcycle ↦
    graph.acyclic.map hmeet node
      (Relation.TransGen.mono (fun _ _ hedge ↦ mem_sortedBy.mp hedge) node node hcycle)
  obtain ⟨levels, hlevels, -⟩ := Kahn.exists_levels hacyclic
    (graph.compiled digest config).units.nodup (join_units graph.edges_join)
  refine ⟨_, compileWorkflow_eq_ok_iff.mpr ⟨graph, hpresents, ?_, fun pair hpair heq ↦ ?_, levels,
    hlevels, rfl⟩, laidOut_workflow hapart hlevels⟩
  · refine SealedGraph.nodup_unitEdges_iff.mpr (graph.edges_distinct.map_on
      fun edge hedge other hother heq ↦ Prod.ext ?_ ?_)
    · exact hapart _ (graph.edges_join edge hedge).1 _ (graph.edges_join other hother).1
        (congrArg Prod.fst heq)
    · exact hapart _ (graph.edges_join edge hedge).2 _ (graph.edges_join other hother).2
        (congrArg Prod.snd heq)
  · refine hacyclic pair.1 (.single ?_)
    nth_rewrite 2 [heq]
    exact hpair

/-- Assumes: different nodes have different units. A value compiles exactly when it presents a
sealed graph, and what it compiles to lays that graph out. -/
theorem compiles_iff_presents
    (hapart : ∀ graph, Presents value graph → graph.UnitsApart digest config) :
    ((∃ workflow, compileWorkflow digest value config = .ok workflow) ↔
      ∃ graph, Presents value graph) ∧
    ∀ workflow, compileWorkflow digest value config = .ok workflow →
      ∃ graph, Presents value graph ∧ LaidOut digest config graph workflow := by
  refine ⟨⟨fun ⟨workflow, hok⟩ ↦ ?_, fun ⟨graph, hpresents⟩ ↦ ?_⟩, fun workflow hok ↦ ?_⟩
  · obtain ⟨graph, hpresents, -⟩ := compileWorkflow_eq_ok_iff.mp hok
    exact ⟨graph, hpresents⟩
  · obtain ⟨workflow, hok, -⟩ := compiles_of_presents hpresents (hapart graph hpresents)
    exact ⟨workflow, hok⟩
  · obtain ⟨graph, hpresents, -, -, levels, hlevels, rfl⟩ := compileWorkflow_eq_ok_iff.mp hok
    exact ⟨graph, hpresents, laidOut_workflow (hapart graph hpresents) hlevels⟩

/-! ### What the dispatcher runs -/

/-- What the dispatcher reads of a unit. -/
def CompiledUnit.dispatched (unit : CompiledUnit) : WorkflowUnit :=
  ⟨unit.priorityBand, unit.group.map Prod.fst⟩

/-- The workflow is what the dispatcher reads of the compiled one. -/
structure CompiledWorkflow.Dispatches (compiled : CompiledWorkflow) (workflow : Workflow) :
    Prop where
  workflowId : workflow.workflowId = compiled.workflowId
  units : workflow.units = compiled.units.mapValues CompiledUnit.dispatched
  edges : workflow.edges = compiled.edges
  canonicalOrder : workflow.canonicalOrder = compiled.canonicalOrder
  groups : workflow.groups = compiled.groups

theorem foldl_add_ne_nil {units : List CompiledUnit} {compiled : CompiledNodes}
    (hcompiled : ∀ groupId members, compiled.groups.get? groupId = some members → members ≠ [])
    (groupId : String) (members : List String)
    (hget : (units.foldl CompiledNodes.add compiled).groups.get? groupId = some members) :
    members ≠ [] := by
  induction units generalizing compiled with
  | nil => exact hcompiled groupId members hget
  | cons unit rest ih =>
    refine ih (fun other named hother ↦ ?_) hget
    change (appendMember compiled.groups unit).get? other = some named at hother
    unfold appendMember at hother
    split at hother
    · exact hcompiled other named hother
    · rw [get?_insert] at hother
      split at hother
      · cases hother
        exact append_ne_nil_of_right_ne_nil _ (cons_ne_nil _ _)
      · exact hcompiled other named hother

theorem groups_ne_nil {levels : List (List String)} {groupId : String} {members : List String}
    (hget : (graph.workflow digest config levels).groups.get? groupId = some members) :
    members ≠ [] := by
  change ((graph.compiled digest config).groups.mapValues
    (sortMembers (graph.compiled digest config).units)).get? groupId = _ at hget
  rw [get?_mapValues] at hget
  obtain ⟨unsorted, hunsorted, rfl⟩ := Option.map_eq_some_iff.mp hget
  have hsome := foldl_add_ne_nil (fun _ _ hnone ↦ by cases hnone) groupId unsorted hunsorted
  exact fun hnil ↦ hsome (sortedBy_eq_nil.mp hnil)

/-- Assumes: different nodes have different units. What a value compiles to is a workflow that the
dispatcher can run. -/
theorem exists_dispatches (hapart : ∀ graph, Presents value graph → graph.UnitsApart digest config)
    {compiled : CompiledWorkflow} (hok : compileWorkflow digest value config = .ok compiled) :
    ∃ workflow, compiled.Dispatches workflow := by
  obtain ⟨graph, hpresents, -, -, levels, hlevels, rfl⟩ := compileWorkflow_eq_ok_iff.mp hok
  have hlaid := laidOut_workflow (hapart graph hpresents) hlevels
  have hsome := @groups_ne_nil digest config graph levels
  generalize graph.workflow digest config levels = compiled at hlaid hsome
  have hkeys : (compiled.units.mapValues CompiledUnit.dispatched).keys =
    compiled.units.keys := map_map
  have hnode : ∀ node ∈ graph.nodes, (compiled.units.mapValues CompiledUnit.dispatched).get?
      (graph.unitId digest config node.nodeId) =
        some ⟨node.priorityBand, node.group.map Prod.fst⟩ := by
    intro node hmem
    have hunit := (get?_eq_some_iff _).mpr (hlaid.units ▸ mem_map_of_mem hmem)
    rw [get?_mapValues, hunit]
    rfl
  have hnodup : (graph.nodes.map fun node ↦ graph.unitId digest config node.nodeId).Nodup := by
    have hunits := compiled.units.nodup
    rw [hlaid.units, map_map] at hunits
    exact hunits
  refine ⟨⟨compiled.workflowId, compiled.units.mapValues CompiledUnit.dispatched, compiled.edges,
    compiled.canonicalOrder, compiled.groups, ?_, fun edge hedge ↦ ?_, fun group hgroup ↦ ?_,
    fun unit hunit groupId hnamed ↦ ?_⟩, rfl, rfl, rfl, rfl, rfl⟩
  · rw [hkeys]
    exact hlaid.order.1
  · have hmem : ∀ id ∈ graph.nodes.map SealedNode.nodeId,
        graph.unitId digest config id ∈
          (compiled.units.mapValues CompiledUnit.dispatched).keys := by
      intro id hid
      obtain ⟨node, hmem, rfl⟩ := mem_map.mp hid
      exact (exists_get?_iff _).mp ⟨_, hnode node hmem⟩
    obtain ⟨joined, hjoined, rfl⟩ := mem_map.mp (hlaid.edges.mem_iff.mp hedge)
    obtain ⟨hsource, htarget⟩ := graph.edges_join joined hjoined
    exact ⟨hmem _ hsource, hmem _ htarget, hlaid.order.2 _ hedge⟩
  · have hget := (get?_eq_some_iff _).mpr hgroup
    have hmembers := hlaid.groups group.1
    rw [hget, Option.getD_some] at hmembers
    refine ⟨hsome hget, hmembers.nodup_iff.mpr ((filter_sublist.map _).nodup hnodup), ?_⟩
    intro member hmember
    obtain ⟨node, hfound, rfl⟩ := mem_map.mp (hmembers.mem_iff.mp hmember)
    obtain ⟨hmem, hname⟩ := mem_filter.mp hfound
    rw [hnode node hmem]
    exact congrArg some (of_decide_eq_true hname)
  · have hget := (get?_eq_some_iff _).mpr hunit
    have hmem : unit.1 ∈ compiled.units.keys := hkeys ▸ (exists_get?_iff _).mp ⟨_, hget⟩
    rw [OrderedDict.keys, hlaid.units, map_map] at hmem
    obtain ⟨node, hfound, hid⟩ := mem_map.mp hmem
    change graph.unitId digest config node.nodeId = unit.1 at hid
    rw [← hid, hnode node hfound] at hget
    have hlisted : unit.1 ∈ (compiled.groups.get? groupId).getD [] := by
      refine (hlaid.groups groupId).mem_iff.mpr
        (mem_map.mpr ⟨node, mem_filter.mpr ⟨hfound, ?_⟩, hid⟩)
      rw [← Option.some.inj hget] at hnamed
      exact decide_eq_true hnamed
    exact exists_of_mem_getD hlisted

/-! ### Other orders -/

/-- Two lists of the same elements, or twice the same value. -/
def Rearranged (first second : Option Json) : Prop :=
  first = second ∨ ∃ elements others,
    first = some (.arr elements) ∧ second = some (.arr others) ∧ elements.Perm others

/-- The graphs differ in the order of their nodes and of their edges at most. -/
structure Shuffled (first second : Json) : Prop where
  others : ∀ key, key ≠ "nodes" → key ≠ "requires_edges" → first.get? key = second.get? key
  nodes : Rearranged (first.get? "nodes") (second.get? "nodes")
  edges : Rearranged (first.get? "requires_edges") (second.get? "requires_edges")

theorem Rearranged.symm {first second : Option Json} (hsame : Rearranged first second) :
    Rearranged second first := by
  rcases hsame with rfl | ⟨elements, others, rfl, rfl, hperm⟩
  · exact .inl rfl
  · exact .inr ⟨others, elements, rfl, rfl, hperm.symm⟩

variable {first second : Json}

theorem Shuffled.symm (hshuffled : Shuffled first second) : Shuffled second first :=
  ⟨fun key hnodes hedges ↦ (hshuffled.others key hnodes hedges).symm, hshuffled.nodes.symm,
    hshuffled.edges.symm⟩

theorem perm_elements_of_rearranged
    (hsame : Rearranged (first.get? "nodes") (second.get? "nodes")) :
    (first.item "nodes").elements.Perm (second.item "nodes").elements := by
  unfold Json.item Json.getD
  rcases hsame with heq | ⟨elements, others, hfirst, hsecond, hperm⟩
  · rw [heq]
  · rw [hfirst, hsecond]
    exact hperm

theorem iterate_of_rearranged {first second : Option Json} {values : List Json}
    (hsame : Rearranged first second) (hvalues : (first.getD (.arr [])).iterate = .ok values) :
    ∃ others, (second.getD (.arr [])).iterate = .ok others ∧ values.Perm others := by
  rcases hsame with rfl | ⟨elements, others, rfl, rfl, hperm⟩
  · exact ⟨values, hvalues, .refl _⟩
  · cases hvalues
    exact ⟨others, rfl, hperm⟩

theorem Declares.nodeKey_eq {node : SealedNode} (hnode : Declares value node) :
    nodeKey value = node.nodeId := by
  rw [nodeKey, hnode.nodeId, Json.pyStr]

theorem map_nodeKey {values : List Json} {nodes : List SealedNode}
    (hnodes : List.Forall₂ Declares values nodes) :
    values.map nodeKey = nodes.map SealedNode.nodeId := by
  induction hnodes with
  | nil => rfl
  | cons hnode _ ih => rw [map_cons, map_cons, hnode.nodeKey_eq, ih]

theorem compileWorkflow_of_shuffled {workflow : CompiledWorkflow}
    (hshuffled : Shuffled first second) (hok : compileWorkflow digest first config = .ok workflow) :
    compileWorkflow digest second config = .ok workflow := by
  obtain ⟨graph, hpresents, hnodup, hloops, levels, hlevels, rfl⟩ :=
    compileWorkflow_eq_ok_iff.mp hok
  have hitem : ∀ key, key ≠ "nodes" → key ≠ "requires_edges" → first.item key = second.item key :=
    fun key hnodes hedges ↦
      congrArg (fun value ↦ value.getD Json.null) (hshuffled.others key hnodes hedges)
  have hnodes : sortedBy nodeKey (first.item "nodes").elements =
      sortedBy nodeKey (second.item "nodes").elements := by
    refine sortedBy_of_perm ?_ (perm_elements_of_rearranged hshuffled.nodes)
    refine ((perm_sortedBy nodeKey _).map nodeKey).nodup_iff.mp ?_
    rw [map_nodeKey hpresents.nodes]
    exact graph.nodes_distinct
  obtain ⟨values, hvalues, hperm⟩ := iterate_of_rearranged hshuffled.edges hpresents.edges
  obtain ⟨edges, hvalue, hedges⟩ :=
    (congrFun (congrFun (eq_map_comp_perm edgeValue) values) graph.edges).mpr hperm.symm
  let other : SealedGraph := { graph with
    edges := edges
    edges_join := fun edge hedge ↦ graph.edges_join edge (hedges.mem_iff.mp hedge)
    edges_distinct := hedges.nodup_iff.mpr graph.edges_distinct
    acyclic := fun node hcycle ↦ graph.acyclic node
      (Relation.TransGen.mono (fun _ _ hedge ↦ hedges.mem_iff.mp hedge) node node hcycle) }
  have hunits : other.unitEdges digest config = graph.unitEdges digest config := by
    refine sortedBy_of_perm (.map toLex.injective ?_) (hedges.map _)
    exact (hedges.map _).nodup_iff.mpr (SealedGraph.nodup_unitEdges_iff.mp hnodup)
  refine compileWorkflow_eq_ok_iff.mpr ⟨other, ⟨?_, ?_, hnodes ▸ hpresents.nodes, hvalue ▸ hvalues⟩,
    hunits ▸ hnodup, hunits ▸ hloops, levels, ?_, ?_⟩
  · exact (hitem "plan_artifact_id" (by decide) (by decide)).symm.trans hpresents.planId
  · exact (hitem "plan_version" (by decide) (by decide)).symm.trans hpresents.planVersion
  · rw [← hlevels, SealedGraph.arranged, hunits]
    rfl
  · unfold SealedGraph.workflow
    rw [hunits]
    rfl

/-- The shape of a sealed graph: its nodes are dicts, and its edges a list of values whose elements
can be looked up. -/
structure Shaped (value : Json) : Prop where
  nodes : ∀ node ∈ (value.item "nodes").elements, node.fields?.isSome = true
  edges : ∃ edges, value.getD "requires_edges" (.arr []) = .arr edges ∧
    ∀ edge ∈ edges, ∀ last ∈ edge.elements, last.hashable = true

theorem Shaped.shuffled (hshaped : Shaped first)
    (hshuffled : Shuffled first second) : Shaped second := by
  obtain ⟨hnodes, edges, hedges, hhashable⟩ := hshaped
  refine ⟨fun node hnode ↦
    hnodes node ((perm_elements_of_rearranged hshuffled.nodes).mem_iff.mpr hnode), ?_⟩
  unfold Json.getD at hedges ⊢
  rcases hshuffled.edges with heq | ⟨elements, others, hfirst, hsecond, hperm⟩
  · exact ⟨edges, heq ▸ hedges, hhashable⟩
  · rw [hfirst] at hedges
    cases hedges
    exact ⟨others, by rw [hsecond]; rfl, fun edge hedge ↦ hhashable edge (hperm.mem_iff.mpr hedge)⟩

/-- No exception but a rejection ends the computation. -/
def Settled {Result : Type} (outcome : Except CompileError Result) : Prop :=
  ∀ error, outcome ≠ .error (.raised error)

theorem Settled.bind {First Second : Type} {outcome : Except CompileError First}
    {next : First → Except CompileError Second} (houtcome : Settled outcome)
    (hnext : ∀ value, outcome = .ok value → Settled (next value)) : Settled (outcome >>= next) := by
  cases outcome with
  | error refusal =>
    intro error hraised
    cases hraised
    exact houtcome error rfl
  | ok value => exact hnext value rfl

theorem Settled.foldlM {State Item : Type} {step : State → Item → Except CompileError State}
    {items : List Item} (hstep : ∀ item ∈ items, ∀ state, Settled (step state item))
    (state : State) : Settled (items.foldlM step state) := by
  induction items generalizing state with
  | nil => exact fun error hraised ↦ (by cases hraised)
  | cons item rest ih =>
    exact (hstep item mem_cons_self state).bind fun next _ ↦
      ih (fun other hother ↦ hstep other (mem_cons_of_mem _ hother)) next

theorem settled_compileNode {workflowId : String} {compiled : CompiledNodes}
    (hdict : value.fields?.isSome = true) :
    Settled (compileNode digest workflowId compiled value) := by
  have hgroup : ∀ nodeId fields, Settled (readUnitGroup nodeId fields) := by
    intro nodeId fields error hraised
    unfold readUnitGroup at hraised
    repeat' split at hraised
    all_goals cases hraised
  have hunit : ∀ fields, Settled (readUnit digest workflowId compiled.byNode fields) := by
    intro fields error hraised
    unfold readUnit at hraised
    simp only at hraised
    repeat' split at hraised
    all_goals try cases hraised
    next hraised => exact hgroup _ _ _ hraised
  cases value with
  | obj fields =>
    intro error hraised
    unfold compileNode at hraised
    simp only at hraised
    split at hraised
    · next hread =>
      cases hraised
      exact hunit fields error hread
    · cases hraised
  | _ => cases hdict

theorem settled_compileEdge {byNode : OrderedDict String String} {seen : List (String × String)}
    (hhashable : ∀ last ∈ value.elements, last.hashable = true) :
    Settled (compileEdge byNode seen value) := by
  have hlookup : ∀ last error, last.hashable = true → unitOfNode byNode last ≠ .error error := by
    intro last error hlast
    cases last <;> simp_all [unitOfNode]
  intro error hraised
  unfold compileEdge at hraised
  split at hraised
  · next producer consumer =>
    split at hraised
    · next hproducer => exact hlookup _ _ (hhashable producer (by simp [Json.elements])) hproducer
    · cases hraised
    · split at hraised
      · next hconsumer => exact hlookup _ _ (hhashable consumer (by simp [Json.elements])) hconsumer
      · cases hraised
      · split at hraised <;> cases hraised
  · cases hraised

theorem settled_compileWorkflow (hshaped : Shaped value) :
    Settled (compileWorkflow digest value config) := by
  obtain ⟨hnodes, edges, hedges, hhashable⟩ := hshaped
  unfold compileWorkflow
  cases value with
  | obj fields =>
    simp only
    split
    · next planId version hid hversion =>
      split
      · exact fun error hraised ↦ (by cases hraised)
      · refine Settled.bind ?_ fun nodes hlisted ↦ Settled.bind (Settled.foldlM ?_ _)
          fun compiled _ ↦ Settled.bind ?_ fun required hrequired ↦
            Settled.bind (Settled.foldlM ?_ _) fun pairs _ ↦ ?_
        · intro error hraised
          unfold graphNodes at hraised
          split at hraised
          · next first rest hlist =>
            split at hraised
            · next hany =>
              obtain ⟨node, hnode, hnone⟩ := any_eq_true.mp hany
              rw [(item_eq_iff (by simp)).mpr hlist] at hnodes
              have hsome := hnodes node hnode
              rw [Option.isNone_iff_eq_none.mp hnone] at hsome
              cases hsome
            · cases hraised
          · cases hraised
        · obtain ⟨values, hvalues, -, hdicts, rfl⟩ := graphNodes_eq_ok_iff.mp hlisted
          exact fun node hnode _ ↦ settled_compileNode (hdicts node (mem_sortedBy.mp hnode))
        · intro error hraised
          change ((OrderedDict.find "requires_edges" fields).getD (.arr [])) = _ at hedges
          rw [graphEdges, hedges] at hraised
          cases hraised
        · rw [graphEdges_eq_ok_iff, hedges] at hrequired
          cases hrequired
          exact fun edge hedge _ ↦ settled_compileEdge (hhashable edge hedge)
        · intro error hraised
          split at hraised <;> cases hraised
    · exact fun error hraised ↦ (by cases hraised)
  | _ => exact fun error hraised ↦ (by cases hraised)

/-- Assumes: the graphs differ in the order of their nodes and edges at most. They compile to the
same workflow, or neither compiles; and a graph of the shape of a sealed graph is then rejected in
either order. -/
theorem compiles_alike {first second : Json} (hshuffled : Shuffled first second) :
    (∃ workflow, compileWorkflow digest first config = .ok workflow ∧
      compileWorkflow digest second config = .ok workflow) ∨
    ∃ refusal refusal', compileWorkflow digest first config = .error refusal ∧
      compileWorkflow digest second config = .error refusal' ∧
      (Shaped first → ∃ message message', refusal = .rejected message ∧
        refusal' = .rejected message') := by
  cases hfirst : compileWorkflow digest first config with
  | ok workflow => exact .inl ⟨workflow, rfl, compileWorkflow_of_shuffled hshuffled hfirst⟩
  | error refusal =>
    cases hsecond : compileWorkflow digest second config with
    | ok workflow =>
      rw [compileWorkflow_of_shuffled hshuffled.symm hsecond] at hfirst
      cases hfirst
    | error refusal' =>
      refine .inr ⟨refusal, refusal', rfl, rfl, fun hshaped ↦ ?_⟩
      cases refusal with
      | raised error => exact absurd hfirst (settled_compileWorkflow hshaped error)
      | rejected message =>
        cases refusal' with
        | raised error =>
          exact absurd hsecond (settled_compileWorkflow (hshaped.shuffled hshuffled) error)
        | rejected message' => exact ⟨message, message', rfl, rfl⟩

end Whole

/-- Two nodes listed in some order, the second behind the first. -/
def twoNodeGraph (first second : String) : Json :=
  .obj [("plan_artifact_id", .str "p"), ("plan_version", .int 1),
    ("nodes", .arr ([first, second].map fun id ↦ .obj [("node_id", .str id),
      ("capability_id", .str "cap.read"), ("priority_band", .str "REQUIRED")])),
    ("requires_edges", .arr [edgeValue ("n1", "n2")])]

/-- A digest that tells the unit of the second node from all else. -/
def tellBehind (text : String) : String := if text = "wf-1:n2" then "2" else "1"

theorem unitsApart_twoNodeGraph {graph : SealedGraph}
    (hpresents : Presents (twoNodeGraph "n2" "n1") graph) : graph.UnitsApart tellBehind 1 := by
  have hids : graph.nodes.map SealedNode.nodeId = ["n1", "n2"] := by
    rw [← map_nodeKey hpresents.nodes]
    decide
  have hplan : graph.planId = "p" := (Json.str.inj hpresents.planId).symm
  have hversion : graph.version = 1 := by
    have hsome := hpresents.planVersion ▸ graph.version_eq
    exact (Option.some.inj hsome).symm
  rw [SealedGraph.UnitsApart, hids]
  unfold SealedGraph.unitId SealedGraph.workflowId
  rw [hplan, hversion]
  decide +kernel

theorem exists_workflow_twoNodeGraph :
    ∃ workflow, compileWorkflow tellBehind (twoNodeGraph "n2" "n1") 1 = .ok workflow := by
  have hok : (compileWorkflow tellBehind (twoNodeGraph "n2" "n1") 1).isOk = true := by
    decide +kernel
  cases hcompiled : compileWorkflow tellBehind (twoNodeGraph "n2" "n1") 1 with
  | error refusal =>
    rw [hcompiled] at hok
    cases hok
  | ok workflow => exact ⟨workflow, rfl⟩

theorem compiles_twoNodeGraph : ∃ workflow graph,
    compileWorkflow tellBehind (twoNodeGraph "n2" "n1") 1 = .ok workflow ∧
      Presents (twoNodeGraph "n2" "n1") graph ∧ LaidOut tellBehind 1 graph workflow := by
  obtain ⟨workflow, hok⟩ := exists_workflow_twoNodeGraph
  obtain ⟨graph, hgraph⟩ :=
    (compiles_iff_presents fun graph ↦ unitsApart_twoNodeGraph).2 workflow hok
  exact ⟨workflow, graph, hok, hgraph⟩

/-- The nodes in either order compile to the same workflow. -/
theorem compiles_alike_twoNodeGraph : ∃ workflow,
    compileWorkflow tellBehind (twoNodeGraph "n1" "n2") 1 = .ok workflow ∧
      compileWorkflow tellBehind (twoNodeGraph "n2" "n1") 1 = .ok workflow := by
  have hshuffled : Shuffled (twoNodeGraph "n2" "n1") (twoNodeGraph "n1" "n2") := by
    refine ⟨fun key hnodes hedges ↦ ?_, .inr ⟨_, _, rfl, rfl, .swap _ _ _⟩, .inl rfl⟩
    simp [twoNodeGraph, Json.get?, find_cons, hnodes.symm, hedges.symm]
  obtain ⟨workflow, hok⟩ := exists_workflow_twoNodeGraph
  rcases @compiles_alike tellBehind 1 _ _ hshuffled with ⟨other, hfirst, hsecond⟩ | hneither
  · exact ⟨other, hsecond, hfirst⟩
  · obtain ⟨refusal, refusal', herror, -⟩ := hneither
    cases hok.symm.trans herror

end AbsoluteZero.Scheduler

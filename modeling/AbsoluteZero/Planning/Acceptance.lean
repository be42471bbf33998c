import AbsoluteZero.Planning.PlanArtifact
import AbsoluteZero.Scheduler.Compiling

/-!
# Plans that the scheduler accepts

The planner builds an artifact from plain values and checks them; the scheduler compiles its
projection and checks the same values again. An artifact without cycles is compiled to a workflow
that carries it exactly when it requires no edge twice, which only the scheduler rejects, and every
group it lists is declared by its nodes, from which alone the projection takes the groups
(`compiles_iff`).
-/

namespace AbsoluteZero.Planning

open Foundations Scheduler Checked List

theorem id_of_readNode {field : String × Json} {named : NamedNode}
    (hread : readNode field = .ok named) : named.id = field.1 := by
  unfold readNode at hread
  simp only at hread
  split at hread
  · cases hread
  · split at hread
    · split at hread
      · cases hread
      · split at hread
        · cases hread
        · split at hread
          · cases hread
          · split at hread
            · cases hread
            · split at hread
              · cases hread
              · obtain ⟨constraints, -, hread⟩ := bind_eq_ok_iff.mp hread
                obtain ⟨group, -, hread⟩ := bind_eq_ok_iff.mp hread
                cases hread
                rfl
    · cases hread

theorem readNodes_ok {nodes : Option (OrderedDict String Json)} {named : List NamedNode}
    (hread : readNodes nodes = .ok named) : named ≠ [] ∧ (named.map NamedNode.id).Nodup := by
  cases nodes with
  | none => cases hread
  | some nodes =>
    unfold readNodes at hread
    obtain ⟨hsome, hread⟩ := Checked.unless_eq_ok_iff.mp hread
    have hids := map_eq_of_mapM (fun field named ↦ id_of_readNode) hread
    have hperm := (perm_sortedBy Prod.fst nodes.items).map Prod.fst
    refine ⟨fun hempty ↦ hsome ?_, ?_⟩
    · subst hempty
      exact sortedBy_eq_nil.mp (map_eq_nil_iff.mp hids.symm)
    · rw [hids]
      exact hperm.nodup_iff.mpr nodes.nodup

theorem mem_of_isNode {ids : List String} {value : Json} {id : String}
    (hnode : isNode ids value = .ok (some id)) : id ∈ ids := by
  unfold isNode at hnode
  split at hnode
  · split at hnode
    · next hmem =>
      cases hnode
      exact hmem
    · cases hnode
  · split at hnode <;> cases hnode

theorem mem_of_readEdge {ids : List String} {value : Json} {edge : PlanEdge}
    (hread : readEdge ids value = .ok edge) : edge.2.1 ∈ ids ∧ edge.2.2 ∈ ids := by
  unfold readEdge at hread
  split at hread
  · split at hread
    · cases hread
    · split at hread
      · cases hread
      · cases hread
      · next hsource =>
        split at hread
        · cases hread
        · cases hread
        · next htarget =>
          cases hread
          exact ⟨mem_of_isNode hsource, mem_of_isNode htarget⟩
  · cases hread

theorem mem_of_readGroups {ids : List String} {value : Json} {groups : List (String × List String)}
    (hread : readGroups ids value = .ok groups) {group : String × List String}
    (hgroup : group ∈ groups) : group.2 ⊆ ids := by
  unfold readGroups at hread
  split at hread
  · cases hread
    cases hgroup
  · split at hread
    · next fields =>
      obtain ⟨field, -, hfield⟩ := exists_of_mem_mapM hread hgroup
      unfold readGroupMembers at hfield
      split at hfield
      · cases hfield
      · next values _ =>
        obtain ⟨members, hmembers, hfield⟩ := bind_eq_ok_iff.mp hfield
        cases hfield
        intro id hid
        obtain ⟨value, -, hmember⟩ := exists_of_mem_mapM hmembers (mem_sortedBy.mp hid)
        unfold readMember at hmember
        split at hmember
        · cases hmember
        · cases hmember
        · next hnode =>
          cases hmember
          exact mem_of_isNode hnode
    · cases hread

theorem buildArtifact_ok {digest : String → String} {input : ArtifactInput}
    {artifact : PlanArtifact} (hbuilt : buildArtifact digest input = .ok artifact) :
    artifact.nodes ≠ [] ∧ (artifact.nodes.map NamedNode.id).Nodup ∧ artifact.planId ≠ "" ∧
      (∀ edge ∈ artifact.edges, edge.2.1 ∈ artifact.nodes.map NamedNode.id ∧
        edge.2.2 ∈ artifact.nodes.map NamedNode.id) ∧
      ∀ group ∈ artifact.groups, group.2 ⊆ artifact.nodes.map NamedNode.id := by
  obtain ⟨determinism, -, hbuilt⟩ := bind_eq_ok_iff.mp hbuilt
  obtain ⟨nodes, hnodes, hbuilt⟩ := bind_eq_ok_iff.mp hbuilt
  obtain ⟨listed, -, hbuilt⟩ := bind_eq_ok_iff.mp hbuilt
  obtain ⟨edges, hedges, hbuilt⟩ := bind_eq_ok_iff.mp hbuilt
  obtain ⟨groups, hgroups, hbuilt⟩ := bind_eq_ok_iff.mp hbuilt
  obtain ⟨listedGaps, -, hbuilt⟩ := bind_eq_ok_iff.mp hbuilt
  obtain ⟨gaps, -, hbuilt⟩ := bind_eq_ok_iff.mp hbuilt
  split at hbuilt
  · cases hbuilt
  · cases hbuilt
    refine ⟨(readNodes_ok hnodes).1, (readNodes_ok hnodes).2, ?_, fun edge hedge ↦ ?_,
      fun group ↦ mem_of_readGroups hgroups⟩
    · intro hempty
      have hchars := congrArg String.toList hempty
      simp at hchars
    · obtain ⟨value, -, hread⟩ :=
        exists_of_mem_mapM hedges (mem_sortedBy.mp hedge)
      exact mem_of_readEdge hread

theorem mem_requires_iff {artifact : PlanArtifact} {edge : String × String} :
    edge ∈ artifact.requires ↔ (EdgeType.requires, edge) ∈ artifact.edges := by
  constructor
  · intro hedge
    obtain ⟨⟨kind, other⟩, hmem, rfl⟩ := mem_map.mp hedge
    obtain ⟨hmem, hkind⟩ := mem_filter.mp hmem
    rw [← of_decide_eq_true hkind]
    exact hmem
  · exact fun hedge ↦ mem_map.mpr ⟨_, mem_filter.mpr ⟨hedge, decide_eq_true rfl⟩, rfl⟩

def unitOf (digest : String → String) (workflowId : String) (named : NamedNode) : CompiledUnit :=
  ⟨unitIdOf digest workflowId named.id, named.id, named.node.capabilityId,
    named.node.priorityBand, true, named.node.group⟩

/-- The nodes that declare a group. -/
def PlanArtifact.declaring (artifact : PlanArtifact) (groupId : String) : List String :=
  (artifact.nodes.filter fun named ↦ named.node.group.map Prod.fst = some groupId).map NamedNode.id

/-- A group that the plan lists has the nodes that declare it. -/
def PlanArtifact.GroupsDeclared (artifact : PlanArtifact) : Prop :=
  ∀ group ∈ artifact.groups, group.2.Perm (artifact.declaring group.1)

instance (artifact : PlanArtifact) : Decidable artifact.GroupsDeclared :=
  inferInstanceAs (Decidable (∀ _ ∈ _, _))

/-- The workflow carries the artifact: one unit for each node with its capability, band and branch
group, one dependency for each distinct edge that the plan requires, and in each group the units of
the nodes that declare it, which are those that the plan lists for it. -/
structure Carries (digest : String → String) (artifact : PlanArtifact)
    (workflow : CompiledWorkflow) : Prop where
  units : workflow.units.values.Perm
    (artifact.nodes.map (unitOf digest workflow.workflowId))
  keys : ∀ id unit, workflow.units.get? id = some unit → unit.unitId = id
  edges : workflow.edges.Perm (artifact.requires.dedup.map
    (Prod.map (unitIdOf digest workflow.workflowId) (unitIdOf digest workflow.workflowId)))
  groups : ∀ groupId, ((workflow.groups.get? groupId).getD []).Perm
    ((artifact.declaring groupId).map (unitIdOf digest workflow.workflowId))
  listed : ∀ group ∈ artifact.groups, ((workflow.groups.get? group.1).getD []).Perm
    (group.2.map (unitIdOf digest workflow.workflowId))
  ranked : ∀ groupId members, workflow.groups.get? groupId = some members →
    members.Pairwise fun first second ↦
      (((workflow.units.get? first).bind CompiledUnit.group).map Prod.snd).getD 0 ≤
        (((workflow.units.get? second).bind CompiledUnit.group).map Prod.snd).getD 0
  order : workflow.canonicalOrder.Perm workflow.units.keys ∧ ∀ edge ∈ workflow.edges,
    workflow.canonicalOrder.idxOf edge.1 < workflow.canonicalOrder.idxOf edge.2

section Whole

variable {digest : String → String} {artifact : PlanArtifact} {config : Int}

def nodeUnit (digest : String → String) (artifact : PlanArtifact) (config : Int) (id : String) :
    String :=
  unitIdOf digest (workflowIdOf digest artifact.planId artifact.planVersion config) id

def UnitsDistinct (digest : String → String) (artifact : PlanArtifact) (config : Int) : Prop :=
  (artifact.nodes.map fun named ↦ nodeUnit digest artifact config named.id).Nodup

instance (digest : String → String) (artifact : PlanArtifact) (config : Int) :
    Decidable (UnitsDistinct digest artifact config) :=
  inferInstanceAs (Decidable (List.Nodup _))

def sealedOf (named : NamedNode) : SealedNode :=
  ⟨named.id, named.node.capabilityId, named.node.priorityBand, named.node.group, named.id_nonempty,
    named.node.capability_nonempty⟩

theorem declares_sealedNode (named : NamedNode) :
    Declares (PlanArtifact.sealedNode named) (sealedOf named) := by
  refine ⟨rfl, rfl, rfl, fun field hfield ↦ ?_, ?_⟩
  · have hkeys : ∀ key ∈ ["node_id", "capability_id", "priority_band", "group_id", "rank"],
        bindsEarly key = false := by decide
    refine hkeys field.1 ?_
    change field ∈ _ ++ groupFields named.node.group at hfield
    cases hgroup : named.node.group <;> rw [hgroup] at hfield <;>
      simp only [groupFields, mem_append, mem_cons, not_mem_nil, or_false] at hfield
    · rcases hfield with rfl | rfl | rfl <;> simp
    · rcases hfield with (rfl | rfl | rfl) | rfl | rfl <;> simp
  · change DeclaresGroup (.obj (_ ++ groupFields named.node.group)) named.node.group
    cases named.node.group with
    | none => rfl
    | some group => exact ⟨Json.noConfusion, rfl, rfl⟩

def sealedGraphOf (artifact : PlanArtifact) (hplan : artifact.planId ≠ "")
    (hsome : artifact.nodes ≠ []) (hids : (artifact.nodes.map NamedNode.id).Nodup)
    (hjoin : ∀ edge ∈ artifact.requires, edge.1 ∈ artifact.nodes.map NamedNode.id ∧
      edge.2 ∈ artifact.nodes.map NamedNode.id)
    (hnodup : artifact.requires.Nodup) (hacyclic : DepthFirst.Acyclic artifact.requires) :
    SealedGraph where
  planId := artifact.planId
  planVersion := .int artifact.planVersion
  version := artifact.planVersion
  nodes := (sortedBy NamedNode.id artifact.nodes).map sealedOf
  edges := artifact.requires
  planId_nonempty := hplan
  version_eq := rfl
  nodes_nonempty := by
    rw [ne_eq, List.map_eq_nil_iff, sortedBy_eq_nil]
    exact hsome
  nodes_distinct := by
    rw [List.map_map]
    exact ((perm_sortedBy _ _).map _).nodup_iff.mpr hids
  edges_join := fun edge hedge ↦ by
    rw [List.map_map, ((perm_sortedBy _ _).map _).mem_iff, ((perm_sortedBy _ _).map _).mem_iff]
    exact hjoin edge hedge
  edges_distinct := hnodup
  acyclic := hacyclic

theorem carries_of_laidOut {graph : SealedGraph} {workflow : CompiledWorkflow}
    (hnodes : graph.nodes = (sortedBy NamedNode.id artifact.nodes).map sealedOf)
    (hedges : graph.edges = artifact.requires) (hlaid : LaidOut digest config graph workflow)
    (hdeclared : artifact.GroupsDeclared) : Carries digest artifact workflow := by
  have hperm := perm_sortedBy NamedNode.id artifact.nodes
  have hunit : graph.unitId digest config = unitIdOf digest workflow.workflowId :=
    congrArg (unitIdOf digest) hlaid.workflowId.symm
  have hitems := hlaid.units
  rw [hnodes, map_map, hunit, ← hlaid.workflowId] at hitems
  have hgroups : ∀ groupId, ((workflow.groups.get? groupId).getD []).Perm
      ((artifact.declaring groupId).map (unitIdOf digest workflow.workflowId)) := by
    intro groupId
    refine (hlaid.groups groupId).trans ?_
    rw [hnodes, filter_map, map_map, hunit, PlanArtifact.declaring, map_map]
    exact (hperm.filter _).map _
  refine ⟨?_, fun id unit hget ↦ ?_, ?_, hgroups,
    fun group hgroup ↦ (hgroups group.1).trans ((hdeclared group hgroup).symm.map _),
    fun groupId members hget ↦ ?_, hlaid.order⟩
  · rw [OrderedDict.values, hitems, map_map]
    exact hperm.map _
  · have hitem := (OrderedDict.get?_eq_some_iff _).mp hget
    rw [hitems] at hitem
    obtain ⟨named, -, heq⟩ := mem_map.mp hitem
    cases heq
    rfl
  · rw [dedup_eq_self.mpr (hedges ▸ graph.edges_distinct), ← hedges, ← hunit]
    exact hlaid.edges
  · exact (hlaid.ranked groupId members hget).imp fun hle ↦ Prod.Lex.monotone_fst _ _ hle

theorem UnitsDistinct.injOn (hdistinct : UnitsDistinct digest artifact config) :
    Set.InjOn (nodeUnit digest artifact config) {id | id ∈ artifact.nodes.map NamedNode.id} := by
  intro first hfirst second hsecond heq
  rw [UnitsDistinct, ← Function.comp_def, ← map_map] at hdistinct
  exact inj_on_of_nodup_map hdistinct hfirst hsecond heq

/-- Where the units are distinct, the units of some nodes determine the nodes. -/
theorem UnitsDistinct.perm (hdistinct : UnitsDistinct digest artifact config)
    {first second : List String} (hfirst : first ⊆ artifact.nodes.map NamedNode.id)
    (hsecond : second ⊆ artifact.nodes.map NamedNode.id)
    (hperm : (first.map (nodeUnit digest artifact config)).Perm
      (second.map (nodeUnit digest artifact config))) : first.Perm second := by
  have hback : ∀ ids ⊆ artifact.nodes.map NamedNode.id,
      (ids.map (nodeUnit digest artifact config)).map
        (Function.invFunOn (nodeUnit digest artifact config)
          {id | id ∈ artifact.nodes.map NamedNode.id}) = ids := by
    intro ids hids
    rw [map_map]
    exact map_congr_left (fun id hid ↦ hdistinct.injOn.leftInvOn_invFunOn (hids hid)) |>.trans
      (map_id _)
  rw [← hback first hfirst, ← hback second hsecond]
  exact hperm.map _

theorem declaring_subset (groupId : String) :
    artifact.declaring groupId ⊆ artifact.nodes.map NamedNode.id :=
  map_subset _ (filter_subset_self _)

end Whole

/-- A required node of the plan. -/
def plainNode (capabilityId : String) (group : List (String × Json)) : Json :=
  .obj ([("capability_id", .str capabilityId), ("origin", .str "explicit"),
    ("priority_band", .str "REQUIRED"), ("confidence", .int 1)] ++ group)

/-- Two nodes, the second behind the first and in a group, with the edge between them listed some
times. -/
def twoNodes (listed : Nat) : ArtifactInput where
  determinism := .obj (tupleKeys.map fun key ↦ (key, .int 1))
  nodes := some (OrderedDict.empty.insert "n1" (plainNode "cap.read" []) |>.insert "n2"
    (plainNode "cap.build" [("group_id", .str "g"), ("rank", .int 0)]))
  edges := .arr (List.replicate listed (.arr [.str "requires", .str "n1", .str "n2"]))
  groups := .obj [("g", .arr [.str "n2"])]
  gaps := .arr []
  confidence := .int 1
  predecessor := none

/-- A digest that tells the unit of the second node from all else. -/
def tellSecond (text : String) : String := if text = "wf-1:n2" then "2" else "1"

/-- The two nodes make an acyclic graph, however often the edge is listed. -/
theorem acyclic_of_mem_pair {edges : List (String × String)}
    (hedges : ∀ edge ∈ edges, edge = ("n1", "n2")) : DepthFirst.Acyclic edges := by
  have hpair : DepthFirst.Acyclic [("n1", "n2")] :=
    (DepthFirst.hasCycle_eq_false_iff _).mp (by decide)
  refine fun node hcycle ↦ hpair node (Relation.TransGen.mono ?_ node node hcycle)
  exact fun _ _ hedge ↦ mem_singleton.mpr (hedges _ hedge)

/-- What the planner and the scheduler make of the two nodes: the edges, whether the units are
distinct and the groups declared, and whether the projection compiles. -/
def runTwoNodes (listed : Nat) : Option (List (String × String) × Bool × Bool) :=
  (buildArtifact tellSecond (twoNodes listed)).toOption.map fun artifact ↦
    (artifact.requires, decide (UnitsDistinct tellSecond artifact 1 ∧ artifact.GroupsDeclared),
      (compileWorkflow tellSecond artifact.toSealedGraph 1).toOption.isSome)

theorem exists_of_runTwoNodes {listed : Nat} {edges : List (String × String)} {compiled : Bool}
    (hrun : runTwoNodes listed = some (edges, true, compiled)) :
    ∃ artifact, buildArtifact tellSecond (twoNodes listed) = .ok artifact ∧
      artifact.requires = edges ∧
      (UnitsDistinct tellSecond artifact 1 ∧ artifact.GroupsDeclared) ∧
      (compileWorkflow tellSecond artifact.toSealedGraph 1).toOption.isSome = compiled := by
  obtain ⟨artifact, hbuilt, hseen⟩ := Checked.exists_of_toOption_map hrun
  obtain ⟨hrequires, hrest⟩ := Prod.ext_iff.mp hseen
  obtain ⟨hdistinct, hcompiled⟩ := Prod.ext_iff.mp hrest
  exact ⟨artifact, hbuilt, hrequires, of_decide_eq_true hdistinct, hcompiled⟩

theorem runTwoNodes_once : runTwoNodes 1 = some ([("n1", "n2")], true, true) := by
  decide +kernel

theorem runTwoNodes_twice : runTwoNodes 2 = some ([("n1", "n2"), ("n1", "n2")], true, false) := by
  decide +kernel

end AbsoluteZero.Planning

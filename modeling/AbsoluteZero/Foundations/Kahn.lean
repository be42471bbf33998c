import AbsoluteZero.Foundations.DepthFirst
import AbsoluteZero.Foundations.SortedSet
import Mathlib.Data.Fintype.EquivFin
import Mathlib.Order.WellFounded

/-!
# Levels of a directed graph

The nodes that wait for no remaining node make the next level, sorted, and are taken out of what the
others wait for. Over an acyclic graph the algorithm ends and every edge leads to a later place
(`exists_levels`); the level of a node is the length of the longest path that ends in it
(`depth_of_levels`).
-/

namespace AbsoluteZero.Foundations

namespace Kahn

open DepthFirst List

variable {Node : Type} [LinearOrder Node]

def producers (edges : List (Node × Node)) (node : Node) : List Node :=
  (edges.filter fun edge ↦ edge.2 = node).map Prod.fst

def incoming (nodes : List Node) (edges : List (Node × Node)) : List (Node × List Node) :=
  nodes.map fun node ↦ (node, producers edges node)

/-- The nodes that wait for nothing, sorted. -/
def frontier (remaining : List (Node × List Node)) : List Node :=
  sortedBy id ((remaining.filter fun entry ↦ entry.2 = []).map Prod.fst)

/-- What remains once the nodes of a level are done. -/
def advance (remaining : List (Node × List Node)) (level : List Node) : List (Node × List Node) :=
  (remaining.filter fun entry ↦ entry.1 ∉ level).map fun entry ↦
    (entry.1, entry.2.filter fun node ↦ node ∉ level)

/-- The levels, or none when all that remain wait. The number bounds the levels. -/
def levels : Nat → List (Node × List Node) → Option (List (List Node))
  | _, [] => some []
  | 0, _ :: _ => none
  | room + 1, entry :: rest =>
    let level := frontier (entry :: rest)
    if level = [] then none
    else (levels room (advance (entry :: rest) level)).map fun later ↦ level :: later

variable {edges : List (Node × Node)} {rest : List Node} {node : Node}

omit [LinearOrder Node] in
theorem mem_producers_iff [DecidableEq Node] {source : Node} :
    source ∈ (edges.filter fun edge ↦ edge.2 = node).map Prod.fst ↔ (source, node) ∈ edges := by
  constructor
  · intro hsource
    obtain ⟨⟨first, second⟩, hedge, rfl⟩ := mem_map.mp hsource
    obtain ⟨hmem, hnode⟩ := mem_filter.mp hedge
    rw [← of_decide_eq_true hnode]
    exact hmem
  · exact fun hedge ↦ mem_map.mpr ⟨_, mem_filter.mpr ⟨hedge, decide_eq_true rfl⟩, rfl⟩

/-- The nodes that remain, each with what it waits for among them. -/
def waiting (edges : List (Node × Node)) (rest : List Node) : List (Node × List Node) :=
  rest.map fun node ↦ (node, (producers edges node).filter fun source ↦ source ∈ rest)

theorem incoming_eq_waiting {nodes : List Node} (hedges : ∀ edge ∈ edges, edge.1 ∈ nodes) :
    incoming nodes edges = waiting edges nodes := by
  refine map_congr_left fun node _ ↦ Prod.ext rfl ?_
  refine (filter_eq_self.mpr fun source hsource ↦ ?_).symm
  exact decide_eq_true (hedges _ (mem_producers_iff.mp hsource))

/-- What is left when the nodes of a level are done is what the other nodes wait for. -/
theorem advance_waiting (level : List Node) : advance (waiting edges rest) level =
      waiting edges (rest.filter fun node ↦ node ∉ level) := by
  unfold advance waiting
  rw [filter_map, map_map]
  refine map_congr_left fun node _ ↦ Prod.ext rfl ?_
  change ((producers edges node).filter _).filter _ = _
  rw [filter_filter]
  refine filter_congr fun source _ ↦ ?_
  by_cases hlevel : source ∈ level <;> by_cases hrest : source ∈ rest <;> simp [hlevel, hrest]

theorem mem_frontier_iff : node ∈ frontier (waiting edges rest) ↔
    node ∈ rest ∧ ∀ source ∈ rest, (source, node) ∉ edges := by
  unfold frontier waiting
  rw [mem_sortedBy, mem_map]
  constructor
  · rintro ⟨entry, hentry, rfl⟩
    obtain ⟨hmem, hempty⟩ := mem_filter.mp hentry
    obtain ⟨node, hnode, rfl⟩ := mem_map.mp hmem
    refine ⟨hnode, fun source hsource hedge ↦ ?_⟩
    have hnone := filter_eq_nil_iff.mp (of_decide_eq_true hempty) source
      (mem_producers_iff.mpr hedge)
    exact hnone (decide_eq_true hsource)
  · rintro ⟨hnode, hfree⟩
    refine ⟨_, mem_filter.mpr ⟨mem_map.mpr ⟨node, hnode, rfl⟩, ?_⟩, rfl⟩
    refine decide_eq_true (filter_eq_nil_iff.mpr fun source hsource hmem ↦ ?_)
    exact hfree source (of_decide_eq_true hmem) (mem_producers_iff.mp hsource)

theorem nodup_frontier (hrest : rest.Nodup) : (frontier (waiting edges rest)).Nodup := by
  refine (perm_sortedBy _ _).nodup_iff.mpr ((filter_sublist.map Prod.fst).nodup ?_)
  rw [waiting, map_map]
  exact (map_id rest).symm ▸ hrest

theorem exists_mem_frontier (hacyclic : Acyclic edges) (hrest : rest ≠ []) :
    ∃ node, node ∈ frontier (waiting edges rest) := by
  obtain ⟨first, hfirst⟩ := exists_mem_of_ne_nil rest hrest
  have : Std.Irrefl fun source target : {node // node ∈ rest} ↦
      Relation.TransGen (Edge edges) source target := ⟨fun node ↦ hacyclic node⟩
  obtain ⟨least, -, hleast⟩ := (Finite.wellFounded_of_trans_of_irrefl
    fun source target : {node // node ∈ rest} ↦
      Relation.TransGen (Edge edges) source target).has_min Set.univ ⟨⟨first, hfirst⟩, trivial⟩
  refine ⟨least, mem_frontier_iff.mpr ⟨least.2, fun source hsource hedge ↦ ?_⟩⟩
  exact hleast ⟨source, hsource⟩ trivial (Relation.TransGen.single hedge)

/-- The next level and what remains behind it are all that remained. -/
theorem frontier_append_perm (hrest : rest.Nodup) : (frontier (waiting edges rest) ++
      rest.filter fun node ↦ node ∉ frontier (waiting edges rest)).Perm rest := by
  generalize hlevel : frontier (waiting edges rest) = level
  have hsplit : level.Perm (rest.filter fun node ↦ node ∈ level) := by
    refine (perm_ext_iff_of_nodup (hlevel ▸ nodup_frontier hrest)
      (hrest.filter _)).mpr fun node ↦ ?_
    rw [mem_filter, decide_eq_true_iff]
    refine ⟨fun hnode ↦ ⟨?_, hnode⟩, fun hnode ↦ hnode.2⟩
    rw [← hlevel] at hnode
    exact (mem_frontier_iff.mp hnode).1
  have hboth := filter_append_perm (fun node ↦ decide (node ∈ level)) rest
  exact (hsplit.append (List.Perm.refl _)).trans (by simpa only [decide_not] using hboth)

/-- As long as nodes remain, the next level is taken and the others wait for the rest. -/
theorem levels_waiting (room : Nat) (hrest : rest ≠ []) : levels (room + 1) (waiting edges rest) =
      if frontier (waiting edges rest) = [] then none else (levels room (waiting edges
        (rest.filter fun node ↦ node ∉ frontier (waiting edges rest)))).map
          fun later ↦ frontier (waiting edges rest) :: later := by
  rw [← advance_waiting]
  cases hwaiting : waiting edges rest with
  | nil => exact absurd (map_eq_nil_iff.mp hwaiting) hrest
  | cons entry others => rw [levels]

/-- Assumes: the graph is acyclic. The algorithm arranges the remaining nodes in levels, each node
behind those it waits for. -/
theorem exists_levels_waiting (hacyclic : Acyclic edges) (hrest : rest.Nodup) {room : Nat}
    (hroom : rest.length ≤ room) :
    ∃ arranged, levels room (waiting edges rest) = some arranged ∧ arranged.flatten.Perm rest ∧
      ∀ source target, (source, target) ∈ edges → source ∈ rest → target ∈ rest →
        arranged.flatten.idxOf source < arranged.flatten.idxOf target := by
  induction room generalizing rest with
  | zero =>
    obtain rfl := eq_nil_of_length_eq_zero (Nat.le_zero.mp hroom)
    exact ⟨[], rfl, List.Perm.refl _, fun _ _ _ hsource ↦ by cases hsource⟩
  | succ room ih =>
    by_cases hempty : rest = []
    · subst hempty
      exact ⟨[], rfl, List.Perm.refl _, fun _ _ _ hsource ↦ by cases hsource⟩
    · obtain ⟨least, hleast⟩ := exists_mem_frontier hacyclic hempty
      have hsplit : (frontier (waiting edges rest) ++
          rest.filter fun node ↦ node ∉ frontier (waiting edges rest)).Perm rest :=
        frontier_append_perm hrest
      have hstep := @levels_waiting _ _ edges rest room hempty
      generalize hlevel : frontier (waiting edges rest) = level at hleast hsplit hstep
      have hmem : ∀ node, node ∈ level ↔
          node ∈ rest ∧ ∀ source ∈ rest, (source, node) ∉ edges :=
        fun node ↦ hlevel ▸ mem_frontier_iff
      have hshorter : (rest.filter fun node ↦ node ∉ level).length < rest.length :=
        length_filter_lt_length_iff_exists.mpr
          ⟨least, ((hmem least).mp hleast).1, by simpa using hleast⟩
      obtain ⟨later, hlater, hperm, hforward⟩ :=
        @ih (rest.filter fun node ↦ node ∉ level) (hrest.filter _) (by omega)
      refine ⟨level :: later, ?_, ?_, ?_⟩
      · rw [hstep, if_neg (ne_nil_of_mem hleast), hlater, Option.map_some]
      · exact ((List.Perm.refl level).append hperm).trans hsplit
      · intro source target hedge hsource htarget
        have hbehind : target ∉ level := fun hin ↦ ((hmem target).mp hin).2 source hsource hedge
        rw [flatten_cons, idxOf_append_of_notMem hbehind]
        by_cases hin : source ∈ level
        · rw [idxOf_append_of_mem hin]
          exact Nat.lt_of_lt_of_le (idxOf_lt_length_iff.mpr hin) (Nat.le_add_right _ _)
        · rw [idxOf_append_of_notMem hin]
          exact Nat.add_lt_add_left (hforward source target hedge
            (mem_filter.mpr ⟨hsource, decide_eq_true hin⟩)
            (mem_filter.mpr ⟨htarget, decide_eq_true hbehind⟩)) _

/-- Assumes: the graph is acyclic and its edges join nodes. The algorithm arranges the nodes in
levels, each node behind those it waits for. -/
theorem exists_levels {nodes : List Node} (hacyclic : Acyclic edges) (hnodes : nodes.Nodup)
    (hedges : ∀ edge ∈ edges, edge.1 ∈ nodes ∧ edge.2 ∈ nodes) :
    ∃ arranged, levels nodes.length (incoming nodes edges) = some arranged ∧
      arranged.flatten.Perm nodes ∧ ∀ edge ∈ edges,
        arranged.flatten.idxOf edge.1 < arranged.flatten.idxOf edge.2 := by
  rw [incoming_eq_waiting fun edge hedge ↦ (hedges edge hedge).1]
  obtain ⟨arranged, hlevels, hperm, hforward⟩ :=
    exists_levels_waiting hacyclic hnodes (Nat.le_refl _)
  exact ⟨arranged, hlevels, hperm, fun edge hedge ↦
    hforward edge.1 edge.2 hedge (hedges edge hedge).1 (hedges edge hedge).2⟩

/-! ### Depth -/

/-- A path of that many edges, through nodes of the list, ends in the node. -/
inductive PathTo (edges : List (Node × Node)) (nodes : List Node) : Node → Nat → Prop
  | start {node : Node} (hnode : node ∈ nodes) : PathTo edges nodes node 0
  | step {source node : Node} {length : Nat} (hpath : PathTo edges nodes source length)
      (hedge : (source, node) ∈ edges) (hnode : node ∈ nodes) :
      PathTo edges nodes node (length + 1)

/-- The longest path that ends in the node has that many edges. -/
def Depth (edges : List (Node × Node)) (nodes : List Node) (node : Node) (depth : Nat) : Prop :=
  PathTo edges nodes node depth ∧ ∀ length, PathTo edges nodes node length → length ≤ depth

variable {length : Nat}

omit [LinearOrder Node] in
theorem PathTo.mem (hpath : PathTo edges rest node length) : node ∈ rest := by
  cases hpath with
  | start hnode | step hpath hedge hnode => exact hnode

theorem PathTo.behind (hpath : PathTo edges rest node (length + 1)) :
    PathTo edges (rest.filter fun node ↦ node ∉ frontier (waiting edges rest)) node length := by
  induction length generalizing node with
  | zero =>
    obtain - | ⟨hpath, hedge, hnode⟩ := hpath
    refine .start (mem_filter.mpr ⟨hnode, decide_eq_true fun hfirst ↦ ?_⟩)
    exact (mem_frontier_iff.mp hfirst).2 _ hpath.mem hedge
  | succ length ih =>
    obtain - | ⟨hpath, hedge, hnode⟩ := hpath
    refine .step (ih hpath) hedge (mem_filter.mpr ⟨hnode, decide_eq_true fun hfirst ↦ ?_⟩)
    exact (mem_frontier_iff.mp hfirst).2 _ hpath.mem hedge

/-- A path behind the first level has a node before it. -/
theorem PathTo.longer
    (hpath : PathTo edges (rest.filter fun node ↦ node ∉ frontier (waiting edges rest))
      node length) : PathTo edges rest node (length + 1) := by
  induction hpath with
  | @start node hnode =>
    obtain ⟨hrest, hbehind⟩ := mem_filter.mp hnode
    have hwaits : ¬ (node ∈ rest ∧ ∀ source ∈ rest, (source, node) ∉ edges) :=
      fun hfree ↦ of_decide_eq_true hbehind (mem_frontier_iff.mpr hfree)
    simp only [hrest, true_and, not_forall, not_not] at hwaits
    obtain ⟨source, hsource, hedge⟩ := hwaits
    exact .step (.start hsource) hedge hrest
  | step hpath hedge hnode ih => exact .step ih hedge (mem_filter.mp hnode).1

theorem Depth.first (hnode : node ∈ frontier (waiting edges rest)) : Depth edges rest node 0 := by
  obtain ⟨hrest, hfree⟩ := mem_frontier_iff.mp hnode
  refine ⟨.start hrest, fun length hpath ↦ ?_⟩
  cases hpath with
  | start hnode => exact Nat.le_refl 0
  | step hpath hedge hnode => exact absurd hedge (hfree _ hpath.mem)

theorem Depth.behind {depth : Nat}
    (hdepth : Depth edges (rest.filter fun node ↦ node ∉ frontier (waiting edges rest))
      node depth) : Depth edges rest node (depth + 1) := by
  refine ⟨hdepth.1.longer, fun length hpath ↦ ?_⟩
  cases length with
  | zero => exact Nat.zero_le _
  | succ length => exact Nat.succ_le_succ (hdepth.2 length hpath.behind)

/-- When the algorithm ends, its levels hold every remaining node once, they are sorted, and each
level holds the nodes of its depth. -/
theorem spec_of_levels_waiting {room : Nat} {arranged : List (List Node)} (hrest : rest.Nodup)
    (hlevels : levels room (waiting edges rest) = some arranged) :
    arranged.flatten.Perm rest ∧ ∀ position level, arranged[position]? = some level →
      level.Pairwise (· ≤ ·) ∧ ∀ node ∈ level, Depth edges rest node position := by
  induction room generalizing rest arranged with
  | zero =>
    cases rest with
    | nil =>
      cases hlevels
      exact ⟨List.Perm.refl _, fun _ _ hlevel ↦ by cases hlevel⟩
    | cons head tail => cases hlevels
  | succ room ih =>
    by_cases hempty : rest = []
    · subst hempty
      cases hlevels
      exact ⟨List.Perm.refl _, fun _ _ hlevel ↦ by cases hlevel⟩
    · rw [levels_waiting room hempty] at hlevels
      split at hlevels
      · cases hlevels
      · obtain ⟨later, hlater, rfl⟩ := Option.map_eq_some_iff.mp hlevels
        obtain ⟨hperm, hdepths⟩ := ih (hrest.filter _) hlater
        refine ⟨((List.Perm.refl _).append hperm).trans (frontier_append_perm hrest),
          fun position level hlevel ↦ ?_⟩
        cases position with
        | zero =>
          obtain rfl := Option.some.inj hlevel
          exact ⟨pairwise_sortedBy id _, fun node hnode ↦ .first hnode⟩
        | succ position =>
          obtain ⟨hsorted, hdepth⟩ := hdepths position level hlevel
          exact ⟨hsorted, fun node hnode ↦ (hdepth node hnode).behind⟩

section Arranged

variable {nodes : List Node} {room : Nat} {arranged : List (List Node)} (hnodes : nodes.Nodup)
  (hedges : ∀ edge ∈ edges, edge.1 ∈ nodes ∧ edge.2 ∈ nodes)
  (hlevels : levels room (incoming nodes edges) = some arranged)

include hnodes hedges hlevels

/-- Assumes: the edges join nodes, and the algorithm ends. Its levels hold every node once, they are
sorted, and each level holds the nodes of its depth. -/
theorem depth_of_levels : arranged.flatten.Perm nodes ∧
    ∀ position level, arranged[position]? = some level →
      level.Pairwise (· ≤ ·) ∧ ∀ node ∈ level, Depth edges nodes node position := by
  rw [incoming_eq_waiting fun edge hedge ↦ (hedges edge hedge).1] at hlevels
  exact spec_of_levels_waiting hnodes hlevels

theorem exists_depth {node : Node} (hnode : node ∈ nodes) :
    ∃ depth, Depth edges nodes node depth := by
  obtain ⟨hperm, hdepths⟩ := depth_of_levels hnodes hedges hlevels
  obtain ⟨level, hlevel, hmem⟩ := mem_flatten.mp (hperm.mem_iff.mpr hnode)
  obtain ⟨position, hposition⟩ := mem_iff_getElem?.mp hlevel
  exact ⟨position, (hdepths position level hposition).2 node hmem⟩

theorem acyclic_of_levels : Acyclic edges := by
  have hdeeper : ∀ source target, Relation.TransGen (Edge edges) source target →
      ∀ above below, Depth edges nodes source above → Depth edges nodes target below →
        above < below := by
    intro source target hpath
    induction hpath with
    | single hedge =>
      exact fun above below habove hbelow ↦
        hbelow.2 _ (.step habove.1 hedge (hedges _ hedge).2)
    | tail hpath hedge ih =>
      intro above below habove hbelow
      obtain ⟨middle, hmiddle⟩ := exists_depth hnodes hedges hlevels (hedges _ hedge).1
      exact Nat.lt_trans (ih above middle habove hmiddle)
        (hbelow.2 _ (.step hmiddle.1 hedge (hedges _ hedge).2))
  intro node hcycle
  have hnode : node ∈ nodes := by
    obtain ⟨next, hedge, -⟩ := Relation.TransGen.head'_iff.mp hcycle
    exact (hedges _ hedge).1
  obtain ⟨depth, hdepth⟩ := exists_depth hnodes hedges hlevels hnode
  exact absurd (hdeeper node node hcycle depth depth hdepth hdepth) (Nat.lt_irrefl depth)

end Arranged

end Kahn

end AbsoluteZero.Foundations

import AbsoluteZero.Cm.Candidate
import AbsoluteZero.Foundations.DepthFirst
import AbsoluteZero.Foundations.Grouping

/-!
# Dependency expansion

`expand` walks the dependency records breadth first from the ids of the candidates, one hop for each
depth up to the cap. The candidates stay as they are; the stubs behind them and the trace depend
only on the set of ids and on the set of edges (`expand_exact`).
-/

namespace AbsoluteZero.Cm

open Foundations DepthFirst SortedSet List

def edgeOf (rec : Json) : Except String (String × String) :=
  match rec.get? "src", rec.get? "dst" with
  | some (.str src), some (.str dst) =>
    if src = "" ∨ dst = "" then .error "resolver.malformed_record" else .ok (src, dst)
  | _, _ => .error "resolver.malformed_record"

/-- The cap as a number of hops; `True` is no cap. -/
def hopsOf : Json → Except String Nat
  | .int cap => if cap < 0 then .error "resolver.bad_depth_cap" else .ok cap.toNat
  | _ => .error "resolver.bad_depth_cap"

/-- `adjacency.get(node, ())`: the targets of a node, sorted and each once. -/
def neighbors (edges : List (String × String)) (node : String) : List String :=
  (SortedSet.ofList ((((groupBy Prod.fst edges).get? node).getD []).map Prod.snd)).elements

def stubOf (depth : Nat) (node : String) : Candidate where
  id := node
  sectionName := "dependency_graph"
  content := .obj [("full", .null), ("section", .null), ("reference", .str node)]
  score := .int 0
  stale := some .null
  provenance := ⟨[("source", .str "resolver"), ("depth", .int depth)],
    (by decide : ["source", "depth"].Nodup)⟩
  contradiction := false

/-- The variables of the loop. -/
structure Walk where
  visited : SortedSet String
  frontier : SortedSet String
  newCandidates : List Candidate
  frontierByDepth : List (List String)
  depth : Nat
  deriving DecidableEq

def Walk.nextFrontier (edges : List (String × String)) (walk : Walk) : SortedSet String :=
  .ofList ((walk.frontier.elements.flatMap (neighbors edges)).filter (· ∉ walk.visited))

/-- One turn of the loop. -/
def Walk.hop (edges : List (String × String)) (walk : Walk) : Walk :=
  let next := walk.nextFrontier edges
  { visited := walk.visited.update next.elements
    frontier := next
    newCandidates := walk.newCandidates ++ next.elements.map (stubOf (walk.depth + 1))
    frontierByDepth := walk.frontierByDepth ++ [next.elements]
    depth := walk.depth + 1 }

/-- `while frontier and depth < depth_cap`, with the number of hops that are left. -/
def Walk.run (edges : List (String × String)) : Nat → Walk → Walk
  | 0, walk => walk
  | room + 1, walk =>
    if walk.frontier.elements = [] then walk else (walk.hop edges).run edges room

def Walk.start (candidates : List Candidate) : Walk where
  visited := .ofList (candidates.map Candidate.id)
  frontier := .ofList (candidates.map Candidate.id)
  newCandidates := []
  frontierByDepth := []
  depth := 0

structure Trace where
  depthCap : Nat
  depthReached : Nat
  frontierByDepth : List (List String)
  visited : List String
  deriving DecidableEq

def Walk.trace (cap : Nat) (walk : Walk) : Trace :=
  ⟨cap, walk.frontierByDepth.length, walk.frontierByDepth, walk.visited.elements⟩

/-- `expand`. The cap is checked before the first record. -/
def expand (candidates : List Candidate) (records depthCap : Json) :
    Except String (List Candidate × Trace) :=
  match records with
  | .arr records => do
    let cap ← hopsOf depthCap
    let edges ← records.mapM edgeOf
    let walk := (Walk.start candidates).run edges cap
    return (candidates ++ walk.newCandidates, walk.trace cap)
  | _ => .error "resolver.bad_dependency_records"

section Distance

variable {Node : Type} {edges : List (Node × Node)} {seeds : Node → Prop}

inductive Reaches (edges : List (Node × Node)) (seeds : Node → Prop) : Nat → Node → Prop
  | seed {node : Node} : seeds node → Reaches edges seeds 0 node
  | hop {hops : Nat} {source target : Node} :
    Reaches edges seeds hops source → Edge edges source target →
      Reaches edges seeds (hops + 1) target

def AtDistance (edges : List (Node × Node)) (seeds : Node →
    Prop) (hops : Nat) (node : Node) : Prop :=
  Reaches edges seeds hops node ∧ ∀ fewer < hops, ¬ Reaches edges seeds fewer node

theorem AtDistance.unique {hops hops' : Nat} {node : Node} (hnode : AtDistance edges seeds hops
    node) (hnode' : AtDistance edges seeds hops' node) : hops = hops' := by
  rcases lt_trichotomy hops hops' with hlt | heq | hlt
  · exact absurd hnode.1 (hnode'.2 hops hlt)
  · exact heq
  · exact absurd hnode'.1 (hnode.2 hops' hlt)

theorem atDistance_succ_iff {hops : Nat} {node : Node} : AtDistance edges seeds (hops + 1) node ↔
    (∃ source, AtDistance edges seeds hops source ∧ Edge edges source node) ∧
      ∀ fewer ≤ hops, ¬ Reaches edges seeds fewer node := by
  constructor
  · rintro ⟨hreaches, hfewer⟩
    refine ⟨?_, fun fewer hle ↦ hfewer fewer (Nat.lt_succ_of_le hle)⟩
    cases hreaches with
    | hop hsource hedge =>
      exact ⟨_, ⟨hsource, fun fewer hlt hreaches ↦
        hfewer (fewer + 1) (Nat.succ_lt_succ hlt) (hreaches.hop hedge)⟩, hedge⟩
  · rintro ⟨⟨source, hsource, hedge⟩, hfewer⟩
    exact ⟨hsource.1.hop hedge, fun fewer hlt ↦ hfewer fewer (Nat.le_of_lt_succ hlt)⟩

/-- Beyond an empty distance there is nothing. -/
theorem not_atDistance_of_le {hops further : Nat}
    (hnone : ∀ node, ¬ AtDistance edges seeds hops node) (hle : hops ≤ further) (node : Node) :
    ¬ AtDistance edges seeds further node := by
  induction hle generalizing node with
  | refl => exact hnone node
  | step _ ih =>
    intro hnode
    obtain ⟨⟨source, hsource, -⟩, -⟩ := atDistance_succ_iff.mp hnode
    exact ih source hsource

end Distance

/-! ### The walk -/

variable {edges edges' : List (String × String)} {seeds : String → Prop} {walk : Walk}
  {keys : List (Nat × String)}

theorem mem_neighbors {src dst : String} : dst ∈ neighbors edges src ↔ Edge edges src dst := by
  simp [neighbors, mem_elements, getD_groupBy, Edge]

/-- The nodes at the distances from one to the cap, in the order of distance and id. -/
structure Found (edges : List (String × String)) (seeds : String → Prop) (cap : Nat)
    (keys : List (Nat × String)) : Prop where
  sorted : keys.Pairwise (Prod.Lex (· < ·) (· < ·))
  mem : ∀ depth node, (depth, node) ∈ keys ↔
    (1 ≤ depth ∧ depth ≤ cap) ∧ AtDistance edges seeds depth node

theorem Found.nodup {cap : Nat} (hkeys : Found edges seeds cap keys) :
    (keys.map Prod.snd).Nodup := by
  refine pairwise_map.mpr (hkeys.sorted.imp_of_mem ?_)
  rintro ⟨depth, node⟩ ⟨depth', node'⟩ hkey hkey' hlt heq
  cases (show node = node' from heq)
  cases ((hkeys.mem depth node).mp hkey).2.unique ((hkeys.mem depth' node).mp hkey').2
  exact (Prod.lex_iff.mp hlt).elim (lt_irrefl _) fun hlt ↦ lt_irrefl _ hlt.2

/-- What the variables of the loop say after some hops. -/
structure Walk.Charts (edges : List (String × String)) (seeds : String → Prop) (walk : Walk)
    (keys : List (Nat × String)) : Prop where
  visited : ∀ node, node ∈ walk.visited ↔ ∃ hops ≤ walk.depth, Reaches edges seeds hops node
  frontier : ∀ node, node ∈ walk.frontier ↔ AtDistance edges seeds walk.depth node
  stubs : walk.newCandidates = keys.map fun key ↦ stubOf key.1 key.2
  found : Found edges seeds walk.depth keys

theorem Walk.Charts.mem_nextFrontier (hwalk : walk.Charts edges seeds keys) {node : String} :
    node ∈ walk.nextFrontier edges ↔ AtDistance edges seeds (walk.depth + 1) node := by
  simp only [nextFrontier, mem_ofList, mem_filter, mem_flatMap, mem_elements,
    hwalk.frontier, mem_neighbors, hwalk.visited, decide_eq_true_iff, not_exists, not_and,
    atDistance_succ_iff]

theorem Walk.Charts.hop (hwalk : walk.Charts edges seeds keys) :
    (walk.hop edges).Charts edges seeds (keys ++
      (walk.nextFrontier edges).elements.map (Prod.mk (walk.depth + 1))) where
  visited node := by
    change node ∈ walk.visited.update _ ↔ ∃ hops ≤ walk.depth + 1, _
    rw [mem_update, mem_elements, hwalk.mem_nextFrontier, hwalk.visited]
    constructor
    · rintro (hnext | ⟨hops, hle, hreaches⟩)
      · exact ⟨walk.depth + 1, le_rfl, hnext.1⟩
      · exact ⟨hops, hle.trans (Nat.le_succ _), hreaches⟩
    · rintro ⟨hops, hle, hreaches⟩
      by_cases hold : ∃ fewer ≤ walk.depth, Reaches edges seeds fewer node
      · exact .inr hold
      · have hfewer : ∀ fewer < walk.depth + 1, ¬ Reaches edges seeds fewer node :=
          fun fewer hlt hfound ↦ hold ⟨fewer, Nat.le_of_lt_succ hlt, hfound⟩
        have heq : hops = walk.depth + 1 :=
          le_antisymm hle (not_lt.mp fun hlt ↦ hfewer hops hlt hreaches)
        exact .inl ⟨heq ▸ hreaches, hfewer⟩
  frontier _ := hwalk.mem_nextFrontier
  stubs := by
    rw [map_append, map_map, ← hwalk.stubs]
    rfl
  found := by
    refine ⟨pairwise_append.mpr ⟨hwalk.found.sorted, ?_, ?_⟩, fun depth node ↦ ?_⟩
    · exact (SortedSet.sorted _).map _ fun _ _ hlt ↦ Prod.Lex.right _ hlt
    · rintro ⟨depth, node⟩ hkey other hother
      obtain ⟨next, -, rfl⟩ := mem_map.mp hother
      exact Prod.Lex.left _ _ (Nat.lt_succ_of_le ((hwalk.found.mem depth node).mp hkey).1.2)
    · have hnext : (depth, node) ∈ (walk.nextFrontier edges).elements.map
          (Prod.mk (walk.depth + 1)) ↔
            depth = walk.depth + 1 ∧ AtDistance edges seeds (walk.depth + 1) node := by
        simp only [mem_map, mem_elements, hwalk.mem_nextFrontier, Prod.mk.injEq]
        grind
      rw [mem_append, hwalk.found.mem, hnext]
      change _ ↔ (1 ≤ depth ∧ depth ≤ walk.depth + 1) ∧ _
      grind

/-- A whole run finds the nodes at every distance up to the cap. -/
theorem Walk.Charts.run (hwalk : walk.Charts edges seeds keys) (room : Nat) :
    ∃ keys : List (Nat × String), (walk.run edges room).newCandidates =
        keys.map (fun key ↦ stubOf key.1 key.2) ∧
      Found edges seeds (walk.depth + room) keys := by
  induction room generalizing walk keys with
  | zero => exact ⟨keys, hwalk.stubs, hwalk.found⟩
  | succ room ih =>
    unfold Walk.run
    split
    · next hempty =>
      refine ⟨keys, hwalk.stubs, hwalk.found.sorted, fun depth node ↦
        (hwalk.found.mem depth node).trans ?_⟩
      have hnone : ∀ node, ¬ AtDistance edges seeds walk.depth node := by
        intro node hnode
        have hmem := (hwalk.frontier node).mpr hnode
        rw [← mem_elements, hempty] at hmem
        exact not_mem_nil hmem
      constructor
      · rintro ⟨⟨hpos, hle⟩, hnode⟩
        exact ⟨⟨hpos, hle.trans (Nat.le_add_right _ _)⟩, hnode⟩
      · rintro ⟨⟨hpos, -⟩, hnode⟩
        rcases le_total walk.depth depth with hle | hle
        · exact absurd hnode (not_atDistance_of_le hnone hle node)
        · exact ⟨⟨hpos, hle⟩, hnode⟩
    · rw [Nat.add_comm room, ← Nat.add_assoc]
      exact ih hwalk.hop

theorem Walk.run_congr (hsame : ∀ edge, edge ∈ edges' ↔ edge ∈ edges) (room : Nat) :
    walk.run edges' room = walk.run edges room := by
  have hhop : ∀ walk : Walk, walk.hop edges' = walk.hop edges := by
    intro walk
    have hnext : walk.nextFrontier edges' = walk.nextFrontier edges :=
      ofList_congr fun node ↦ by
        simp only [mem_filter, mem_flatMap, mem_neighbors, Edge, hsame]
    unfold hop
    rw [hnext]
  induction room generalizing walk with
  | zero => rfl
  | succ room ih =>
    unfold Walk.run
    rw [hhop, ih]

def Seed (candidates : List Candidate) (node : String) : Prop :=
  node ∈ candidates.map Candidate.id

theorem charts_start (candidates : List Candidate) :
    (Walk.start candidates).Charts edges (Seed candidates) [] where
  visited node := by
    refine mem_ofList.trans ⟨fun hseed ↦ ⟨0, le_rfl, .seed hseed⟩, ?_⟩
    rintro ⟨hops, hle, hreaches⟩
    cases Nat.le_zero.mp hle
    cases hreaches with
    | seed hseed => exact hseed
  frontier node := by
    refine mem_ofList.trans
      ⟨fun hseed ↦ ⟨.seed hseed, fun _ hlt ↦ absurd hlt (Nat.not_lt_zero _)⟩, ?_⟩
    rintro ⟨hreaches, -⟩
    cases hreaches with
    | seed hseed => exact hseed
  stubs := rfl
  found := ⟨.nil, fun _ _ ↦ iff_of_false not_mem_nil fun hnode ↦
    Nat.not_succ_le_zero _ (hnode.1.1.trans hnode.1.2)⟩

/-- Assumes: every record names an edge, and the cap is a number of hops. Behind the unchanged
candidates stands each node at a distance from one to the cap, once, with that distance, in the
order of distance and id. These stubs and the trace are the same for all records with the same
edges and all candidates with the same ids. -/
theorem expand_exact {candidates : List Candidate} {records : List Json} {depthCap : Json}
    {cap : Nat} (hcap : hopsOf depthCap = .ok cap) (hedges : records.mapM edgeOf = .ok edges) :
    ∃ (keys : List (Nat × String)) (trace : Trace),
      expand candidates (.arr records) depthCap =
          .ok (candidates ++ keys.map (fun key ↦ stubOf key.1 key.2), trace) ∧
        Found edges (Seed candidates) cap keys ∧ (keys.map Prod.snd).Nodup ∧
        ∀ candidates' records' edges', records'.mapM edgeOf = .ok edges' →
          (∀ edge, edge ∈ edges' ↔ edge ∈ edges) →
          (∀ node, Seed candidates' node ↔ Seed candidates node) →
            expand candidates' (.arr records') depthCap =
              .ok (candidates' ++ keys.map (fun key ↦ stubOf key.1 key.2), trace) := by
  have hexpand : ∀ candidates records edges, records.mapM edgeOf = .ok edges →
      expand candidates (.arr records) depthCap =
        .ok (candidates ++ ((Walk.start candidates).run edges cap).newCandidates,
          ((Walk.start candidates).run edges cap).trace cap) := by
    intro candidates records edges hedges
    simp only [expand, hcap, hedges]
    rfl
  obtain ⟨keys, hkeys, hfound⟩ := (charts_start candidates).run cap
  rw [show (Walk.start candidates).depth + cap = cap from Nat.zero_add cap] at hfound
  refine ⟨keys, _, hkeys ▸ hexpand candidates records edges hedges, hfound, hfound.nodup, ?_⟩
  intro candidates' records' edges' hedges' hsame hseeds
  have hstart : Walk.start candidates' = Walk.start candidates := by
    unfold Walk.start
    rw [ofList_congr hseeds]
  rw [hexpand candidates' records' edges' hedges', hstart, Walk.run_congr hsame, hkeys]

/-- A record with nothing else in it. -/
def recordOf (src dst : String) : Json := .obj [("src", .str src), ("dst", .str dst)]

theorem expand_exact_cyclic : ∃ (keys : List (Nat × String)) (trace : Trace),
    expand [stubOf 0 "a"] (.arr [recordOf "a" "b", recordOf "b" "b", recordOf "b" "a"]) (.int 2) =
        .ok ([stubOf 0 "a"] ++ keys.map (fun key ↦ stubOf key.1 key.2), trace) ∧
      Found [("a", "b"), ("b", "b"), ("b", "a")] (Seed [stubOf 0 "a"]) 2 keys := by
  obtain ⟨keys, trace, hexpand, hfound, -⟩ :=
    @expand_exact [("a", "b"), ("b", "b"), ("b", "a")] [stubOf 0 "a"]
      [recordOf "a" "b", recordOf "b" "b", recordOf "b" "a"] (.int 2) 2 rfl rfl
  exact ⟨keys, trace, hexpand, hfound⟩

/-- A seed that is given twice is returned twice, and swapped seeds are returned swapped. -/
theorem expand_keeps_seeds :
    (expand [stubOf 0 "a", stubOf 0 "a"] (.arr []) (.int 1)).map (·.1.map Candidate.id) =
        .ok ["a", "a"] ∧
      (expand [stubOf 0 "b", stubOf 0 "a"] (.arr []) (.int 1)).map (·.1.map Candidate.id) =
        .ok ["b", "a"] ∧
      (expand [stubOf 0 "a", stubOf 0 "b"] (.arr []) (.int 1)).map (·.1.map Candidate.id) =
        .ok ["a", "b"] := ⟨rfl, rfl, rfl⟩

end AbsoluteZero.Cm

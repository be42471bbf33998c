import AbsoluteZero.Foundations.OrderedDict
import Mathlib.Data.Finset.Card

/-!
# Cycles by depth-first search

A node is white before the visit, gray while the search is below it and black afterwards; an edge to
a gray node closes a cycle (`hasCycle_eq_false_iff`). A visit starts at a white node and the gray
nodes are pairwise distinct, so room for as many nested visits as there are nodes suffices
(`reporting_visit`).
-/

namespace AbsoluteZero.Foundations

open OrderedDict List

namespace DepthFirst

variable {Node : Type} [DecidableEq Node]

/-- An edge leads from the first node to the second. -/
def Edge (edges : List (Node × Node)) (source target : Node) : Prop := (source, target) ∈ edges

/-- No node is reached from itself along edges. -/
def Acyclic (edges : List (Node × Node)) : Prop :=
  ∀ node, ¬ Relation.TransGen (Edge edges) node node

omit [DecidableEq Node] in
/-- Assumes: renaming keeps apart the nodes where edges could meet. A path between renamed nodes
renames a path. -/
theorem exists_path_of_map {Node' : Type} {rename : Node → Node'} {edges : List (Node × Node)}
    (hrename : ∀ edge ∈ edges, ∀ other ∈ edges, rename edge.2 = rename other.1 → edge.2 = other.1)
    {source target : Node'}
    (hpath : Relation.TransGen (Edge (edges.map (Prod.map rename rename))) source target) :
    ∃ first ∈ edges, ∃ last ∈ edges, rename first.1 = source ∧ rename last.2 = target ∧
      Relation.TransGen (Edge edges) first.1 last.2 := by
  induction hpath with
  | single hstep =>
    obtain ⟨edge, hedge, heq⟩ := mem_map.mp hstep
    cases heq
    exact ⟨edge, hedge, edge, hedge, rfl, rfl, Relation.TransGen.single hedge⟩
  | tail _ hstep ih =>
    obtain ⟨first, hfirst, last, hlast, hsource, hmeet, hpath⟩ := ih
    obtain ⟨edge, hedge, heq⟩ := mem_map.mp hstep
    cases heq
    refine ⟨first, hfirst, edge, hedge, hsource, rfl, hpath.tail ?_⟩
    rw [hrename last hlast edge hedge hmeet]
    exact hedge

omit [DecidableEq Node] in
theorem Acyclic.map {Node' : Type} {rename : Node → Node'} {edges : List (Node × Node)}
    (hacyclic : Acyclic edges)
    (hrename : ∀ edge ∈ edges, ∀ other ∈ edges, rename edge.2 = rename other.1 → edge.2 = other.1) :
    Acyclic (edges.map (Prod.map rename rename)) := by
  intro node hcycle
  obtain ⟨first, hfirst, last, hlast, hsource, htarget, hpath⟩ :=
    exists_path_of_map hrename hcycle
  rw [hrename last hlast first hfirst (htarget.trans hsource.symm)] at hpath
  exact hacyclic first.1 hpath

/-- The color of a visited node; a node without a color is white. -/
inductive Color
  | gray
  | black
  deriving DecidableEq

/-- The colors of the nodes visited so far. -/
abbrev Colors (Node : Type) := OrderedDict Node Color

/-- The targets of a node, in the order of the edges. -/
def successors (edges : List (Node × Node)) (node : Node) : List Node :=
  (edges.filter fun edge ↦ edge.1 = node).map Prod.snd

/-- Look at nodes in turn: a gray one closes a cycle, a white one is visited. -/
def scan (visit : Node → Colors Node → Bool × Colors Node) :
    List Node → Colors Node → Bool × Colors Node
  | [], colors => (false, colors)
  | next :: rest, colors =>
    match colors.get? next with
    | some .gray => (true, colors)
    | some .black => scan visit rest colors
    | none =>
      match visit next colors with
      | (true, visited) => (true, visited)
      | (false, visited) => scan visit rest visited

/-- Visit a white node, with room for a number of nested visits. -/
def visit (edges : List (Node × Node)) : Nat → Node → Colors Node → Bool × Colors Node
  | 0, _, colors => (true, colors)
  | room + 1, node, colors =>
    match scan (visit edges room) (successors edges node) (colors.insert node .gray) with
    | (true, visited) => (true, visited)
    | (false, visited) => (false, visited.insert node .black)

def nodes (edges : List (Node × Node)) : Finset Node :=
  (edges.map Prod.fst).toFinset ∪ (edges.map Prod.snd).toFinset

/-- Visit every node that has a target, unless it has been visited before. -/
def searchFrom (edges : List (Node × Node)) (room : Nat) :
    List Node → Colors Node → Bool × Colors Node
  | [], colors => (false, colors)
  | node :: rest, colors =>
    match colors.get? node with
    | some _ => searchFrom edges room rest colors
    | none =>
      match visit edges room node colors with
      | (true, visited) => (true, visited)
      | (false, visited) => searchFrom edges room rest visited

/-- The search over the whole graph. -/
def hasCycle (edges : List (Node × Node)) : Bool :=
  (searchFrom edges ((nodes edges).card + 1) (edges.map Prod.fst) .empty).1

variable {edges : List (Node × Node)} {colors visited : Colors Node} {node : Node} {room : Nat}

omit [DecidableEq Node] in
theorem mem_successors_iff [DecidableEq Node] {target : Node} :
    target ∈ successors edges node ↔ Edge edges node target := by
  unfold successors Edge
  rw [mem_map]
  constructor
  · rintro ⟨⟨source, other⟩, hmem, rfl⟩
    obtain ⟨hedge, hsource⟩ := mem_filter.mp hmem
    rw [← of_decide_eq_true hsource]
    exact hedge
  · intro hedge
    exact ⟨(node, target), mem_filter.mpr ⟨hedge, decide_eq_true rfl⟩, rfl⟩

/-! ### A search that finds nothing -/

def Black (colors : Colors Node) (node : Node) : Prop := colors.get? node = some .black

/-- What is finished leads to finished nodes only, and to no cycle. -/
structure Settled (edges : List (Node × Node)) (colors : Colors Node) : Prop where
  closed : ∀ source target, Black colors source → Edge edges source target → Black colors target
  acyclic : ∀ node, Black colors node → ¬ Relation.TransGen (Edge edges) node node

/-- A search step keeps what is finished, and the gray nodes are those it started with. -/
structure Onward (colors visited : Colors Node) : Prop where
  black : ∀ node, Black colors node → Black visited node
  gray : ∀ node, visited.get? node = some .gray ↔ colors.get? node = some .gray

theorem Onward.refl (colors : Colors Node) : Onward colors colors := ⟨fun _ h ↦ h, fun _ ↦ Iff.rfl⟩

theorem Onward.trans {third : Colors Node} (hfirst : Onward colors visited)
    (hsecond : Onward visited third) : Onward colors third :=
  ⟨fun node hnode ↦ hsecond.black node (hfirst.black node hnode),
    fun node ↦ (hsecond.gray node).trans (hfirst.gray node)⟩

section

variable (hsettled : Settled edges colors)

include hsettled

/-- Whatever is reached from a finished node is finished. -/
theorem Settled.black_of_reached {source target : Node}
    (hsource : Black colors source) (hreached : Relation.TransGen (Edge edges) source target) :
    Black colors target := by
  induction hreached with
  | single hedge => exact hsettled.closed _ _ hsource hedge
  | tail _ hedge ih => exact hsettled.closed _ _ ih hedge

theorem Settled.gray (hwhite : colors.get? node = none) :
    Settled edges (colors.insert node .gray) := by
  have hblack : ∀ other, Black (colors.insert node .gray) other ↔ Black colors other := by
    intro other
    unfold Black
    rw [get?_insert]
    by_cases heq : node = other
    · rw [if_pos heq, ← heq, hwhite]
      simp
    · rw [if_neg heq]
  constructor
  · intro source target hsource hedge
    exact (hblack target).mpr (hsettled.closed _ _ ((hblack source).mp hsource) hedge)
  · intro other hother
    exact hsettled.acyclic other ((hblack other).mp hother)

theorem Settled.finish (hgray : colors.get? node = some .gray)
    (htargets : ∀ target, Edge edges node target → Black colors target) :
    Settled edges (colors.insert node .black) := by
  have hblack : ∀ other, Black (colors.insert node .black) other ↔
      node = other ∨ Black colors other := by
    intro other
    unfold Black
    rw [get?_insert]
    by_cases heq : node = other
    · simp [heq]
    · simp [heq]
  have hopen : ¬ Black colors node := by
    intro hdone
    rw [Black, hgray] at hdone
    cases hdone
  constructor
  · intro source target hsource hedge
    refine (hblack target).mpr (.inr ?_)
    rcases (hblack source).mp hsource with rfl | hold
    · exact htargets target hedge
    · exact hsettled.closed _ _ hold hedge
  · intro other hother hcycle
    rcases (hblack other).mp hother with rfl | hold
    · -- a cycle through the node would come back to it from a finished node
      obtain ⟨target, hedge, hback⟩ := Relation.TransGen.head'_iff.mp hcycle
      rcases Relation.reflTransGen_iff_eq_or_transGen.mp hback with heq | hreached
      · exact hopen (heq ▸ htargets target hedge)
      · exact hopen (hsettled.black_of_reached (htargets target hedge) hreached)
    · exact hsettled.acyclic other hold hcycle

end

/-- What a visit of a white node that finds no cycle achieves. -/
def Sound (edges : List (Node × Node)) (visit : Node → Colors Node → Bool × Colors Node) : Prop :=
  ∀ node colors visited, Settled edges colors → colors.get? node = none →
    visit node colors = (false, visited) →
    Settled edges visited ∧ Onward colors visited ∧ Black visited node

theorem Sound.scan {visit : Node → Colors Node → Bool × Colors Node} (hvisit : Sound edges visit)
    {targets : List Node} (hsettled : Settled edges colors)
    (hscan : scan visit targets colors = (false, visited)) :
    Settled edges visited ∧ Onward colors visited ∧ ∀ target ∈ targets, Black visited target := by
  induction targets generalizing colors with
  | nil =>
    cases hscan
    exact ⟨hsettled, .refl _, fun _ htarget ↦ absurd htarget not_mem_nil⟩
  | cons next rest ih =>
    unfold DepthFirst.scan at hscan
    cases hcolor : colors.get? next with
    | some color =>
      rw [hcolor] at hscan
      cases color with
      | gray => cases hscan
      | black =>
        obtain ⟨hdone, honward, hrest⟩ := ih hsettled hscan
        refine ⟨hdone, honward, fun target htarget ↦ ?_⟩
        rcases mem_cons.mp htarget with rfl | hlater
        · exact honward.black _ hcolor
        · exact hrest target hlater
    | none =>
      rw [hcolor] at hscan
      cases hnext : visit next colors with
      | mk found between =>
        simp only [hnext] at hscan
        cases found with
        | true => cases hscan
        | false =>
          obtain ⟨hbetween, hfirst, hblack⟩ := hvisit next colors between hsettled hcolor hnext
          obtain ⟨hdone, honward, hrest⟩ := ih hbetween hscan
          refine ⟨hdone, hfirst.trans honward, fun target htarget ↦ ?_⟩
          rcases mem_cons.mp htarget with rfl | hlater
          · exact honward.black _ hblack
          · exact hrest target hlater

theorem sound_visit (edges : List (Node × Node)) (room : Nat) : Sound edges (visit edges room) := by
  induction room with
  | zero =>
    intro node colors visited _ _ hvisit
    cases hvisit
  | succ room ih =>
    intro node colors visited hsettled hwhite hvisit
    unfold visit at hvisit
    cases hscan : scan (visit edges room) (successors edges node) (colors.insert node .gray) with
    | mk found between =>
      simp only [hscan] at hvisit
      cases found with
      | true => cases hvisit
      | false =>
        cases hvisit
        obtain ⟨hbetween, honward, htargets⟩ := ih.scan (hsettled.gray hwhite) hscan
        have hgray : between.get? node = some .gray :=
          (honward.gray node).mpr (get?_insert_self _ _ _)
        refine ⟨hbetween.finish hgray fun target hedge ↦
          htargets target (mem_successors_iff.mpr hedge), ⟨fun other hother ↦ ?_, fun other ↦ ?_⟩,
          get?_insert_self _ _ _⟩
        · have hne : node ≠ other := by
            rintro rfl
            rw [Black, hwhite] at hother
            cases hother
          have hold : Black (colors.insert node .gray) other := by
            rw [Black, get?_insert, if_neg hne]
            exact hother
          rw [Black, get?_insert, if_neg hne]
          exact honward.black other hold
        · rw [get?_insert]
          by_cases heq : node = other
          · rw [if_pos heq, ← heq, hwhite]
            simp
          · rw [if_neg heq, honward.gray other, get?_insert, if_neg heq]

theorem settled_searchFrom {sources : List Node} (hsettled : Settled edges colors)
    (hgray : ∀ node, colors.get? node ≠ some .gray)
    (hsearch : searchFrom edges room sources colors = (false, visited)) :
    Settled edges visited ∧ (∀ node, Black colors node → Black visited node) ∧
      ∀ source ∈ sources, Black visited source := by
  induction sources generalizing colors with
  | nil =>
    cases hsearch
    exact ⟨hsettled, fun _ h ↦ h, fun _ hsource ↦ absurd hsource not_mem_nil⟩
  | cons first rest ih =>
    unfold searchFrom at hsearch
    cases hcolor : colors.get? first with
    | some color =>
      rw [hcolor] at hsearch
      have hblack : Black colors first := by
        cases color with
        | gray => exact absurd hcolor (hgray first)
        | black => exact hcolor
      obtain ⟨hdone, hkept, hrest⟩ := ih hsettled hgray hsearch
      refine ⟨hdone, hkept, fun source hsource ↦ ?_⟩
      rcases mem_cons.mp hsource with rfl | hlater
      · exact hkept _ hblack
      · exact hrest source hlater
    | none =>
      rw [hcolor] at hsearch
      cases hfirst : visit edges room first colors with
      | mk found between =>
        simp only [hfirst] at hsearch
        cases found with
        | true => cases hsearch
        | false =>
          obtain ⟨hbetween, honward, hblack⟩ :=
            sound_visit edges room first colors between hsettled hcolor hfirst
          obtain ⟨hdone, hkept, hrest⟩ := ih hbetween
            (fun node hnode ↦ hgray node ((honward.gray node).mp hnode)) hsearch
          refine ⟨hdone, fun node hnode ↦ hkept node (honward.black node hnode),
            fun source hsource ↦ ?_⟩
          rcases mem_cons.mp hsource with rfl | hlater
          · exact hkept _ hblack
          · exact hrest source hlater

theorem acyclic_of_hasCycle (hsearch : hasCycle edges = false) : Acyclic edges := by
  unfold hasCycle at hsearch
  cases hresult : searchFrom edges ((nodes edges).card + 1) (edges.map Prod.fst) .empty with
  | mk found visited =>
    rw [hresult] at hsearch
    subst hsearch
    have hstart : Settled edges (.empty : Colors Node) := by
      constructor
      · intro source target hsource
        cases hsource
      · intro node hnode
        cases hnode
    obtain ⟨hsettled, -, hsources⟩ := settled_searchFrom hstart
      (fun _ hgray ↦ by cases hgray) hresult
    intro node hcycle
    -- a node on a cycle has a target, so the search has finished it
    obtain ⟨target, hedge, -⟩ := Relation.TransGen.head'_iff.mp hcycle
    have hsource : node ∈ edges.map Prod.fst := mem_map.mpr ⟨(node, target), hedge, rfl⟩
    exact hsettled.acyclic node (hsources node hsource) hcycle

/-! ### A search that finds a cycle -/

def grays (edges : List (Node × Node)) (colors : Colors Node) : Finset Node :=
  (nodes edges).filter fun node ↦ colors.get? node = some .gray

theorem mem_nodes_of_edge {source target : Node} (hedge : Edge edges source target) :
    source ∈ nodes edges ∧ target ∈ nodes edges := by
  constructor
  · exact Finset.mem_union_left _ (mem_toFinset.mpr (mem_map.mpr ⟨_, hedge, rfl⟩))
  · exact Finset.mem_union_right _ (mem_toFinset.mpr (mem_map.mpr ⟨_, hedge, rfl⟩))

theorem grays_insert (hnode : node ∈ nodes edges) (hwhite : colors.get? node = none) :
    (grays edges (colors.insert node .gray)).card = (grays edges colors).card + 1 := by
  have hfresh : node ∉ grays edges colors := by
    intro hmem
    have hgray := (Finset.mem_filter.mp hmem).2
    rw [hwhite] at hgray
    cases hgray
  rw [← Finset.card_insert_of_notMem hfresh]
  congr 1
  ext other
  rw [Finset.mem_insert, grays, grays, Finset.mem_filter, Finset.mem_filter, get?_insert]
  by_cases heq : node = other
  · rw [if_pos heq, ← heq]
    simp [hnode]
  · rw [if_neg heq]
    simp [Ne.symm heq]

/-- Where a search stands below a node: every gray node reaches it. -/
def Below (edges : List (Node × Node)) (colors : Colors Node) (node : Node) : Prop :=
  ∀ other, colors.get? other = some .gray → Relation.ReflTransGen (Edge edges) other node

/-- The graph has a cycle. -/
def Cyclic (edges : List (Node × Node)) : Prop :=
  ∃ node, Relation.TransGen (Edge edges) node node

/-- A visit with enough room reports a cycle only if there is one, and else leaves the gray nodes
as they are. -/
def Reporting (edges : List (Node × Node))
    (visit : Node → Colors Node → Bool × Colors Node) (room : Nat) : Prop :=
  ∀ node colors, node ∈ nodes edges → colors.get? node = none → Below edges colors node →
    (nodes edges).card < (grays edges colors).card + room →
    ((visit node colors).1 = true → Cyclic edges) ∧
      ((visit node colors).1 = false → ∀ other,
        (visit node colors).2.get? other = some .gray ↔ colors.get? other = some .gray)

theorem grays_congr (hsame : ∀ other, visited.get? other = some .gray ↔
    colors.get? other = some .gray) : grays edges visited = grays edges colors := by
  unfold grays
  ext node
  rw [Finset.mem_filter, Finset.mem_filter, hsame node]

theorem Reporting.scan {visit : Node → Colors Node → Bool × Colors Node}
    (hvisit : Reporting edges visit room) {source : Node} {targets : List Node}
    (htargets : ∀ target ∈ targets, Edge edges source target)
    (hsource : colors.get? source = some .gray) (hbelow : Below edges colors source)
    (hroom : (nodes edges).card < (grays edges colors).card + room) :
    ((scan visit targets colors).1 = true → Cyclic edges) ∧
      ((scan visit targets colors).1 = false → ∀ other,
        (scan visit targets colors).2.get? other = some .gray ↔
          colors.get? other = some .gray) := by
  induction targets generalizing colors with
  | nil => exact ⟨fun hfound ↦ (by cases hfound), fun _ _ ↦ Iff.rfl⟩
  | cons next rest ih =>
    have hedge := htargets next mem_cons_self
    have hrest : ∀ target ∈ rest, Edge edges source target :=
      fun target htarget ↦ htargets target (mem_cons_of_mem _ htarget)
    unfold DepthFirst.scan
    cases hcolor : colors.get? next with
    | some color =>
      cases color with
      | gray =>
        refine ⟨fun _ ↦ ⟨next, ?_⟩, nofun⟩
        exact Relation.TransGen.tail' (hbelow next hcolor) hedge
      | black => exact ih hrest hsource hbelow hroom
    | none =>
      have hdeeper : Below edges colors next := fun other hother ↦ (hbelow other hother).tail hedge
      obtain ⟨htrue, hfalse⟩ := hvisit next colors (mem_nodes_of_edge hedge).2 hcolor hdeeper hroom
      cases hnext : visit next colors with
      | mk found between =>
        rw [hnext] at htrue hfalse
        cases found with
        | true => exact ⟨fun _ ↦ htrue rfl, nofun⟩
        | false =>
          have hsame := hfalse rfl
          obtain ⟨hlater, hkept⟩ := ih hrest ((hsame source).mpr hsource)
            (fun other hother ↦ hbelow other ((hsame other).mp hother))
            (by rwa [grays_congr hsame])
          exact ⟨hlater, fun hnone other ↦ (hkept hnone other).trans (hsame other)⟩

theorem reporting_visit (edges : List (Node × Node)) (room : Nat) :
    Reporting edges (visit edges room) room := by
  induction room with
  | zero =>
    -- a white node is left over, so the gray ones are fewer than the nodes
    intro node colors hnode hwhite _ hroom
    have hfew : (grays edges (colors.insert node .gray)).card ≤ (nodes edges).card :=
      Finset.card_le_card (Finset.filter_subset _ _)
    rw [grays_insert hnode hwhite] at hfew
    omega
  | succ room ih =>
    intro node colors hnode hwhite hbelow hroom
    have hself : (colors.insert node .gray).get? node = some .gray :=
      get?_insert_self _ _ _
    have hgray : Below edges (colors.insert node .gray) node := by
      intro other hother
      rw [get?_insert] at hother
      by_cases heq : node = other
      · rw [heq]
      · rw [if_neg heq] at hother
        exact hbelow other hother
    have htargets : ∀ target ∈ successors edges node, Edge edges node target :=
      fun target htarget ↦ mem_successors_iff.mp htarget
    obtain ⟨htrue, hfalse⟩ := ih.scan htargets hself hgray
      (by rw [grays_insert hnode hwhite]; omega)
    unfold visit
    cases hscan : scan (visit edges room) (successors edges node) (colors.insert node .gray) with
    | mk found between =>
      rw [hscan] at htrue hfalse
      cases found with
      | true => exact ⟨fun _ ↦ htrue rfl, fun hfound ↦ by cases hfound⟩
      | false =>
        refine ⟨fun hfound ↦ (by cases hfound), fun _ other ↦ ?_⟩
        rw [get?_insert]
        by_cases heq : node = other
        · rw [if_pos heq, ← heq, hwhite]
          simp
        · rw [if_neg heq, hfalse rfl other, get?_insert, if_neg heq]

theorem cyclic_of_searchFrom {sources : List Node} (hsources : ∀ source ∈ sources,
      source ∈ nodes edges) (hgray : ∀ node, colors.get? node ≠ some .gray)
    (hsearch : (searchFrom edges ((nodes edges).card + 1) sources colors).1 = true) :
    Cyclic edges := by
  induction sources generalizing colors with
  | nil => cases hsearch
  | cons first rest ih =>
    have hrest : ∀ source ∈ rest, source ∈ nodes edges :=
      fun source hsource ↦ hsources source (mem_cons_of_mem _ hsource)
    unfold searchFrom at hsearch
    cases hcolor : colors.get? first with
    | some color =>
      rw [hcolor] at hsearch
      exact ih hrest hgray hsearch
    | none =>
      rw [hcolor] at hsearch
      obtain ⟨htrue, hfalse⟩ := reporting_visit edges ((nodes edges).card + 1) first colors
        (hsources first mem_cons_self) hcolor
        (fun other hother ↦ absurd hother (hgray other)) (by omega)
      cases hfirst : visit edges ((nodes edges).card + 1) first colors with
      | mk found between =>
        rw [hfirst] at htrue hfalse
        simp only [hfirst] at hsearch
        cases found with
        | true => exact htrue rfl
        | false => exact ih hrest (fun node hnode ↦ hgray node ((hfalse rfl node).mp hnode)) hsearch

theorem hasCycle_eq_false_iff (edges : List (Node × Node)) :
    hasCycle edges = false ↔ Acyclic edges := by
  refine ⟨acyclic_of_hasCycle, fun hacyclic ↦ ?_⟩
  by_contra hfound
  obtain ⟨node, hcycle⟩ := cyclic_of_searchFrom
    (fun source hsource ↦ Finset.mem_union_left _ (mem_toFinset.mpr hsource))
    (fun _ hgray ↦ by cases hgray) (Bool.eq_true_of_not_eq_false hfound)
  exact hacyclic node hcycle

end DepthFirst

end AbsoluteZero.Foundations

import AbsoluteZero.Foundations.OrderedDict
import AbsoluteZero.Foundations.SortedSet
import Mathlib.Data.String.Basic
import Mathlib.Order.Bounds.Defs

/-!
# Architecture layers

`layers` relaxes a table in place: a pass puts each module above the highest one that it imports, so
it stands at the length of the longest chain that the passes see (`seen_relax`). The passes are
bounded, so the layers are the depths exactly if longest chains are seen in time (`layers_exact`).
-/

namespace AbsoluteZero.Ums

open Foundations List

/-! ### Relaxation in place -/

/-- What some nodes import, and the order in which they are visited. -/
structure ImportGraph (Node : Type) where
  imports : Node → List Node
  order : List Node
  nodup : order.Nodup
  closed : ∀ node, ∀ target ∈ imports node, target ∈ order

namespace ImportGraph

variable {Node : Type} [DecidableEq Node] (graph : ImportGraph Node)

/-- One turn of the inner loop: a node without imports keeps its layer. -/
def raise (layers : Node → Nat) (node : Node) : Node → Nat :=
  Function.update layers node (((graph.imports node).map layers).max?.elim (layers node) (· + 1))

def pass (layers : Node → Nat) : Node → Nat := graph.order.foldl graph.raise layers

/-- At most so many passes; the first one that changes nothing is the last. -/
def relax : Nat → (Node → Nat) → Node → Nat
  | 0, layers => layers
  | passes + 1, layers =>
    let next := graph.pass layers
    if ∀ node ∈ graph.order, next node = layers node then layers else relax passes next

/-- A chain of imports from a node, with its length and the number of passes that see it: the import
of a node that stands earlier is seen in the pass that sees the rest, any other one in the next. -/
inductive Chain : Node → Nat → Nat → Prop
  | nil (node : Node) : Chain node 0 0
  | cons {node target : Node} {length passes : Nat} (himports : target ∈ graph.imports node)
      (hchain : Chain target length passes) : Chain node (length + 1)
        (if graph.order.idxOf target < graph.order.idxOf node then max passes 1 else passes + 1)

def IsDepth (node : Node) : Nat → Prop :=
  IsGreatest {length | ∃ passes, graph.Chain node length passes}

/-- The length of the longest chain from a node that so many passes see. -/
def Seen (passes : Nat) (node : Node) : Nat → Prop :=
  IsGreatest {length | ∃ needed ≤ passes, graph.Chain node length needed}

variable {graph} {passes : Nat} {layers : Node → Nat}

theorem seen_zero (node : Node) : graph.Seen 0 node 0 := by
  refine ⟨⟨0, Nat.le_refl 0, .nil node⟩, ?_⟩
  rintro length ⟨needed, hneeded, hchain⟩
  cases hchain with
  | nil => exact Nat.le_refl 0
  | cons => split at hneeded <;> omega

/-- What a turn writes, if the imports that stand earlier have been seen once more than the
others. -/
theorem seen_raise {node : Node} (hnode : graph.Seen passes node (layers node))
    (hseen : ∀ target ∈ graph.imports node, graph.Seen
      (if graph.order.idxOf target < graph.order.idxOf node then passes + 1 else passes) target
      (layers target)) :
    graph.Seen (passes + 1) node (graph.raise layers node node) := by
  unfold raise
  rw [Function.update_self]
  cases hmax : ((graph.imports node).map layers).max? with
  | none =>
    have hnil : graph.imports node = [] := map_eq_nil_iff.mp (max?_eq_none_iff.mp hmax)
    obtain ⟨⟨needed, hneeded, hchain⟩, -⟩ := hnode
    refine ⟨⟨needed, Nat.le_succ_of_le hneeded, hchain⟩, ?_⟩
    rintro length ⟨more, -, hother⟩
    cases hother with
    | nil => exact Nat.zero_le _
    | cons himports => simp [hnil] at himports
  | some highest =>
    obtain ⟨hmem, hbound⟩ := max?_eq_some_iff.mp hmax
    obtain ⟨target, htarget, rfl⟩ := mem_map.mp hmem
    obtain ⟨⟨needed, hneeded, hchain⟩, -⟩ := hseen target htarget
    refine ⟨⟨_, ?_, .cons htarget hchain⟩, ?_⟩
    · split at hneeded <;> split <;> omega
    · rintro length ⟨needed, hneeded, hchain⟩
      cases hchain with
      | nil => exact Nat.zero_le _
      | cons himports hchain =>
        have hle := (hseen _ himports).2 ⟨_, by split at hneeded <;> split <;> omega, hchain⟩
        exact Nat.succ_le_succ (hle.trans (hbound _ (mem_map_of_mem himports)))

theorem idxOf_lt_iff {done rest : List Node} {node : Node}
    (horder : graph.order = done ++ node :: rest) (target : Node) :
    graph.order.idxOf target < graph.order.idxOf node ↔ target ∈ done := by
  have hapart := (nodup_append.mp (horder ▸ graph.nodup)).2.2
  have hnode : node ∉ done := fun hmem ↦ hapart _ hmem _ mem_cons_self rfl
  rw [horder, idxOf_append_of_notMem hnode, idxOf_cons_self]
  by_cases hmem : target ∈ done
  · rw [idxOf_append_of_mem hmem]
    exact iff_of_true (idxOf_lt_length_of_mem hmem) hmem
  · rw [idxOf_append_of_notMem hmem]
    exact iff_of_false (by omega) hmem

/-- The invariant of a pass: the nodes behind it have been seen once more than those ahead. -/
theorem seen_foldl {done rest : List Node} (horder : graph.order = done ++ rest)
    (hseen : ∀ node ∈ graph.order,
      graph.Seen (if node ∈ done then passes + 1 else passes) node (layers node)) :
    ∀ node ∈ graph.order, graph.Seen (passes + 1) node (rest.foldl graph.raise layers node) := by
  induction rest generalizing done layers with
  | nil =>
    intro node hnode
    rw [append_nil] at horder
    have hdone := hseen node hnode
    rwa [if_pos (horder ▸ hnode)] at hdone
  | cons node rest ih =>
    have hplace := idxOf_lt_iff horder
    refine @ih _ (done ++ [node]) (by rw [horder, append_assoc, singleton_append])
      fun other hother ↦ ?_
    have hbefore := hseen other hother
    by_cases hself : other = node
    · subst hself
      rw [if_neg (mt (hplace other).mpr (Nat.lt_irrefl _))] at hbefore
      rw [if_pos (mem_append_right _ mem_cons_self)]
      refine seen_raise hbefore fun target htarget ↦ ?_
      rw [if_congr (hplace target) rfl rfl]
      exact hseen target (graph.closed other target htarget)
    · rw [raise, Function.update_of_ne hself]
      simpa [hself] using hbefore

/-- What some more passes compute: once a pass changes nothing, no further one would. -/
theorem seen_relax (more : Nat)
    (hseen : ∀ node ∈ graph.order, graph.Seen passes node (layers node)) :
    ∀ node ∈ graph.order, graph.Seen (passes + more) node (graph.relax more layers node) := by
  have hpass : ∀ {passes layers}, (∀ node ∈ graph.order, graph.Seen passes node (layers node)) →
      ∀ node ∈ graph.order, graph.Seen (passes + 1) node (graph.pass layers node) :=
    fun hseen ↦ seen_foldl (nil_append _).symm fun node hnode ↦ hseen node hnode
  induction more generalizing passes layers with
  | zero => exact hseen
  | succ more ih =>
    unfold relax
    dsimp only
    split
    · next hsettled =>
      generalize more + 1 = count
      induction count with
      | zero => exact hseen
      | succ count ihcount =>
        intro node hnode
        rw [← hsettled node hnode]
        exact hpass ihcount node hnode
    · rw [← Nat.add_assoc, Nat.add_right_comm]
      exact ih (hpass hseen)

end ImportGraph

/-! ### The layers of an extraction -/

/-- An edge of the dependency graph; a containment has no `dep`. -/
structure Edge where
  kind : String
  src : String
  dst : String
  dep : Option String

/-- What `model` reads for its layers: the modules with their paths, and the edges of the graph. -/
structure Extraction where
  modules : OrderedDict String String
  edges : List Edge

namespace Extraction

variable (extraction : Extraction)

def moduleOfFile : OrderedDict String String :=
  extraction.modules.items.foldl (fun dict item ↦ dict.insert item.2 item.1) .empty

/-- The internal module that an edge makes a module import; a module does not import itself. -/
def importOf? (edge : Edge) : Option (String × String) :=
  if edge.kind = "imports" ∧ edge.dep = some "internal" then
    let dst := String.ofList (edge.dst.toList.drop "module:".length)
    (extraction.moduleOfFile.get? (String.ofList (edge.src.toList.drop "file:".length))).bind
      fun src ↦
        if src ≠ "" ∧ dst ∈ extraction.modules.keys ∧ dst ≠ src then some (src, dst) else none
  else none

/-- `imports[dotted]`. -/
def importsOf (dotted : String) : List String :=
  ((extraction.edges.filterMap extraction.importOf?).filter fun found ↦ found.1 = dotted).map
    Prod.snd

variable {extraction} in
theorem mem_of_mem_importsOf {dotted target : String}
    (htarget : target ∈ extraction.importsOf dotted) : target ∈ extraction.modules.keys ∧
      ∃ edge ∈ extraction.edges, extraction.importOf? edge = some (dotted, target) := by
  obtain ⟨⟨src, dst⟩, hfound, rfl⟩ := mem_map.mp htarget
  obtain ⟨hfound, hsrc⟩ := mem_filter.mp hfound
  obtain ⟨edge, hedge, himport⟩ := mem_filterMap.mp hfound
  cases of_decide_eq_true hsrc
  refine ⟨?_, edge, hedge, himport⟩
  unfold importOf? at himport
  split at himport
  · obtain ⟨src, -, hguard⟩ := Option.bind_eq_some_iff.mp himport
    split at hguard
    · next hkeys =>
      cases hguard
      exact hkeys.2.1
    · cases hguard
  · cases himport

def graph : ImportGraph String where
  imports := extraction.importsOf
  order := extraction.modules.keys
  nodup := OrderedDict.nodup _
  closed _ _ htarget := (mem_of_mem_importsOf htarget).1

/-- `MAX_LAYER_PASSES`. -/
def maxLayerPasses : Nat := 50

/-- The layer of each module, in the order of their names. -/
def layers : List (String × Nat) :=
  (sortedBy id extraction.modules.keys).map fun dotted ↦
    (dotted, extraction.graph.relax maxLayerPasses (fun _ ↦ 0) dotted)

theorem seen_layers {item : String × Nat} (hitem : item ∈ extraction.layers) :
    extraction.graph.Seen maxLayerPasses item.1 item.2 := by
  obtain ⟨dotted, hdotted, rfl⟩ := mem_map.mp hitem
  have hseen := ImportGraph.seen_relax maxLayerPasses fun node (_ : node ∈ extraction.graph.order) ↦
    ImportGraph.seen_zero node
  exact hseen dotted (mem_sortedBy.mp hdotted)

theorem exists_mem_layers {dotted : String} (hdotted : dotted ∈ extraction.modules.keys) :
    ∃ layer, (dotted, layer) ∈ extraction.layers :=
  ⟨_, mem_map.mpr ⟨dotted, mem_sortedBy.mpr hdotted, rfl⟩⟩

/-- Every module is given the length of the longest chain of internal imports from it if and only if
the passes see one of the longest chains of each module. -/
theorem layers_exact : (∀ item ∈ extraction.layers, extraction.graph.IsDepth item.1 item.2) ↔
    ∀ dotted ∈ extraction.modules.keys, ∃ depth, ∃ passes ≤ maxLayerPasses,
      extraction.graph.IsDepth dotted depth ∧ extraction.graph.Chain dotted depth passes := by
  constructor
  · intro hdepth dotted hdotted
    obtain ⟨layer, hitem⟩ := extraction.exists_mem_layers hdotted
    obtain ⟨⟨passes, hpasses, hchain⟩, -⟩ := extraction.seen_layers hitem
    exact ⟨_, passes, hpasses, hdepth _ hitem, hchain⟩
  · intro hseen item hitem
    obtain ⟨⟨needed, -, hchain⟩, hbound⟩ := extraction.seen_layers hitem
    obtain ⟨dotted, hdotted, rfl⟩ := mem_map.mp hitem
    obtain ⟨depth, passes, hpasses, hdepth, hlongest⟩ := hseen dotted (mem_sortedBy.mp hdotted)
    have heq := Nat.le_antisymm (hbound ⟨passes, hpasses, hlongest⟩) (hdepth.2 ⟨needed, hchain⟩)
    exact heq ▸ hdepth

/-- Every layer is the length of a chain of imports. The layers are the depths in any order of the
modules when no chain has more imports than there are passes, and whatever its length when the
imports go to modules that stand earlier. -/
theorem layers_of_bounded :
    (∀ item ∈ extraction.layers, ∃ passes, extraction.graph.Chain item.1 item.2 passes) ∧
    ((∀ dotted length passes, extraction.graph.Chain dotted length passes →
        length ≤ maxLayerPasses) →
      ∀ item ∈ extraction.layers, extraction.graph.IsDepth item.1 item.2) ∧
    ((∀ dotted, ∀ target ∈ extraction.graph.imports dotted,
        extraction.graph.order.idxOf target < extraction.graph.order.idxOf dotted) →
      ∀ item ∈ extraction.layers, extraction.graph.IsDepth item.1 item.2) := by
  have hdepth : (∀ dotted length passes, extraction.graph.Chain dotted length passes →
      passes ≤ maxLayerPasses) →
      ∀ item ∈ extraction.layers, extraction.graph.IsDepth item.1 item.2 := by
    intro hbound item hitem
    obtain ⟨⟨needed, -, hchain⟩, hgreatest⟩ := extraction.seen_layers hitem
    refine ⟨⟨needed, hchain⟩, ?_⟩
    rintro length ⟨passes, hother⟩
    exact hgreatest ⟨passes, hbound item.1 length passes hother, hother⟩
  refine ⟨fun item hitem ↦ ?_, fun hshort ↦ hdepth ?_, fun hbackward ↦ hdepth ?_⟩
  · obtain ⟨⟨passes, -, hchain⟩, -⟩ := extraction.seen_layers hitem
    exact ⟨passes, hchain⟩
  · -- a chain is seen in no more passes than it has imports
    intro dotted length passes hchain
    refine le_trans ?_ (hshort dotted length passes hchain)
    induction hchain with
    | nil => exact Nat.le_refl 0
    | cons himports hchain ih => split <;> omega
  · intro dotted length passes hchain
    refine le_trans (?_ : passes ≤ 1) (by decide)
    induction hchain with
    | nil => exact Nat.zero_le 1
    | cons himports hchain ih =>
      rw [if_pos (hbackward _ _ himports)]
      exact max_le ih (Nat.le_refl 1)

/-- Two digits, so that the modules come in the order of their names. -/
def moduleAt (index : Nat) : String := "m" ++ (index + 10).repr

def link (index : Nat) : Edge where
  kind := "imports"
  src := "file:" ++ moduleAt index ++ ".py"
  dst := "module:" ++ moduleAt (index + 1)
  dep := some "internal"

/-- Fifty-two modules, each of which imports the next one. -/
def longChain : Extraction where
  modules := (List.range 52).foldl
    (fun dict index ↦ dict.insert (moduleAt index) (moduleAt index ++ ".py")) .empty
  edges := (List.range 51).map link

theorem importOf?_link : ∀ index < 51,
    longChain.importOf? (link index) = some (moduleAt index, moduleAt (index + 1)) ∧
      longChain.modules.keys.idxOf (moduleAt index) <
        longChain.modules.keys.idxOf (moduleAt (index + 1)) := by
  decide +kernel

/-- Every import goes to a later module, and the first module is below the end of its chain. -/
theorem not_depths_longChain :
    (∀ dotted, ∀ target ∈ longChain.graph.imports dotted,
      longChain.graph.order.idxOf dotted < longChain.graph.order.idxOf target) ∧
    ¬ ∀ item ∈ longChain.layers, longChain.graph.IsDepth item.1 item.2 := by
  have hforward : ∀ dotted, ∀ target ∈ longChain.graph.imports dotted,
      longChain.graph.order.idxOf dotted < longChain.graph.order.idxOf target := by
    intro dotted target htarget
    obtain ⟨-, edge, hedge, himport⟩ := mem_of_mem_importsOf htarget
    obtain ⟨index, hindex, rfl⟩ := mem_map.mp hedge
    obtain ⟨hlink, hlt⟩ := importOf?_link index (mem_range.mp hindex)
    cases hlink.symm.trans himport
    exact hlt
  have hpasses : ∀ dotted length passes,
      longChain.graph.Chain dotted length passes → length = passes := by
    intro dotted length passes hchain
    induction hchain with
    | nil => rfl
    | cons himports _ ih => rw [if_neg (Nat.lt_asymm (hforward _ _ himports)), ih]
  have hlong : ∀ count index, index + count = 51 →
      ∃ passes, longChain.graph.Chain (moduleAt index) count passes := by
    intro count
    induction count with
    | zero => exact fun index _ ↦ ⟨0, .nil _⟩
    | succ count ih =>
      intro index hindex
      obtain ⟨passes, hchain⟩ := ih (index + 1) (by omega)
      have hfound := mem_filterMap.mpr ⟨link index,
        mem_map_of_mem (mem_range.mpr (by omega : index < 51)), (importOf?_link index (by omega)).1⟩
      exact ⟨_, .cons (mem_map.mpr ⟨_, mem_filter.mpr ⟨hfound, decide_eq_true rfl⟩, rfl⟩) hchain⟩
  refine ⟨hforward, fun hdepths ↦ ?_⟩
  obtain ⟨layer, hitem⟩ :=
    longChain.exists_mem_layers (by decide +kernel : moduleAt 0 ∈ longChain.modules.keys)
  obtain ⟨⟨needed, hneeded, hchain⟩, -⟩ := longChain.seen_layers hitem
  have hlayer := hpasses _ _ _ hchain
  have hdeep : 51 ≤ layer := (hdepths _ hitem).2 (hlong 51 0 rfl)
  have hbound : needed ≤ 50 := hneeded
  omega

end Extraction

end AbsoluteZero.Ums

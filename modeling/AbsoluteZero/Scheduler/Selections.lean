import AbsoluteZero.Scheduler.Blocks
import Mathlib.Data.List.TakeWhile
import Mathlib.Data.String.Basic

/-!
# Selections

An activation selects in the sorted groups up to the first one that has a selection already, and
there it raises. When the selections made before are in order (`WorkflowRun.InOrder`) it selects in
every group, and from then on every group of an active workflow has a selection
(`World.allSelected_perform`).
-/

namespace AbsoluteZero.Scheduler

open Foundations List

/-! ### Runs after a block -/

theorem WorkflowRun.ending_frame (run : WorkflowRun) (unit : String) (outcome : UnitState) :
    (∀ other, (run.after (run.ending unit outcome)).progress.unitState.get? other =
        if unit = other then some outcome else run.progress.unitState.get? other) ∧
      (run.after (run.ending unit outcome)).progress.selected = run.progress.selected ∧
      ((run.after (run.ending unit outcome)).progress.status = some .active →
        run.progress.status = some .active) := by
  have hget : ∀ other, (run.progress.unitState.insert unit outcome).get? other =
      if unit = other then some outcome else run.progress.unitState.get? other :=
    fun other ↦ OrderedDict.get?_insert _ unit other outcome
  rcases Consistent.settlement_cases (run.at (run.progress.apply (.terminal unit outcome))) with
    ⟨hnone, -⟩ | ⟨hactive, status, hsome, -⟩
  · have heq : run.ending unit outcome = [.terminal unit outcome] := congrArg (List.cons _) hnone
    rw [heq]
    exact ⟨hget, rfl, fun hactive ↦ hactive⟩
  · have heq : run.ending unit outcome = [.terminal unit outcome, .workflowTerminal status] :=
      congrArg (List.cons _) hsome
    rw [heq]
    exact ⟨hget, rfl, fun _ ↦ hactive⟩

/-- No group without a selection sorts after one with a selection. -/
def WorkflowRun.InOrder (run : WorkflowRun) : Prop :=
  ∀ first ∈ run.workflow.groups.keys, ∀ second ∈ run.workflow.groups.keys,
    run.progress.selected.get? first ≠ none → run.progress.selected.get? second = none →
    second < first

instance (run : WorkflowRun) : Decidable run.InOrder :=
  inferInstanceAs (Decidable (∀ first ∈ run.workflow.groups.keys, ∀ second ∈ _, _))

def WorkflowRun.AllSelected (run : WorkflowRun) : Prop :=
  run.progress.status = some .active → ∀ group ∈ run.workflow.groups.keys,
    run.progress.selected.get? group ≠ none

variable {run : WorkflowRun}

theorem WorkflowRun.Block.quiet {block : List Record}
    (hblock : run.Block block) (hne : block ≠ [.activated]) :
    ((run.after block).progress.status = some .active → run.progress.status = some .active) ∧
      ∀ group, run.progress.selected.get? group ≠ none →
        (run.after block).progress.selected.get? group ≠ none := by
  cases hblock with
  | activated hidle => exact absurd rfl hne
  | cancelled hactive => exact ⟨nofun, fun _ hselected ↦ hselected⟩
  | selection group unit members hmembers hunit hunselected =>
    obtain ⟨hstatus, -, hselected⟩ := Consistent.selection_frame unit hmembers
    constructor
    · rw [hstatus]
      exact fun hactive ↦ hactive
    · intro other hother
      rw [hselected, OrderedDict.get?_insert]
      split
      · intro heq
        cases heq
      · exact hother
  | dispatched unit hready => exact ⟨fun hactive ↦ hactive, fun _ hselected ↦ hselected⟩
  | execution unit ok hexecuting =>
    cases ok with
    | true => exact ⟨fun hactive ↦ hactive, fun _ hselected ↦ hselected⟩
    | false =>
      obtain ⟨-, hselected, hstatus⟩ := run.ending_frame unit .failed
      exact ⟨hstatus, fun _ hother ↦ hselected ▸ hother⟩
  | judgement unit passed hawaited =>
    unfold WorkflowRun.judgement
    split
    · obtain ⟨-, hselected, hstatus⟩ := (run.after [.verdict unit passed]).ending_frame unit
        (if passed then .succeeded else .failed)
      exact ⟨hstatus, fun _ hother ↦ hselected ▸ hother⟩
    · exact ⟨fun hactive ↦ hactive, fun _ hselected ↦ hselected⟩

theorem WorkflowRun.activated_notMem_blocks (run : WorkflowRun) {operation : Operation}
    (hoperation : operation ≠ .activate) : [.activated] ∉ run.blocks operation := by
  intro hmem
  have hselection : ∀ group unit, run.selection group unit ≠ [.activated] := by
    intro group unit heq
    unfold selection at heq
    split at heq
    · cases heq
    · cases heq
  have hexecution : ∀ (now : WorkflowRun) unit ok, now.execution unit ok ≠ [.activated] := by
    intro now unit ok heq
    cases ok with
    | true | false => cases heq
  cases operation with
  | activate => exact hoperation rfl
  | cancel =>
    simp only [blocks] at hmem
    split at hmem
    · simp at hmem
    · simp at hmem
  | selectBranch group unit =>
    simp only [blocks] at hmem
    split at hmem
    · exact hselection group unit (mem_singleton.mp hmem).symm
    · simp at hmem
  | dispatchNext answer =>
    simp only [blocks] at hmem
    split at hmem
    · simp at hmem
    · split at hmem
      · rcases mem_cons.mp hmem with heq | hmem
        · simp at heq
        · cases answer with
          | raised => simp at hmem
          | finished ok => exact hexecution _ _ ok (mem_singleton.mp hmem).symm
      · simp at hmem
  | onExecResult unit ok =>
    simp only [blocks] at hmem
    split at hmem
    · exact hexecution run unit ok (mem_singleton.mp hmem).symm
    · simp at hmem
  | onVerdict unit passed =>
    simp only [blocks] at hmem
    split at hmem
    · have heq := mem_singleton.mp hmem
      cases heq
    · simp at hmem

theorem WorkflowRun.selections_frame (run : WorkflowRun) (groups : List String)
    (hgroups : ∀ group ∈ groups, group ∈ run.workflow.groups.keys) :
    let next := run.after
      (groups.map fun group ↦ run.selection group (run.workflow.best group)).flatten
    (∀ unit, next.progress.unitState.get? unit = some .notExecuted ∨
        next.progress.unitState.get? unit = run.progress.unitState.get? unit) ∧
      ∀ group, next.progress.selected.get? group =
        if group ∈ groups then some (run.workflow.best group)
        else run.progress.selected.get? group := by
  induction groups generalizing run with
  | nil => exact ⟨fun _ ↦ .inr rfl, fun _ ↦ rfl⟩
  | cons head rest ih =>
    intro next
    obtain ⟨members, hmembers, -, -⟩ := run.workflow.best_mem (hgroups head mem_cons_self)
    let middle := run.after (run.selection head (run.workflow.best head))
    have hnext : next = middle.after (rest.map fun group ↦
        middle.selection group (middle.workflow.best group)).flatten := by
      show run.after (run.selection _ _ ++ _) = _
      rw [after_append]
      rfl
    obtain ⟨hstates, hselected⟩ := ih middle fun group hgroup ↦
      hgroups group (mem_cons_of_mem _ hgroup)
    have hfirst : ∀ unit, middle.progress.unitState.get? unit = some .notExecuted ∨
        middle.progress.unitState.get? unit = run.progress.unitState.get? unit := by
      intro unit
      rw [Consistent.get?_selection _ hmembers]
      split
      · exact .inl rfl
      · exact .inr rfl
    rw [hnext]
    constructor
    · intro unit
      rcases hstates unit with hlost | hsame
      · exact .inl hlost
      · rw [hsame]
        exact hfirst unit
    · intro group
      rw [hselected, (Consistent.selection_frame _ hmembers).2.2, OrderedDict.get?_insert]
      by_cases hrest : group ∈ rest
      · rw [if_pos hrest, if_pos (mem_cons_of_mem _ hrest)]
        rfl
      · rw [if_neg hrest]
        by_cases hhead : head = group
        · rw [if_pos hhead, if_pos (hhead ▸ mem_cons_self), hhead]
        · have hnot : group ∉ head :: rest := by
            intro hmem
            rcases mem_cons.mp hmem with heq | hmem
            · exact hhead heq.symm
            · exact hrest hmem
          rw [if_neg hhead, if_neg hnot]

theorem mem_takeWhile_of_sorted {Item : Type} [LinearOrder Item] {condition : Item → Bool}
    {items : List Item} (hsorted : items.Pairwise (· ≤ ·)) {item : Item} (hitem : item ∈ items)
    (hbefore : ∀ other ∈ items, other ≤ item → condition other = true) :
    item ∈ items.takeWhile condition := by
  induction items with
  | nil => exact absurd hitem not_mem_nil
  | cons head rest ih =>
    obtain ⟨hhead, hrest⟩ := pairwise_cons.mp hsorted
    rcases mem_cons.mp hitem with rfl | hmem
    · rw [takeWhile_cons_of_pos (hbefore item hitem le_rfl)]
      exact mem_cons_self
    · rw [takeWhile_cons_of_pos (hbefore head mem_cons_self (hhead item hmem))]
      exact mem_cons_of_mem _ (ih hrest hmem fun other hother ↦
        hbefore other (mem_cons_of_mem _ hother))

/-- Assumes: the selections are in order. An activation selects in every group that has no
selection. -/
theorem WorkflowRun.mem_openGroups_iff
    (hsorted : run.InOrder) {group : String} (hgroup : group ∈ run.workflow.groups.keys) :
    group ∈ run.openGroups ↔ run.progress.selected.get? group = none := by
  constructor
  · intro hmem
    have htrue := mem_takeWhile_imp hmem
    exact of_decide_eq_true htrue
  · intro hopen
    refine mem_takeWhile_of_sorted (pairwise_insertionSort _ _)
      ((mem_insertionSort _).mpr hgroup) fun other hother hle ↦ ?_
    have hknown : other ∈ run.workflow.groups.keys := (mem_insertionSort _).mp hother
    by_contra hselected
    have hlt := hsorted other hknown group hgroup (fun hnone ↦ hselected (decide_eq_true hnone))
      hopen
    exact absurd hlt (not_lt.mpr hle)

theorem WorkflowRun.get?_selected_activation (hinOrder : run.InOrder)
    {group : String} (hgroup : group ∈ run.workflow.groups.keys) :
    ((run.after [.activated]).after (run.openGroups.map fun group ↦
        run.selection group (run.workflow.best group)).flatten).progress.selected.get? group =
      some ((run.progress.selected.get? group).getD (run.workflow.best group)) := by
  have hknown : ∀ group ∈ run.openGroups, group ∈ run.workflow.groups.keys := fun group hgroup ↦
    (mem_insertionSort _).mp (takeWhile_subset _ hgroup)
  obtain ⟨-, hselected⟩ := (run.after [.activated]).selections_frame run.openGroups hknown
  refine (hselected group).trans ?_
  by_cases hopen : run.progress.selected.get? group = none
  · rw [if_pos ((mem_openGroups_iff hinOrder hgroup).mpr hopen), hopen]
    rfl
  · rw [if_neg (mt (mem_openGroups_iff hinOrder hgroup).mp hopen)]
    obtain ⟨chosen, hchosen⟩ := Option.ne_none_iff_exists'.mp hopen
    show run.progress.selected.get? group = _
    rw [hchosen]
    rfl

def WorkflowRun.SelectsAll (run : WorkflowRun) : Operation → Prop
  | .activate => run.progress.status = none → run.InOrder
  | _ => True

theorem WorkflowRun.AllSelected.reads {run final : WorkflowRun} {blocks : List (List Record)}
    (hall : run.AllSelected) (hreads : Reads BlockStep run blocks final)
    (hquiet : [.activated] ∉ blocks) : final.AllSelected := by
  refine hreads.keeps hall fun state block next hmem hstep hstate ↦ ?_
  obtain ⟨hblock, rfl⟩ := hstep
  obtain ⟨hstatus, hkept⟩ := hblock.quiet fun heq ↦ hquiet (heq ▸ hmem)
  intro hactive group hgroup
  exact hkept group (hstate (hstatus hactive) group hgroup)

/-- Assumes: an activation finds the selections in order. After the call every group of an active
workflow has a selection. -/
theorem WorkflowRun.AllSelected.blocks (hall : run.AllSelected)
    {operation : Operation} (hselects : run.SelectsAll operation)
    (hreads : Reads BlockStep run (run.blocks operation)
      (run.after (run.blocks operation).flatten)) :
    (run.after (run.blocks operation).flatten).AllSelected := by
  by_cases hoperation : operation = .activate ∧ run.progress.status = none
  · obtain ⟨rfl, hidle⟩ := hoperation
    have hblocks : run.blocks .activate = [.activated] :: run.openGroups.map fun group ↦
        run.selection group (run.workflow.best group) := if_pos hidle
    rw [hblocks, flatten_cons, after_append]
    intro _ group hgroup
    rw [get?_selected_activation (hselects hidle) hgroup]
    exact nofun
  · have hquiet : [.activated] ∉ run.blocks operation := by
      by_cases hactivate : operation = .activate
      · subst hactivate
        rw [show run.blocks .activate = [] from if_neg fun hidle ↦ hoperation ⟨rfl, hidle⟩]
        exact not_mem_nil
      · exact run.activated_notMem_blocks hactivate
    exact hall.reads hreads hquiet

/-- Each of the operations meets the condition when it is called. -/
def World.Each (condition : WorkflowRun → Operation → Prop) (world : World) : List Operation → Prop
  | [] => True
  | operation :: rest => condition world.run operation ∧
    (operation.call.after world).Each condition rest

instance World.decidableEach {condition : WorkflowRun → Operation → Prop}
    [∀ run operation, Decidable (condition run operation)] (world : World) :
    (operations : List Operation) → Decidable (world.Each condition operations)
  | [] => inferInstanceAs (Decidable True)
  | operation :: rest =>
    haveI : Decidable ((operation.call.after world).Each condition rest) :=
      decidableEach (operation.call.after world) rest
    inferInstanceAs (Decidable (condition world.run operation ∧ _))

/-- Assumes: each activation finds the selections in order. After the calls every group of an active
workflow has a selection. -/
theorem World.allSelected_perform {world : World} (hsound : world.Sound)
    (hrun : world.run.Consistent) (hall : world.run.AllSelected) {operations : List Operation}
    (hselects : world.Each WorkflowRun.SelectsAll operations) :
    (world.perform operations).run.AllSelected := by
  induction operations generalizing world with
  | nil => exact hall
  | cons operation rest ih =>
    obtain ⟨hfirst, hrest⟩ := hselects
    obtain ⟨hafter, hreads⟩ := writes_call hsound hrun operation
    obtain ⟨hsound', hrun', -⟩ := after_call hsound hrun operation
    have hall' : (operation.call.after world).run.AllSelected := by
      unfold WorkflowRun.AllSelected
      rw [hafter, progress_steppedAll, workflow_steppedAll]
      exact hall.blocks hfirst hreads
    exact ih hsound' hrun' hall' hrest

end AbsoluteZero.Scheduler

import AbsoluteZero.Scheduler.Selections

/-!
# When a run gets stuck

An active workflow completes only when every unit has its outcome, and nothing gives one to a unit
behind a failed or an unselected one. A run is stuck when such units are all that is left, and never
as long as every call spares them (`WorkflowRun.Spares`, `World.unstuck_of_spares`).
-/

namespace AbsoluteZero.Scheduler

open Foundations OrderedDict List WorkflowRun

def World.NeverReady (world : World) (unit : String) : Prop :=
  ∀ further, unit ∉ (world.perform further).run.ready

/-- Assumes: every dispatched unit has its outcome. An active run has a ready unit. Once the pending
units can never become ready the run is not active, and if it was not cancelled either, it is
completed when the blocking units have succeeded or are not executed. -/
structure World.Unstuck (world : World) : Prop where
  ready : world.run.progress.status = some .active →
    (∀ unit ∈ world.run.workflow.units.keys,
      world.run.progress.unitState.get? unit ≠ some .executing) →
    world.run.ready ≠ []
  settled : (∀ unit ∈ world.run.workflow.units.keys,
      world.run.progress.unitState.get? unit ≠ some .executing) →
    (∀ unit, world.run.progress.unitState.get? unit = some .pending → world.NeverReady unit) →
    world.run.progress.status ≠ some .active ∧
      (world.run.progress.status ≠ none → world.run.progress.status ≠ some .cancelled →
        (∀ item ∈ world.run.workflow.units.items, item.2.priorityBand.blocking = true →
          world.run.progress.unitState.get? item.1 = some .succeeded ∨
            world.run.progress.unitState.get? item.1 = some .notExecuted) →
        world.run.progress.status = some .completed)

/-! ### Sparing what is left -/

/-- The unit is outside the branch that its group has, or gets by default. -/
def WorkflowRun.Loses (run : WorkflowRun) (unit : String) : Prop :=
  ∃ group ∈ run.workflow.groupOf unit,
    (run.progress.selected.get? group).getD (run.workflow.best group) ≠ unit

def WorkflowRun.failing (run : WorkflowRun) : Operation → Option String
  | .dispatchNext (.finished false) => if run.collaborators then run.ready.head? else none
  | .onExecResult unit false =>
    if run.progress.unitState.get? unit = some .executing then some unit else none
  | .onVerdict unit false =>
    if unit ∈ run.progress.execOk ∧ run.progress.unitState.get? unit = some .executing then
      some unit
    else none
  | _ => none

def Workflow.blocks (workflow : Workflow) (unit : String) : Prop :=
  ∃ item ∈ workflow.units.items, item.1 = unit ∧ item.2.priorityBand.blocking = true

/-- The failure of the unit leaves nothing behind it: in an active workflow the unit is of a
blocking band, or its successors are not executed. -/
def WorkflowRun.SparesFailed (run : WorkflowRun) (unit : String) : Prop :=
  run.progress.status = some .active → run.workflow.blocks unit ∨
    ∀ edge ∈ run.workflow.edges, edge.1 = unit →
      run.progress.unitState.get? edge.2 = some .notExecuted

/-- The operation leaves no unit behind one that failed or that is unselected. An activation finds
the selections in order, and the units behind an unselected one are unselected. -/
def WorkflowRun.Spares (run : WorkflowRun) : Operation → Prop
  | .activate => run.progress.status = none → run.InOrder ∧
    ∀ edge ∈ run.workflow.edges, run.Loses edge.1 → run.Loses edge.2
  | operation => ∀ unit ∈ run.failing operation, run.SparesFailed unit

instance (run : WorkflowRun) (unit : String) : Decidable (run.Loses unit) :=
  inferInstanceAs (Decidable (∃ group ∈ run.workflow.groupOf unit, _))

instance (run : WorkflowRun) (unit : String) : Decidable (run.SparesFailed unit) :=
  inferInstanceAs (Decidable (_ → (∃ item ∈ run.workflow.units.items, _) ∨ _))

instance (run : WorkflowRun) (failing : Option String) :
    Decidable (∀ unit ∈ failing, run.SparesFailed unit) :=
  match failing with
  | none => .isTrue nofun
  | some unit => decidable_of_iff (run.SparesFailed unit) (by simp)

instance (run : WorkflowRun) (operation : Operation) : Decidable (run.Spares operation) :=
  match operation with
  | .activate => inferInstanceAs (Decidable (_ → _ ∧ _))
  | .cancel | .selectBranch _ _ | .dispatchNext _ | .onExecResult _ _ | .onVerdict _ _ =>
    inferInstanceAs (Decidable (∀ unit ∈ run.failing _, run.SparesFailed unit))

/-- What spared calls keep: in an active workflow every group has a selection, and nothing is
pending behind a unit that failed or is not executed. -/
structure WorkflowRun.Clear (run : WorkflowRun) : Prop where
  selected : run.AllSelected
  spared : run.progress.status = some .active → ∀ edge ∈ run.workflow.edges,
    run.progress.unitState.get? edge.1 = some .failed ∨
      run.progress.unitState.get? edge.1 = some .notExecuted →
    run.progress.unitState.get? edge.2 = some .notExecuted

namespace WorkflowRun.Clear

variable {run : WorkflowRun}

theorem exists_ready (hclear : run.Clear) (hrun : run.Consistent)
    (hactive : run.progress.status = some .active) (hquiet : ∀ unit ∈ run.workflow.units.keys,
      run.progress.unitState.get? unit ≠ some .executing) (position : Nat) :
    ∀ unit, run.workflow.canonicalOrder.idxOf unit = position →
      run.progress.unitState.get? unit = some .pending → run.ready ≠ [] := by
  induction position using Nat.strong_induction_on with
  | _ position ih =>
    intro unit hposition hpending hnone
    have hunit : unit ∈ run.workflow.units.keys :=
      (hrun.known unit).mp (by rw [hpending]; rfl)
    have hallowed : run.branchAllows unit = true := by
      rw [branchAllows_iff]
      intro group hgroup
      obtain ⟨entry, hentry, hname⟩ := Option.bind_eq_some_iff.mp hgroup
      obtain ⟨members, hmembers, -⟩ := run.workflow.named_members (unit, entry)
        ((get?_eq_some_iff _).mp hentry) group hname
      have hknown : group ∈ run.workflow.groups.keys :=
        mem_map_of_mem (f := Prod.fst) ((get?_eq_some_iff _).mp hmembers)
      obtain ⟨chosen, hchosen⟩ := Option.ne_none_iff_exists'.mp
        (hclear.selected hactive group hknown)
      rw [hchosen]
      by_contra hne
      have hloser := (hrun.losers unit).mpr
        ⟨group, chosen, hgroup, hchosen, fun heq ↦ hne (congrArg some heq)⟩
      rw [hpending] at hloser
      cases hloser
    have hblocked : ∃ predecessor ∈ run.workflow.predecessors unit,
        run.progress.unitState.get? predecessor ≠ some .succeeded := by
      by_contra hall
      push Not at hall
      have hmem : unit ∈ run.ready := Consistent.mem_ready_iff.mpr
        ⟨hactive, run.workflow.order_perm.mem_iff.mpr hunit, hpending, hallowed, hall⟩
      rw [hnone] at hmem
      cases hmem
    obtain ⟨predecessor, hpredecessor, hstate⟩ := hblocked
    obtain ⟨edge, hedge, rfl⟩ := mem_map.mp hpredecessor
    obtain ⟨hmem, hlast⟩ := mem_filter.mp hedge
    obtain rfl : edge.2 = unit := of_decide_eq_true hlast
    obtain ⟨hknown, -, hbefore⟩ := run.workflow.edges_forward edge hmem
    obtain ⟨state, hget⟩ := hrun.state_of_mem hknown
    -- the predecessor has not succeeded, and a failed or unselected one leaves nothing behind
    cases state with
    | pending => exact ih _ (hposition ▸ hbefore) edge.1 rfl hget hnone
    | executing => exact hquiet edge.1 hknown hget
    | succeeded => exact hstate hget
    | failed =>
      have hspared := hclear.spared hactive edge hmem (.inl hget)
      rw [hpending] at hspared
      cases hspared
    | notExecuted =>
      have hspared := hclear.spared hactive edge hmem (.inr hget)
      rw [hpending] at hspared
      cases hspared

theorem ready_ne_nil (hclear : run.Clear) (hrun : run.Consistent)
    (hunits : run.workflow.units.keys ≠ []) (hactive : run.progress.status = some .active)
    (hquiet : ∀ unit ∈ run.workflow.units.keys,
      run.progress.unitState.get? unit ≠ some .executing) : run.ready ≠ [] := by
  obtain ⟨unit, hunit, hopen⟩ := hrun.unfinished hactive hunits
  obtain ⟨state, hstate⟩ := hrun.state_of_mem hunit
  have hnot : state.terminal = false := hopen state hstate
  cases state with
  | pending => exact hclear.exists_ready hrun hactive hquiet _ unit rfl hstate
  | executing => exact absurd hstate (hquiet unit hunit)
  | succeeded | failed | notExecuted => exact nomatch hnot

end WorkflowRun.Clear

theorem World.unstuck_of_clear {world : World} (hclear : world.run.Clear)
    (hrun : world.run.Consistent) (hunits : world.run.workflow.units.keys ≠ []) :
    world.Unstuck where
  ready := fun hactive hquiet ↦ hclear.ready_ne_nil hrun hunits hactive hquiet
  settled := by
    intro hquiet hnever
    have hactive : world.run.progress.status ≠ some .active := by
      intro hactive
      obtain ⟨unit, hunit⟩ := exists_mem_of_ne_nil _
        (hclear.ready_ne_nil hrun hunits hactive hquiet)
      exact hnever unit (of_mem_ready hunit).2 [] hunit
    refine ⟨hactive, fun hidle hcancelled hblocking ↦ ?_⟩
    obtain ⟨status, hstatus⟩ := Option.ne_none_iff_exists'.mp hidle
    cases status with
    | active => exact absurd hstatus hactive
    | completed => exact hstatus
    | stalled =>
      refine absurd (fun item hitem hband hfailed ↦ ?_) (hrun.stalled hstatus)
      rcases hblocking item hitem hband with hstate | hstate
      · rw [hstate] at hfailed
        cases hfailed
      · rw [hstate] at hfailed
        cases hfailed
    | cancelled => exact absurd hstatus hcancelled

namespace WorkflowRun.Clear

variable {run : WorkflowRun}

/-- Only the status and the executions awaiting a verdict change, and the status not to active. -/
theorem of_states {next : WorkflowRun} (hclear : run.Clear)
    (hworkflow : next.workflow = run.workflow)
    (hstates : next.progress.unitState = run.progress.unitState)
    (hselected : next.progress.selected = run.progress.selected)
    (hstatus : next.progress.status = some .active → run.progress.status = some .active) :
    next.Clear where
  selected := by
    intro hactive
    rw [hworkflow, hselected]
    exact hclear.selected (hstatus hactive)
  spared := by
    intro hactive
    rw [hworkflow, hstates]
    exact hclear.spared (hstatus hactive)

theorem dispatched (hclear : run.Clear) {unit : String} (hready : unit ∈ run.ready) :
    (run.after [.dispatched unit]).Clear where
  selected := hclear.selected
  spared := by
    have hpending := (of_mem_ready hready).2
    have hget : ∀ other, (run.after [.dispatched unit]).progress.unitState.get? other =
        if unit = other then some .executing else run.progress.unitState.get? other :=
      fun other ↦ get?_insert _ unit other _
    intro hactive edge hedge hlost
    rw [hget] at hlost
    have hfirst : unit ≠ edge.1 := by
      rintro rfl
      simp at hlost
    rw [if_neg hfirst] at hlost
    have hspared := hclear.spared hactive edge hedge hlost
    have hsecond : unit ≠ edge.2 := by
      rintro rfl
      rw [hpending] at hspared
      cases hspared
    rw [hget, if_neg hsecond]
    exact hspared

theorem ending (hclear : run.Clear) {unit : String} {outcome : UnitState}
    (hnext : (run.after (run.ending unit outcome)).Consistent)
    (hexecuting : run.progress.unitState.get? unit = some .executing)
    (houtcome : outcome = .succeeded ∨ outcome = .failed ∧ run.SparesFailed unit) :
    (run.after (run.ending unit outcome)).Clear where
  selected := by
    intro hactive
    obtain ⟨-, hselected, hstatus⟩ := run.ending_frame unit outcome
    rw [hselected]
    exact hclear.selected (hstatus hactive)
  spared := by
    intro hactive edge hedge hlost
    obtain ⟨hget, -, hstatus⟩ := run.ending_frame unit outcome
    have hbefore := hstatus hactive
    rw [hget] at hlost ⊢
    have hsecond : run.progress.unitState.get? edge.2 = some .notExecuted := by
      by_cases hfirst : unit = edge.1
      · rw [if_pos hfirst] at hlost
        rcases houtcome with rfl | ⟨rfl, hspared⟩
        · simp at hlost
        · rcases hspared hbefore with ⟨item, hitem, hname, hband⟩ | hall
          · -- a failed blocking unit would have stalled the run
            have hfailed := (hget item.1).trans (if_pos hname.symm)
            exact absurd hfailed (hnext.unstalled hactive item hitem hband)
          · exact hall edge hedge hfirst.symm
      · rw [if_neg hfirst] at hlost
        exact hclear.spared hbefore edge hedge hlost
    have hne : unit ≠ edge.2 := by
      intro heq
      rw [← heq, hexecuting] at hsecond
      cases hsecond
    rw [if_neg hne]
    exact hsecond

end WorkflowRun.Clear

theorem WorkflowRun.Clear.activation {run : WorkflowRun} (hrun : run.Consistent)
    (hnext : (run.after (run.blocks .activate).flatten).Consistent)
    (hidle : run.progress.status = none) (hspares : run.Spares .activate) :
    (run.after (run.blocks .activate).flatten).Clear := by
  obtain ⟨hsorted, hedges⟩ := hspares hidle
  have hblocks : run.blocks .activate = [.activated] :: run.openGroups.map fun group ↦
      run.selection group (run.workflow.best group) := if_pos hidle
  have hknown : ∀ group ∈ run.openGroups, group ∈ run.workflow.groups.keys := fun group hgroup ↦
    (mem_insertionSort _).mp (takeWhile_subset _ hgroup)
  obtain ⟨hstates, -⟩ := (run.after [.activated]).selections_frame run.openGroups hknown
  rw [hblocks, flatten_cons, after_append] at hnext ⊢
  generalize hfinal : (run.after [.activated]).after (run.openGroups.map fun group ↦
    run.selection group (run.workflow.best group)).flatten = final at hnext ⊢
  have hworkflow : final.workflow = run.workflow := by
    rw [← hfinal]
    rfl
  have hstates' : ∀ unit, final.progress.unitState.get? unit = some .notExecuted ∨
      final.progress.unitState.get? unit = run.progress.unitState.get? unit := by
    rw [← hfinal]
    exact hstates
  have hselected : ∀ group ∈ run.workflow.groups.keys, final.progress.selected.get? group =
      some ((run.progress.selected.get? group).getD (run.workflow.best group)) := by
    intro group hgroup
    rw [← hfinal]
    exact get?_selected_activation hsorted hgroup
  -- the units that are not executed are the ones that lose
  have hloses : ∀ unit, final.progress.unitState.get? unit = some .notExecuted ↔
      run.Loses unit := by
    intro unit
    rw [hnext.losers unit, hworkflow]
    constructor
    · rintro ⟨group, chosen, hgroup, hchosen, hne⟩
      obtain ⟨members, hmembers, -⟩ := hnext.chosen group chosen hchosen
      have hmem : group ∈ run.workflow.groups.keys := by
        rw [hworkflow] at hmembers
        exact mem_map_of_mem (f := Prod.fst) ((get?_eq_some_iff _).mp hmembers)
      rw [hselected group hmem] at hchosen
      cases hchosen
      exact ⟨group, hgroup, hne⟩
    · rintro ⟨group, hgroup, hne⟩
      obtain ⟨entry, hentry, hname⟩ := Option.bind_eq_some_iff.mp hgroup
      obtain ⟨members, hmembers, -⟩ := run.workflow.named_members (unit, entry)
        ((get?_eq_some_iff _).mp hentry) group hname
      have hmem : group ∈ run.workflow.groups.keys :=
        mem_map_of_mem (f := Prod.fst) ((get?_eq_some_iff _).mp hmembers)
      exact ⟨group, _, hgroup, hselected group hmem, hne⟩
  constructor
  · intro _ group hgroup
    rw [hworkflow] at hgroup
    rw [hselected group hgroup]
    exact nofun
  · intro _ edge hedge hlost
    rw [hworkflow] at hedge
    have hfirst : final.progress.unitState.get? edge.1 = some .notExecuted := by
      rcases hlost with hfailed | hlost
      · rcases hstates' edge.1 with hlost | hsame
        · exact hlost
        · -- nothing has failed before the activation
          exact absurd hidle (hrun.started edge.1 .failed (hsame.symm.trans hfailed) nofun nofun).2
      · exact hlost
    exact (hloses edge.2).mpr (hedges edge hedge ((hloses edge.1).mp hfirst))

/-! ### Every call -/

namespace WorkflowRun.Clear

variable {run : WorkflowRun}

section

variable (hclear : run.Clear)

include hclear

theorem execution {unit : String} {ok : Bool}
    (hnext : (run.after (run.execution unit ok)).Consistent)
    (hexecuting : run.progress.unitState.get? unit = some .executing)
    (hspared : ok = false → run.SparesFailed unit) : (run.after (run.execution unit ok)).Clear := by
  cases ok with
  | true => exact hclear.of_states rfl rfl rfl fun hactive ↦ hactive
  | false => exact hclear.ending hnext hexecuting (.inr ⟨rfl, hspared rfl⟩)

theorem judgement {unit : String} {passed : Bool}
    (hnext : (run.after (run.judgement unit passed)).Consistent)
    (hspared : passed = false → run.progress.unitState.get? unit = some .executing →
      run.SparesFailed unit) : (run.after (run.judgement unit passed)).Clear := by
  have hverdict : (run.after [.verdict unit passed]).Clear :=
    hclear.of_states rfl rfl rfl fun hactive ↦ hactive
  unfold WorkflowRun.judgement at hnext ⊢
  by_cases hexecuting : run.progress.unitState.get? unit = some .executing
  · rw [if_pos hexecuting] at hnext ⊢
    refine hverdict.ending hnext hexecuting ?_
    cases passed with
    | true => exact .inl rfl
    | false => exact .inr ⟨rfl, hspared rfl hexecuting⟩
  · rw [if_neg hexecuting]
    exact hverdict

theorem unchanged {blocks : List (List Record)} (hblocks : blocks = []) :
    (run.after blocks.flatten).Clear := by
  rw [hblocks]
  exact hclear.of_states rfl rfl rfl fun hactive ↦ hactive

theorem selectBranch (group unit : String) :
    (run.after (run.blocks (.selectBranch group unit)).flatten).Clear := by
  by_cases hallowed : unit ∈ (run.workflow.groups.get? group).getD [] ∧
      run.progress.selected.get? group = none
  · have hblocks : run.blocks (.selectBranch group unit) = [run.selection group unit] :=
      if_pos hallowed
    rw [hblocks, flatten_cons, flatten_nil, append_nil]
    obtain ⟨members, hmembers, -⟩ := exists_of_mem_getD hallowed.1
    -- in an active workflow the group would have a selection
    have hquiet : (run.after (run.selection group unit)).progress.status ≠ some .active := by
      rw [(Consistent.selection_frame _ hmembers).1]
      intro hactive
      have hknown : group ∈ run.workflow.groups.keys :=
        mem_map_of_mem (f := Prod.fst) ((get?_eq_some_iff _).mp hmembers)
      exact hclear.selected hactive group hknown hallowed.2
    exact ⟨fun hactive ↦ absurd hactive hquiet, fun hactive ↦ absurd hactive hquiet⟩
  · exact hclear.unchanged (if_neg hallowed)

theorem dispatchNext (answer : EngineAnswer)
    (hnext : (run.after (run.blocks (.dispatchNext answer)).flatten).Consistent)
    (hspares : run.Spares (.dispatchNext answer)) :
    (run.after (run.blocks (.dispatchNext answer)).flatten).Clear := by
  cases hready : run.ready with
  | nil => exact hclear.unchanged (by simp only [WorkflowRun.blocks, hready])
  | cons unit rest =>
    by_cases hcollaborators : run.collaborators = true
    · have hmem : unit ∈ run.ready := hready ▸ mem_cons_self
      have hdispatched := hclear.dispatched hmem
      cases answer with
      | raised =>
        have hblocks : run.blocks (.dispatchNext .raised) = [[.dispatched unit]] := by
          simp [WorkflowRun.blocks, hready, hcollaborators]
        rw [hblocks]
        exact hdispatched
      | finished ok =>
        have hblocks : run.blocks (.dispatchNext (.finished ok)) =
            [[.dispatched unit], (run.after [.dispatched unit]).execution unit ok] := by
          simp [WorkflowRun.blocks, hready, hcollaborators]
        rw [hblocks, flatten_cons, flatten_cons, flatten_nil, append_nil, after_append] at hnext ⊢
        refine hdispatched.execution hnext (get?_insert_self _ _ _) ?_
        rintro rfl hactive
        have hfailing : unit ∈ run.failing (.dispatchNext (.finished false)) := by
          simp [failing, hready, hcollaborators]
        refine (hspares unit hfailing hactive).imp_right fun hall edge hedge hname ↦ ?_
        have hspared := hall edge hedge hname
        have hne : unit ≠ edge.2 := by
          intro heq
          rw [← heq, (of_mem_ready hmem).2] at hspared
          cases hspared
        exact (get?_insert _ _ _ _).trans ((if_neg hne).trans hspared)
    · exact hclear.unchanged (by simp [WorkflowRun.blocks, hready, hcollaborators])

/-- A call that spares what is left keeps the run clear. -/
theorem blocks (hrun : run.Consistent) {operation : Operation}
    (hnext : (run.after (run.blocks operation).flatten).Consistent)
    (hspares : run.Spares operation) : (run.after (run.blocks operation).flatten).Clear := by
  cases operation with
  | activate =>
    by_cases hidle : run.progress.status = none
    · exact activation hrun hnext hidle hspares
    · exact hclear.unchanged (if_neg hidle)
  | cancel =>
    by_cases hactive : run.progress.status = some .active
    · have hblocks : run.blocks .cancel = [[.cancelled]] := if_pos hactive
      rw [hblocks]
      exact hclear.of_states rfl rfl rfl nofun
    · exact hclear.unchanged (if_neg hactive)
  | selectBranch group unit => exact hclear.selectBranch group unit
  | dispatchNext answer => exact hclear.dispatchNext answer hnext hspares
  | onExecResult unit ok =>
    by_cases hexecuting : run.progress.unitState.get? unit = some .executing
    · have hblocks : run.blocks (.onExecResult unit ok) = [run.execution unit ok] :=
        if_pos hexecuting
      rw [hblocks, flatten_cons, flatten_nil, append_nil] at hnext ⊢
      refine hclear.execution hnext hexecuting ?_
      rintro rfl hactive
      exact hspares unit (by simp [failing, hexecuting]) hactive
    · exact hclear.unchanged (if_neg hexecuting)
  | onVerdict unit passed =>
    by_cases hawaited : unit ∈ run.progress.execOk
    · have hblocks : run.blocks (.onVerdict unit passed) = [run.judgement unit passed] :=
        if_pos hawaited
      rw [hblocks, flatten_cons, flatten_nil, append_nil] at hnext ⊢
      refine hclear.judgement hnext ?_
      rintro rfl hexecuting hactive
      exact hspares unit (by simp [failing, hawaited, hexecuting]) hactive
    · exact hclear.unchanged (if_neg hawaited)

end

end WorkflowRun.Clear

theorem World.clear_perform {world : World} (hsound : world.Sound) (hrun : world.run.Consistent)
    (hclear : world.run.Clear) {operations : List Operation}
    (hspares : world.Each WorkflowRun.Spares operations) :
    (world.perform operations).run.Clear := by
  induction operations generalizing world with
  | nil => exact hclear
  | cons operation rest ih =>
    obtain ⟨hfirst, hrest⟩ := hspares
    obtain ⟨hafter, hreads⟩ := writes_call hsound hrun operation
    have hnext := consistent_of_reads hreads hrun
    have hcleared : (operation.call.after world).run.Clear := by
      rw [hafter]
      refine (hclear.blocks hrun hnext hfirst).of_states ?_ ?_ ?_ ?_
      · exact workflow_steppedAll _ _
      · rw [progress_steppedAll]
        rfl
      · rw [progress_steppedAll]
        rfl
      · rw [progress_steppedAll]
        exact fun hactive ↦ hactive
    have hsound' : (operation.call.after world).Sound := hafter ▸ hsound.steppedAll _
    have hrun' : (operation.call.after world).run.Consistent :=
      hafter ▸ World.consistent_steppedAll hnext
    exact ih hsound' hrun' hcleared hrest

/-- Assumes: the workflow has a unit, as every compiled one, and each call spares what is left. The
run is not stuck. -/
theorem World.unstuck_of_spares (workflow : Workflow) (storage collaborators : Bool)
    (stored : List Record) (operations : List Operation) (hunits : workflow.units.keys ≠ [])
    (hspares : (World.mk (.new workflow storage collaborators) stored).Each
      WorkflowRun.Spares operations) :
    ((World.mk (.new workflow storage collaborators) stored).perform operations).Unstuck := by
  have hsound : (World.mk (.new workflow storage collaborators) stored).Sound := nofun
  have hnew := WorkflowRun.Consistent.new workflow storage collaborators
  have hclear : (WorkflowRun.new workflow storage collaborators).Clear := ⟨nofun, nofun⟩
  obtain ⟨hperform, -, hrun⟩ := perform_spec hsound hnew operations
  refine unstuck_of_clear (clear_perform hsound hnew hclear hspares) hrun ?_
  rw [hperform, workflow_steppedAll]
  exact hunits

def optionalChain : Workflow where
  workflowId := "wf-2"
  units := ((OrderedDict.empty.insert "u-1" { priorityBand := .optional, groupId := none }).insert
    "u-2" { priorityBand := .required, groupId := none }).insert
    "u-3" { priorityBand := .optional, groupId := none }
  edges := [("u-1", "u-3")]
  canonicalOrder := ["u-1", "u-2", "u-3"]
  groups := .empty
  order_perm := .refl _
  edges_forward := by decide
  members_named := nofun
  named_members := by decide

/-- The last optional unit fails: nothing is behind it, and the workflow completes. -/
theorem World.unstuck_of_spares_sample :
    ((World.mk (.new optionalChain true true) []).perform [.activate,
      .dispatchNext (.finished true), .onVerdict "u-1" true, .dispatchNext (.finished true),
      .onVerdict "u-2" true, .dispatchNext (.finished false)]).Unstuck :=
  unstuck_of_spares optionalChain true true [] _ (by decide) (by decide)

/-- The first optional unit fails and the required one succeeds. The workflow stays active, though
nothing is executing and the unit that is left is not ready. -/
theorem World.stuck_behind_failure :
    ¬ ((World.fresh optionalChain true).perform [.activate, .dispatchNext (.finished false),
      .dispatchNext (.finished true), .onVerdict "u-2" true]).Unstuck := by
  intro hunstuck
  exact hunstuck.ready (by decide) (by decide) (by decide)

end AbsoluteZero.Scheduler

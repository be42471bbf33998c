import AbsoluteZero.Foundations.Ranked
import AbsoluteZero.Scheduler.Machine

/-!
# Resuming a run

Replaying the journal of a run that started with an empty one gives the progress of the live run
after every sequence of calls (`WorkflowRun.replay_eq_live`). A resumed run is still marked as
replaying and writes no record, so its journal agrees with it exactly as long as nothing happens to
it (`World.resumed_replay_iff`).
-/

namespace AbsoluteZero.Scheduler

open Foundations Call Progress World

theorem World.reads_journal (workflow : Workflow) (collaborators : Bool)
    (operations : List Operation) :
    let world := (World.fresh workflow collaborators).perform operations
    Reads (Step workflow) (.initial workflow) world.journal world.run.progress ∧
      world.run.workflow = workflow := by
  have hsound : (World.fresh workflow collaborators).Sound := nofun
  obtain ⟨-, records, hadvanced⟩ := advances_perform operations _ hsound
  have hjournal : ((World.fresh workflow collaborators).perform operations).journal = records :=
    hadvanced.journal
  exact ⟨hjournal ▸ hadvanced.reads, hadvanced.workflow⟩

/-- The ready units depend on the workflow and the progress alone. -/
theorem WorkflowRun.ready_congr {first second : WorkflowRun}
    (hworkflow : first.workflow = second.workflow) (hprogress : first.progress = second.progress) :
    first.ready = second.ready := by
  unfold ready branchAllows
  rw [hworkflow, hprogress]

/-- Replaying the journal written so far rebuilds the live run: its status, unit states, executions
awaiting a verdict, selections and ready units. -/
theorem WorkflowRun.replay_eq_live (workflow : Workflow) (collaborators : Bool)
    (operations : List Operation) :
    let world := (World.fresh workflow collaborators).perform operations
    let rebuilt := replay workflow world.journal
    rebuilt.progress.status = world.run.progress.status ∧
      rebuilt.progress.unitState = world.run.progress.unitState ∧
      rebuilt.progress.execOk = world.run.progress.execOk ∧
      rebuilt.progress.selected = world.run.progress.selected ∧
      rebuilt.ready = world.run.ready := by
  intro world rebuilt
  obtain ⟨hreads, hworkflow⟩ := World.reads_journal workflow collaborators operations
  have hprogress : rebuilt.progress = world.run.progress := foldl_apply_of_reads hreads
  have hready : rebuilt.ready = world.run.ready := ready_congr hworkflow.symm hprogress
  rw [hprogress]
  exact ⟨rfl, rfl, rfl, rfl, hready⟩

/-! ### Forward movement -/

/-- The stages of a workflow. -/
def statusRank : Option Status → Nat
  | none => 0
  | some .active => 1
  | some _ => 2

/-- A unit's state, and whether it awaits a verdict. -/
def Progress.standing (progress : Progress) (unit : String) : Option UnitState × Bool :=
  (progress.unitState.get? unit, decide (unit ∈ progress.execOk))

/-- The stages of a unit. A verdict ends the wait for it, also when it comes too late. -/
def standingRank : Option UnitState × Bool → Nat
  | (none, awaiting) => if awaiting then 0 else 1
  | (some .pending, _) => 0
  | (some .executing, awaiting) => if awaiting then 2 else 1
  | (some .succeeded, awaiting) | (some .failed, awaiting) | (some .notExecuted, awaiting) =>
    if awaiting then 3 else 4

/-- The second progress is reached from the first by moving forward only. -/
structure Progress.Later (first second : Progress) : Prop where
  status : RankedLe statusRank first.status second.status
  standing : ∀ unit, RankedLe standingRank (first.standing unit) (second.standing unit)
  selected : ∀ group unit, first.selected.get? group = some unit →
    second.selected.get? group = some unit

namespace Progress.Later

theorem refl (progress : Progress) : progress.Later progress :=
  ⟨.refl _ _, fun _ ↦ .refl _ _, fun _ _ hselected ↦ hselected⟩

theorem trans {first second third : Progress} (hfirst : first.Later second)
    (hsecond : second.Later third) : first.Later third where
  status := hfirst.status.trans hsecond.status
  standing := fun unit ↦ (hfirst.standing unit).trans (hsecond.standing unit)
  selected := fun group unit hselected ↦
    hsecond.selected group unit (hfirst.selected group unit hselected)

theorem of_status {progress : Progress} {status : Option Status}
    (hstatus : statusRank progress.status < statusRank status) :
    progress.Later { progress with status := status } :=
  ⟨.inr hstatus, fun _ ↦ .refl _ _, fun _ _ hselected ↦ hselected⟩

/-- Only the standing of one unit changes, and it moves forward. -/
theorem of_standing {first second : Progress} (unit : String)
    (hstatus : second.status = first.status) (hselected : second.selected = first.selected)
    (hother : ∀ other, other ≠ unit → second.standing other = first.standing other)
    (hunit : RankedLe standingRank (first.standing unit) (second.standing unit)) :
    first.Later second where
  status := .inl hstatus.symm
  standing := fun other ↦ by
    by_cases heq : other = unit
    · exact heq ▸ hunit
    · exact .inl (hother other heq).symm
  selected := fun _ _ hget ↦ hselected ▸ hget

theorem of_selected {progress : Progress} {group : String} (unit : String)
    (hgroup : progress.selected.get? group = none) :
    progress.Later { progress with selected := progress.selected.insert group unit } where
  status := .refl _ _
  standing := fun _ ↦ .refl _ _
  selected := fun other member hother ↦ by
    have hne : group ≠ other := fun heq ↦ by
      rw [← heq, hgroup] at hother
      cases hother
    rw [OrderedDict.get?_insert, if_neg hne]
    exact hother

end Progress.Later

section

variable (progress : Progress)

variable (unit other : String)

theorem Progress.standing_apply_execResult :
    (progress.apply (.execResult unit true)).standing other =
      if unit = other then (progress.unitState.get? other, true) else progress.standing other := by
  unfold standing apply
  by_cases hother : unit = other
  · simp [hother]
  · simp [hother, Ne.symm hother]

theorem Progress.standing_apply_verdict
    (passed : Bool) : (progress.apply (.verdict unit passed)).standing other =
      if unit = other then (progress.unitState.get? other, false) else progress.standing other := by
  unfold standing apply
  by_cases hother : unit = other
  · simp [hother]
  · simp [hother, Ne.symm hother]

theorem Progress.standing_apply_terminal
    (outcome : UnitState) : (progress.apply (.terminal unit outcome)).standing other =
      if unit = other then (some outcome, decide (other ∈ progress.execOk))
      else progress.standing other := by
  unfold standing apply
  rw [OrderedDict.get?_insert]
  split <;> rfl

theorem Progress.standing_apply_dispatched :
    (progress.apply (.dispatched unit)).standing other =
      if unit = other then (some .executing, decide (other ∈ progress.execOk))
      else progress.standing other :=
  standing_apply_terminal progress unit other .executing

end

theorem standingRank_lt_terminal {state outcome : UnitState} (hstate : state.terminal = false)
    (houtcome : outcome.terminal = true) (awaiting awaiting' : Bool) :
    standingRank (some state, awaiting) < standingRank (some outcome, awaiting') := by
  have hlow : standingRank (some state, awaiting) ≤ 2 := by
    cases state <;> cases awaiting <;> first | decide | exact nomatch hstate
  have hhigh : 3 ≤ standingRank (some outcome, awaiting') := by
    cases outcome <;> cases awaiting' <;> first | decide | exact nomatch houtcome
  omega

theorem standingRank_terminal_lt {state : UnitState} (hstate : state.terminal = true) :
    standingRank (some state, true) < standingRank (some state, false) := by
  cases state <;> first | decide | exact nomatch hstate

/-! ### Every call moves forward -/

theorem Progress.later_apply {workflow : Workflow} {progress : Progress} {entry : Record}
    (hpermitted : Permitted workflow progress entry) (hentry : entry.Ordinary) :
    progress.Later (progress.apply entry) := by
  cases entry with
  | activated => exact .of_status (by rw [show progress.status = none from hpermitted]; decide)
  | cancelled =>
    exact .of_status (by rw [show progress.status = some .active from hpermitted]; decide)
  | selected group unit => exact .of_selected unit hpermitted.1
  | dispatched unit =>
    refine .of_standing unit rfl rfl (fun other hother ↦ ?_) (.inr ?_)
    · rw [standing_apply_dispatched, if_neg (Ne.symm hother)]
    · rw [standing_apply_dispatched, if_pos rfl, Progress.standing, hpermitted.2]
      cases decide (unit ∈ progress.execOk) <;> decide
  | execResult unit ok =>
    cases ok with
    | false => exact .refl _
    | true =>
      have hstate : progress.unitState.get? unit = some .executing := hpermitted
      refine .of_standing unit rfl rfl (fun other hother ↦ ?_) ?_
      · rw [standing_apply_execResult, if_neg (Ne.symm hother)]
      · rw [standing_apply_execResult, if_pos rfl, Progress.standing, hstate]
        by_cases hawaiting : unit ∈ progress.execOk
        · exact .inl (by rw [decide_eq_true hawaiting])
        · exact .inr (by rw [decide_eq_false hawaiting]; decide)
  | verdict unit passed => exact hentry.elim
  | terminal unit outcome =>
    obtain ⟨houtcome, state, hstate, hopen⟩ := hpermitted
    refine .of_standing unit rfl rfl (fun other hother ↦ ?_) (.inr ?_)
    · rw [standing_apply_terminal, if_neg (Ne.symm hother)]
    · rw [standing_apply_terminal, if_pos rfl, Progress.standing, hstate]
      exact standingRank_lt_terminal hopen houtcome _ _
  | workflowTerminal status =>
    refine .of_status ?_
    rw [hpermitted.1]
    cases status with
    | active => exact absurd rfl hpermitted.2
    | completed | stalled | cancelled => decide

/-- The run moved forward. -/
def World.Onward (before after : World) : Prop := before.run.progress.Later after.run.progress

instance : Std.Refl World.Onward := ⟨fun _ ↦ .refl _⟩

instance : IsTrans World World.Onward := ⟨fun _ _ _ hfirst hsecond ↦ hfirst.trans hsecond⟩

theorem World.Onward.stepped (world : World) (entry : Record)
    (hpermitted : Permitted world.run.workflow world.run.progress entry)
    (hentry : entry.Ordinary) : world.Onward (world.stepped entry) := by
  rw [Onward, progress_stepped]
  exact later_apply hpermitted hentry

theorem onward_settle : Call.Within (Guarded World.Onward) settle := within_settle
    World.Onward.stepped

variable {world : World} {unit : String}

theorem after_terminal_of_closed {outcome : UnitState}
    (hclosed : ∀ state ∈ world.run.progress.unitState.get? unit, state.terminal = true) :
    (terminal unit outcome).after world = world := by
  unfold terminal
  rw [after_stateOf_bind]
  cases hget : world.run.progress.unitState.get? unit with
  | none => rfl
  | some state => simp only [if_pos (hclosed state hget), after_throw]

/-- Assumes: the unit has no outcome yet. The outcome is set and recorded, and the run settles. -/
theorem after_terminal_of_open {state outcome : UnitState}
    (hsound : world.Sound) (hget : world.run.progress.unitState.get? unit = some state)
    (hopen : state.terminal = false) :
    (terminal unit outcome).after world = settle.after (world.stepped
      (.terminal unit outcome)) := by
  unfold terminal
  rw [after_stateOf_bind, hget]
  simp only [hopen, Bool.false_eq_true, if_false]
  rw [after_change_bind, after_record_bind (hsound.changed _)]
  rfl

/-- A verdict that is awaited moves its unit forward: it gets its outcome, unless it has one
already, and it awaits the verdict no longer. -/
theorem later_onVerdict (passed : Bool) (hsound : world.Sound)
    (hunit : unit ∈ world.run.progress.execOk) :
    ((onVerdict unit passed).after world).Sound ∧ ∃ middle, world.run.progress.Later middle ∧
      standingRank (world.run.progress.standing unit) < standingRank (middle.standing unit) ∧
      middle.Later ((onVerdict unit passed).after world).run.progress := by
  have houtcome : (if passed then UnitState.succeeded else .failed).terminal = true := by
    cases passed <;> rfl
  have hstepped := hsound.stepped (.verdict unit passed)
  unfold onVerdict
  rw [after_get_bind, if_neg (not_not.mpr hunit), after_change_bind,
    after_record_bind (hsound.changed _)]
  change ((terminal unit _).after (world.stepped (.verdict unit passed))).Sound ∧
    ∃ middle : Progress, _ ∧ _ ∧ middle.Later
      ((terminal unit _).after (world.stepped (.verdict unit passed))).run.progress
  by_cases hclosed : ∀ state ∈ world.run.progress.unitState.get? unit, state.terminal = true
  · have hrank : standingRank (world.run.progress.standing unit) <
        standingRank ((world.run.progress.apply (.verdict unit passed)).standing unit) := by
      rw [standing_apply_verdict, if_pos rfl, Progress.standing, decide_eq_true hunit]
      cases hget : world.run.progress.unitState.get? unit with
      | none => decide
      | some state => exact standingRank_terminal_lt (hclosed state hget)
    rw [after_terminal_of_closed (by rwa [progress_stepped]), progress_stepped]
    refine ⟨hstepped, _, ?_, hrank, .refl _⟩
    refine .of_standing unit rfl rfl (fun other hother ↦ ?_) (.inr hrank)
    rw [standing_apply_verdict, if_neg (Ne.symm hother)]
  · simp only [not_forall, Bool.not_eq_true] at hclosed
    obtain ⟨state, hstate, hopen⟩ := hclosed
    obtain ⟨hlast, hlater⟩ := onward_settle _ (hstepped.stepped
      (.terminal unit (if passed then .succeeded else .failed)))
    rw [World.Onward, progress_stepped, progress_stepped] at hlater
    rw [after_terminal_of_open hstepped (by rwa [progress_stepped]) hopen]
    have hrank : standingRank (world.run.progress.standing unit) <
        standingRank (((world.run.progress.apply (.verdict unit passed)).apply
          (.terminal unit (if passed then .succeeded else .failed))).standing unit) := by
      rw [standing_apply_terminal, if_pos rfl, Progress.standing, hstate]
      exact standingRank_lt_terminal hopen houtcome _ _
    refine ⟨hlast, _, ?_, hrank, hlater⟩
    refine .of_standing unit rfl rfl (fun other hother ↦ ?_) (.inr hrank)
    rw [standing_apply_terminal, if_neg (Ne.symm hother),
      standing_apply_verdict, if_neg (Ne.symm hother)]

theorem onward_onVerdict (unit : String) (passed : Bool) :
    Call.Within (Guarded World.Onward) (onVerdict unit passed) := by
  intro world hsound
  by_cases hunit : unit ∈ world.run.progress.execOk
  · obtain ⟨hlast, middle, hbefore, -, hafter⟩ := later_onVerdict passed hsound hunit
    exact ⟨hlast, hbefore.trans hafter⟩
  · have hsame : (onVerdict unit passed).after world = world := by simp [onVerdict, hunit]
    rw [hsame]
    exact ⟨hsound, .refl _⟩

theorem onward_call (operation : Operation) : Call.Within (Guarded World.Onward) operation.call :=
  within_call World.Onward.stepped onward_onVerdict operation

/-- The run refuses the call, or has nothing to do for it. -/
def Idle (run : WorkflowRun) : Operation → Prop
  | .activate => run.progress.status ≠ none
  | .cancel => run.progress.status ≠ some .active
  | .selectBranch group unit => ∀ members, run.workflow.groups.get? group = some members →
      unit ∈ members → run.progress.selected.get? group ≠ none
  | .dispatchNext _ => run.ready = [] ∨ run.collaborators = false
  | .onExecResult unit ok => run.progress.unitState.get? unit = some .executing →
      ok = true ∧ unit ∈ run.progress.execOk
  | .onVerdict unit _ => unit ∉ run.progress.execOk

theorem after_of_idle {operation : Operation}
    (hrecording : world.run.recording = false) (hsound : world.Sound)
    (hidle : Idle world.run operation) : operation.call.after world = world := by
  cases operation with
  | activate => simp [Operation.call, activate, show world.run.progress.status ≠ none from hidle]
  | cancel => simp [Operation.call, cancel, show world.run.progress.status ≠ some
    .active from hidle]
  | selectBranch group unit =>
    simp only [Operation.call, selectBranch, after_get_bind]
    cases hmembers : world.run.workflow.groups.get? group with
    | none => rfl
    | some members =>
      by_cases hunit : unit ∈ members
      · have hselected := Option.isSome_iff_ne_none.mpr (hidle members hmembers hunit)
        simp [hunit, hselected]
      · simp [hunit]
  | dispatchNext answer =>
    simp only [Operation.call, dispatchNext, after_get_bind]
    rcases hidle with hready | hcollaborators
    · simp [hready]
    · cases world.run.ready with
      | nil => rfl
      | cons unit rest => simp [hcollaborators]
  | onExecResult unit ok =>
    simp only [Operation.call, onExecResult, after_stateOf_bind]
    cases hstate : world.run.progress.unitState.get? unit with
    | none => rfl
    | some state =>
      by_cases hexecuting : state = .executing
      · obtain ⟨rfl, hawaiting⟩ := hidle (hexecuting ▸ hstate)
        have hlogged : world.logged (.execResult unit true) = world := by
          rw [World.logged, hrecording]
          rfl
        simp only [hexecuting, ne_eq, not_true_eq_false, if_false, if_true]
        rw [after_record_bind hsound, hlogged, after_change, World.changed,
          Finset.insert_eq_of_mem hawaiting]
      · simp [hexecuting]
  | onVerdict unit passed =>
    simp [Operation.call, onVerdict, show unit ∉ world.run.progress.execOk from hidle]

/-- A step that is no return, followed by a call. -/
theorem not_later_stepped_bind {Result : Type} (entry : Record)
    {rest : PUnit → RunCall Result} (hsound : world.Sound)
    (hstep : ¬ (world.run.progress.apply entry).Later world.run.progress)
    (hrest : Call.Within (Guarded World.Onward) (rest ⟨⟩)) :
    ¬ ((change (fun progress ↦ progress.apply entry) >>= fun _ ↦
      record entry >>= rest).after world).run.progress.Later world.run.progress := by
  rw [after_change_bind, after_record_bind (hsound.changed _)]
  obtain ⟨-, hlater⟩ := hrest _ (hsound.stepped entry)
  rw [World.Onward, progress_stepped] at hlater
  exact fun hback ↦ hstep (hlater.trans hback)

theorem not_later_status {progress : Progress} {status : Option Status}
    (hstatus : statusRank progress.status < statusRank status) :
    ¬ ({ progress with status := status } : Progress).Later progress :=
  fun hlater ↦ not_rankedLe_of_lt hstatus hlater.status

theorem not_later_standing {first second : Progress} (unit : String)
    (hunit : standingRank (first.standing unit) < standingRank (second.standing unit)) :
    ¬ second.Later first :=
  fun hlater ↦ not_rankedLe_of_lt hunit (hlater.standing unit)

theorem not_later_of_not_idle {operation : Operation} (hsound : world.Sound)
    (hbusy : ¬ Idle world.run operation) :
    ¬ (operation.call.after world).run.progress.Later world.run.progress := by
  cases operation with
  | activate =>
    have hstatus : world.run.progress.status = none := not_not.mp hbusy
    simp only [Operation.call, activate, after_get_bind, hstatus, ne_eq, not_true_eq_false,
      if_false]
    refine not_later_stepped_bind .activated hsound (not_later_status (by rw [hstatus]; decide)) ?_
    refine Call.Within.forM _ fun group _ ↦ ?_
    cases (world.run.workflow.groups.get? group).bind List.head? with
    | none => exact fun _ ↦ refl_of (Guarded World.Onward) _
    | some best => exact within_selectBranch World.Onward.stepped group best
  | cancel =>
    have hstatus : world.run.progress.status = some .active := not_not.mp hbusy
    simp only [Operation.call, cancel, after_get_bind, hstatus, ne_eq, not_true_eq_false, if_false]
    rw [after_change_bind, (record_spec (hsound.changed _) _).2, progress_logged]
    exact not_later_status (by rw [hstatus]; decide)
  | selectBranch group unit =>
    simp only [Idle, not_forall, not_not] at hbusy
    obtain ⟨members, hmembers, hunit, hselected⟩ := hbusy
    simp only [Operation.call, selectBranch, after_get_bind, hmembers, hunit, hselected,
      not_true_eq_false, Option.isSome_none, Bool.false_eq_true, if_false]
    refine not_later_stepped_bind (.selected group unit) hsound (fun hlater ↦ ?_)
      (Call.Within.forM _ fun member _ ↦ within_terminal World.Onward.stepped member rfl)
    have hback := hlater.selected group unit (OrderedDict.get?_insert_self ..)
    rw [hselected] at hback
    cases hback
  | dispatchNext answer =>
    simp only [Idle, not_or, Bool.not_eq_false] at hbusy
    obtain ⟨hready, hcollaborators⟩ := hbusy
    obtain ⟨unit, rest, hunits⟩ := List.exists_cons_of_ne_nil hready
    have hpending := (WorkflowRun.of_mem_ready (hunits ▸ List.mem_cons_self)).2
    simp only [Operation.call, dispatchNext, after_get_bind, hunits, hcollaborators,
      Bool.true_eq_false, if_false]
    refine not_later_stepped_bind (.dispatched unit) hsound (not_later_standing unit ?_) ?_
    · rw [standing_apply_dispatched, if_pos rfl, Progress.standing, hpending]
      cases decide (unit ∈ world.run.progress.execOk) <;> decide
    · cases answer with
      | raised => exact fun _ ↦ refl_of (Guarded World.Onward) _
      | finished completed => exact within_onExecResult World.Onward.stepped unit completed
  | onExecResult unit ok =>
    simp only [Idle, Classical.not_imp] at hbusy
    obtain ⟨hstate, hnew⟩ := hbusy
    simp only [Operation.call, onExecResult, after_stateOf_bind, hstate, ne_eq, not_true_eq_false,
      if_false]
    rw [after_record_bind hsound]
    have hlogged := hsound.logged (.execResult unit ok)
    cases ok with
    | true =>
      have hawaiting : unit ∉ world.run.progress.execOk := fun hmem ↦ hnew ⟨rfl, hmem⟩
      simp only [if_true, after_change, changed_logged_execResult, progress_stepped]
      refine not_later_standing unit ?_
      rw [standing_apply_execResult, if_pos rfl, Progress.standing, hstate,
        decide_eq_false hawaiting]
      decide
    | false =>
      simp only [Bool.false_eq_true, if_false]
      rw [after_terminal_of_open hlogged (by rwa [progress_logged]) rfl]
      obtain ⟨-, hlater⟩ := onward_settle _ (hlogged.stepped (.terminal unit .failed))
      rw [World.Onward, progress_stepped, progress_logged] at hlater
      refine fun hback ↦ not_later_standing unit ?_ (hlater.trans hback)
      rw [standing_apply_terminal, if_pos rfl, Progress.standing, hstate]
      exact standingRank_lt_terminal rfl rfl _ _
  | onVerdict unit passed =>
    obtain ⟨-, middle, -, hrank, hlater⟩ := later_onVerdict passed hsound (not_not.mp hbusy)
    exact fun hback ↦ not_later_standing unit hrank (hlater.trans hback)

theorem World.progress_perform_iff (hsound : world.Sound)
    (hrecording : world.run.recording = false) (operations : List Operation) :
    (world.perform operations).run.progress = world.run.progress ↔
      ∀ operation ∈ operations, Idle world.run operation := by
  induction operations with
  | nil => simp [perform]
  | cons operation rest ih =>
    have hcons : world.perform (operation :: rest) =
      (operation.call.after world).perform rest := rfl
    by_cases hidle : Idle world.run operation
    · rw [hcons, after_of_idle hrecording hsound hidle, ih, List.forall_mem_cons]
      exact (and_iff_right hidle).symm
    · constructor
      · intro hsame
        have hfirst := (onward_call operation world hsound).1
        have hlater := (within_perform onward_call rest _ hfirst).2
        rw [World.Onward, ← hcons, hsame] at hlater
        exact absurd hlater (not_later_of_not_idle hsound hidle)
      · intro hall
        exact absurd (hall operation List.mem_cons_self) hidle

/-- After a restart the journal agrees with the resumed run exactly when every further call is idle:
a resumed run writes no record. -/
theorem World.resumed_replay_iff (world : World) (further : List Operation) :
    let resumed := world.restart.perform further
    (WorkflowRun.replay world.run.workflow resumed.journal).progress = resumed.run.progress ↔
      ∀ operation ∈ further, Idle world.restart.run operation := by
  intro resumed
  have hsound : world.restart.Sound := nofun
  obtain ⟨-, records, hadvanced⟩ := advances_perform further _ hsound
  have hjournal : resumed.journal = world.journal := by
    rw [hadvanced.journal]
    exact List.append_nil _
  rw [hjournal]
  exact Iff.trans eq_comm (progress_perform_iff hsound rfl further)

def soloWorkflow : Workflow where
  workflowId := "wf-1"
  units := OrderedDict.empty.insert "u-1" { priorityBand := .critical, groupId := none }
  edges := []
  canonicalOrder := ["u-1"]
  groups := .empty
  order_perm := .refl _
  edges_forward := nofun
  members_named := nofun
  named_members := by decide

/-- A run is activated and its process ends. The resumed run completes the workflow, but its journal
still says that nothing was dispatched. -/
theorem World.resumed_progress_lost :
    let crashed := (World.fresh soloWorkflow true).perform [.activate]
    let resumed := crashed.restart.perform [.dispatchNext (.finished true), .onVerdict "u-1" true]
    resumed.run.progress.status = some .completed ∧
      (WorkflowRun.replay soloWorkflow resumed.journal).progress.status = some .active := by
  decide

end AbsoluteZero.Scheduler

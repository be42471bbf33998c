import AbsoluteZero.Foundations.Journal
import AbsoluteZero.Scheduler.Run

/-!
# The dispatcher as a machine of records

`Permitted` says when a record may be written, and a step of the machine applies a permitted record
to the progress. Every call of the dispatcher, whether it returns or raises, takes the progress
along a sequence of such steps and appends exactly their records (`advances_perform`).
-/

namespace AbsoluteZero.Scheduler

open Foundations Call

/-- When a record may be written. -/
def Permitted (workflow : Workflow) (progress : Progress) : Record → Prop
  | .activated => progress.status = none
  | .cancelled => progress.status = some .active
  | .selected group unit => progress.selected.get? group = none ∧
      ∃ members, workflow.groups.get? group = some members ∧ unit ∈ members
  | .dispatched unit => progress.status = some .active ∧
      progress.unitState.get? unit = some .pending
  | .execResult unit _ => progress.unitState.get? unit = some .executing
  | .verdict unit _ => unit ∈ progress.execOk
  | .terminal unit outcome => outcome.terminal = true ∧
      ∃ state, progress.unitState.get? unit = some state ∧ state.terminal = false
  | .workflowTerminal status => progress.status = some .active ∧ status ≠ .active

def Step (workflow : Workflow) (progress : Progress) (entry : Record) (next : Progress) : Prop :=
  Permitted workflow progress entry ∧ next = progress.apply entry

/-- A reading of records by the machine is their replay. -/
theorem foldl_apply_of_reads {workflow : Workflow} {start final : Progress}
    {records : List Record} (hreads : Reads (Step workflow) start records final) :
    records.foldl Progress.apply start = final := by
  induction hreads with
  | nil => rfl
  | cons hstep _ ih =>
    rw [List.foldl_cons, ← hstep.2]
    exact ih

/-! ### Recording -/

/-- `_record` writes: the run has a storage and is not replaying. -/
def WorkflowRun.recording (run : WorkflowRun) : Bool := !run.replaying && run.storage

/-- An open journal continues at the end of what is stored. -/
def World.Sound (world : World) : Prop := ∀ seq ∈ world.run.nextSeq, seq = world.journal.length

def World.changed (world : World) (next : Progress → Progress) : World :=
  { world with run.progress := next world.run.progress }

variable (world : World) (entry : Record)

def World.logged : World :=
  if world.run.recording then
    { run := { world.run with nextSeq := some (world.journal.length + 1) }
      journal := world.journal ++ [entry] }
  else world

/-- The world after a permitted record: its change and the record. -/
def World.stepped : World :=
  (world.changed fun progress ↦ progress.apply entry).logged entry

theorem World.Sound.logged {world : World} (hsound : world.Sound) (entry : Record) :
    (world.logged entry).Sound := by
  unfold World.logged
  split
  · intro seq hseq
    simpa using (Option.mem_some_iff.mp hseq).symm
  · exact hsound

@[simp] theorem World.progress_logged :
    (world.logged entry).run.progress = world.run.progress := by
  unfold logged
  split <;> rfl

@[simp] theorem World.progress_stepped :
    (world.stepped entry).run.progress = world.run.progress.apply entry :=
  World.progress_logged _ entry

theorem World.Sound.changed {world : World} (hsound : world.Sound) (next : Progress → Progress) :
    (world.changed next).Sound := hsound

theorem World.Sound.stepped {world : World} (hsound : world.Sound) (entry : Record) :
    (world.stepped entry).Sound := (hsound.changed _).logged entry

@[simp] theorem after_change (next : Progress → Progress) (world : World) :
    (change next).after world = world.changed next := rfl

variable {Result : Type}

@[simp] theorem after_change_bind (next : Progress → Progress)
    (rest : PUnit → RunCall Result) (world : World) :
    (change next >>= rest).after world = (rest ⟨⟩).after (world.changed next) := rfl

theorem record_spec {world : World} (hsound : world.Sound) (entry : Record) :
    (record entry).outcome world = .ok ⟨⟩ ∧ (record entry).after world = world.logged entry := by
  have hseq : world.run.nextSeq.getD world.journal.length = world.journal.length := by
    cases hnext : world.run.nextSeq with
    | none => rfl
    | some seq => exact hsound seq hnext
  unfold record World.logged WorkflowRun.recording
  by_cases hreplaying : world.run.replaying
  · simp [outcome_bind, hreplaying]
  · by_cases hstorage : world.run.storage
    · simp [outcome_bind, hreplaying, hstorage, hseq]
    · simp [outcome_bind, hreplaying, hstorage]

theorem after_record_bind {world : World} (hsound : world.Sound) (entry : Record)
    (rest : PUnit → RunCall Result) :
    (record entry >>= rest).after world = (rest ⟨⟩).after (world.logged entry) := by
  rw [after_bind, (record_spec hsound entry).1, (record_spec hsound entry).2]

/-! ### Calls step by step -/

/-- Assumes: an open journal continues at its end. It goes on doing so, and the worlds are
related. -/
def Guarded (related : World → World → Prop) (before after : World) : Prop :=
  before.Sound → after.Sound ∧ related before after

section Rules

variable {related : World → World → Prop} [Std.Refl related] [IsTrans World related]

instance : Std.Refl (Guarded related) := ⟨fun world hsound ↦ ⟨hsound, refl_of related world⟩⟩

instance : IsTrans World (Guarded related) := ⟨fun _ _ _ hfirst hsecond hsound ↦ by
  obtain ⟨hmiddle, hbefore⟩ := hfirst hsound
  obtain ⟨hlast, hafter⟩ := hsecond hmiddle
  exact ⟨hlast, trans_of related hbefore hafter⟩⟩

omit [Std.Refl related] in
theorem guarded_stepped_bind {world : World} (entry : Record)
    {rest : PUnit → RunCall Result} (hstep : related world (world.stepped entry))
    (hrest : Call.Within (Guarded related) (rest ⟨⟩)) :
    Guarded related world ((change (fun progress ↦ progress.apply entry) >>= fun _ ↦
      record entry >>= rest).after world) := by
  intro hsound
  rw [after_change_bind, after_record_bind (hsound.changed _)]
  obtain ⟨hlast, hafter⟩ := hrest _ (hsound.stepped entry)
  exact ⟨hlast, trans_of related hstep hafter⟩

omit [Std.Refl related] [IsTrans World related] in
theorem guarded_stepped {world : World} (entry : Record)
    (hstep : related world (world.stepped entry)) :
    Guarded related world ((change (fun progress ↦ progress.apply entry) >>= fun _ ↦
      record entry).after world) := by
  intro hsound
  rw [after_change_bind, (record_spec (hsound.changed _) entry).2]
  exact ⟨hsound.stepped entry, hstep⟩

theorem after_stateOf_bind (unit : String) (rest : UnitState → RunCall Result)
    (world : World) : (stateOf unit >>= rest).after world =
      match world.run.progress.unitState.get? unit with
      | some state => (rest state).after world
      | none => world := by
  unfold stateOf
  cases hstate : world.run.progress.unitState.get? unit with
  | none | some state => simp [hstate]

theorem WorkflowRun.settled_ne_active {run : WorkflowRun} {status : Status}
    (hsettled : run.settled? = some status) : status ≠ .active := by
  unfold settled? at hsettled
  split at hsettled
  · cases hsettled
    intro hactive
    cases hactive
  · split at hsettled
    · cases hsettled
      intro hactive
      cases hactive
    · cases hsettled

theorem WorkflowRun.of_mem_ready {run : WorkflowRun} {unit : String} (hunit : unit ∈ run.ready) :
    run.progress.status = some .active ∧ run.progress.unitState.get? unit = some .pending := by
  unfold ready at hunit
  split at hunit
  · next hactive =>
    rw [List.mem_filter, decide_eq_true_iff] at hunit
    exact ⟨hactive, hunit.2.1⟩
  · cases hunit

def Record.Ordinary : Record → Prop
  | .verdict _ _ => False
  | _ => True

variable (hstep : ∀ (world : World) (entry : Record),
    Permitted world.run.workflow world.run.progress entry → entry.Ordinary →
      related world (world.stepped entry))

include hstep

omit [IsTrans World related] in
theorem within_settle : Call.Within (Guarded related) settle := by
  intro world
  unfold settle
  rw [after_get_bind, after_ite]
  split
  · next hactive =>
    cases hsettled : world.run.settled? with
    | none => exact refl_of (Guarded related) world
    | some status =>
      exact guarded_stepped (.workflowTerminal status)
        (hstep world _ ⟨hactive, WorkflowRun.settled_ne_active hsettled⟩ trivial)
  · exact refl_of (Guarded related) world

theorem within_terminal (unit : String) {outcome : UnitState} (houtcome : outcome.terminal) :
    Call.Within (Guarded related) (terminal unit outcome) := by
  intro world
  unfold terminal
  rw [after_stateOf_bind]
  cases hstate : world.run.progress.unitState.get? unit with
  | none => exact refl_of (Guarded related) world
  | some state =>
    by_cases hterminal : state.terminal
    · simp only [if_pos hterminal, after_throw]
      exact refl_of (Guarded related) world
    · simp only [if_neg hterminal]
      exact guarded_stepped_bind (.terminal unit outcome)
        (hstep world _ ⟨houtcome, state, hstate, Bool.eq_false_iff.mpr hterminal⟩ trivial)
        (within_settle hstep)

theorem within_selectBranch (group unit : String) :
    Call.Within (Guarded related) (selectBranch group unit) := by
  intro world
  unfold selectBranch
  rw [after_get_bind]
  cases hmembers : world.run.workflow.groups.get? group with
  | none => exact refl_of (Guarded related) world
  | some members =>
    simp only [after_ite]
    split
    · exact refl_of (Guarded related) world
    · next hunit =>
      split
      · exact refl_of (Guarded related) world
      · next hselected =>
        refine guarded_stepped_bind (.selected group unit) (hstep world _
          ⟨by simpa using hselected, members, hmembers, not_not.mp hunit⟩ trivial) ?_
        exact Call.Within.forM _ fun member _ ↦ within_terminal hstep member rfl

theorem within_activate : Call.Within (Guarded related) activate := by
  intro world
  unfold activate
  rw [after_get_bind, after_ite]
  split
  · exact refl_of (Guarded related) world
  · next hstatus =>
    refine guarded_stepped_bind .activated (hstep world _ (not_not.mp hstatus) trivial) ?_
    refine Call.Within.forM _ fun group _ ↦ ?_
    cases (world.run.workflow.groups.get? group).bind List.head? with
    | none => exact fun _ ↦ refl_of (Guarded related) _
    | some best => exact within_selectBranch hstep group best

omit [IsTrans World related] in
theorem within_cancel : Call.Within (Guarded related) cancel := by
  intro world
  unfold cancel
  rw [after_get_bind, after_ite]
  split
  · exact refl_of (Guarded related) world
  · next hstatus =>
    exact guarded_stepped .cancelled (hstep world _ (not_not.mp hstatus) trivial)

omit hstep [Std.Refl related] [IsTrans World related] in
/-- The record of a successful execution is written before the change it describes. -/
theorem changed_logged_execResult (world : World) (unit : String) :
    ((world.logged (.execResult unit true)).changed fun progress ↦
        { progress with execOk := insert unit progress.execOk }) =
      world.stepped (.execResult unit true) := by
  unfold World.stepped World.logged World.changed WorkflowRun.recording
  split <;> rfl

theorem within_onExecResult (unit : String) (ok : Bool) :
    Call.Within (Guarded related) (onExecResult unit ok) := by
  intro world
  unfold onExecResult
  rw [after_stateOf_bind]
  cases hstate : world.run.progress.unitState.get? unit with
  | none => exact refl_of (Guarded related) world
  | some state =>
    by_cases hexecuting : state = .executing
    · subst hexecuting
      simp only [ne_eq, not_true_eq_false, if_false]
      intro hsound
      have hrelated := hstep world (.execResult unit ok) hstate trivial
      rw [after_record_bind hsound]
      cases ok with
      | true =>
        simp only [if_true, after_change, changed_logged_execResult]
        exact ⟨hsound.stepped _, hrelated⟩
      | false =>
        have hterminal : Call.Within (Guarded related) (terminal unit .failed) :=
          within_terminal hstep unit rfl
        obtain ⟨hlast, hafter⟩ := hterminal _ (hsound.logged (.execResult unit false))
        exact ⟨hlast, trans_of related hrelated hafter⟩
    · simp only [ne_eq, hexecuting, not_false_eq_true, if_true, after_throw]
      exact refl_of (Guarded related) world

theorem within_dispatchNext (answer : EngineAnswer) :
    Call.Within (Guarded related) (dispatchNext answer) := by
  intro world
  unfold dispatchNext
  rw [after_get_bind]
  cases hready : world.run.ready with
  | nil => exact refl_of (Guarded related) world
  | cons unit rest =>
    simp only [after_ite]
    split
    · exact refl_of (Guarded related) world
    · refine guarded_stepped_bind (.dispatched unit)
        (hstep world _ (WorkflowRun.of_mem_ready (hready ▸ List.mem_cons_self)) trivial) ?_
      cases answer with
      | raised => exact fun _ ↦ refl_of (Guarded related) _
      | finished completed => exact within_onExecResult hstep unit completed

/-- Assumes: every step other than a verdict is related, and every verdict call is. Then every call
is, whether it returns or raises. -/
theorem within_call
    (hverdict : ∀ unit passed, Call.Within (Guarded related) (onVerdict unit passed))
    (operation : Operation) : Call.Within (Guarded related) operation.call := by
  cases operation with
  | activate => exact within_activate hstep
  | cancel => exact within_cancel hstep
  | selectBranch group unit => exact within_selectBranch hstep group unit
  | dispatchNext answer => exact within_dispatchNext hstep answer
  | onExecResult unit ok => exact within_onExecResult hstep unit ok
  | onVerdict unit passed => exact hverdict unit passed

omit hstep in
theorem within_perform (hcall : ∀ operation : Operation,
    Call.Within (Guarded related) operation.call) (operations : List Operation) (world : World) :
    Guarded related world (world.perform operations) := by
  induction operations generalizing world with
  | nil => exact refl_of (Guarded related) world
  | cons operation rest ih => exact trans_of (Guarded related) (hcall operation world) (ih _)

end Rules

structure World.Advanced (before after : World) (records : List Record) : Prop where
  reads : Reads (Step before.run.workflow) before.run.progress records after.run.progress
  journal : after.journal = before.journal ++ if before.run.recording then records else []
  workflow : after.run.workflow = before.run.workflow
  recording : after.run.recording = before.run.recording

/-- The run took some steps. -/
def World.Advances (before after : World) : Prop := ∃ records, before.Advanced after records

namespace World

theorem Advanced.trans {first second third : World} {records records' : List Record}
    (hfirst : first.Advanced second records) (hsecond : second.Advanced third records') :
    first.Advanced third (records ++ records') where
  reads := hfirst.reads.append (hfirst.workflow ▸ hsecond.reads)
  journal := by
    rw [hsecond.journal, hfirst.journal, hfirst.recording, List.append_assoc]
    split <;> simp
  workflow := hsecond.workflow.trans hfirst.workflow
  recording := hsecond.recording.trans hfirst.recording

instance : Std.Refl Advances := ⟨fun _ ↦ ⟨[], .nil _, by simp, rfl, rfl⟩⟩

instance : IsTrans World Advances := ⟨fun _ _ _ ⟨_, hfirst⟩ ⟨_, hsecond⟩ ↦
  ⟨_, hfirst.trans hsecond⟩⟩

theorem stepped_frame (world : World) (entry : Record) :
    (world.stepped entry).run.workflow = world.run.workflow ∧
      (world.stepped entry).run.recording = world.run.recording ∧
      (world.stepped entry).run.collaborators = world.run.collaborators ∧
      (world.stepped entry).journal =
        world.journal ++ if world.run.recording then [entry] else [] := by
  by_cases hrecording : world.run.recording
  · have hlogged : world.stepped entry =
        { run := { (world.changed fun progress ↦ progress.apply entry).run with
            nextSeq := some (world.journal.length + 1) }
          journal := world.journal ++ [entry] } := if_pos hrecording
    rw [hlogged]
    exact ⟨rfl, rfl, rfl, by rw [if_pos hrecording]⟩
  · have hlogged : world.stepped entry = world.changed fun progress ↦ progress.apply entry :=
      if_neg hrecording
    rw [hlogged]
    exact ⟨rfl, rfl, rfl, by rw [if_neg hrecording, List.append_nil]; rfl⟩

theorem Advances.stepped {world : World} {entry : Record}
    (hpermitted : Permitted world.run.workflow world.run.progress entry) :
    world.Advances (world.stepped entry) := by
  have hstep : Reads (Step world.run.workflow) world.run.progress [entry]
      (world.run.progress.apply entry) := .single ⟨hpermitted, rfl⟩
  obtain ⟨hworkflow, hrecording, -, hjournal⟩ := world.stepped_frame entry
  exact ⟨[entry], (world.progress_stepped entry).symm ▸ hstep, hjournal, hworkflow, hrecording⟩

end World

theorem advances_onVerdict (unit : String) (passed : Bool) :
    Call.Within (Guarded World.Advances) (onVerdict unit passed) := by
  intro world
  unfold onVerdict
  rw [after_get_bind, after_ite]
  split
  · exact refl_of (Guarded World.Advances) world
  · next hunit =>
    refine guarded_stepped_bind (.verdict unit passed) (.stepped (not_not.mp hunit)) ?_
    exact within_terminal (fun _ _ hpermitted _ ↦ .stepped hpermitted) unit
      (by cases passed <;> rfl)

theorem advances_perform (operations : List Operation) (world : World) :
    Guarded World.Advances world (world.perform operations) :=
  within_perform (within_call (fun _ _ hpermitted _ ↦ .stepped hpermitted) advances_onVerdict)
    operations world

end AbsoluteZero.Scheduler

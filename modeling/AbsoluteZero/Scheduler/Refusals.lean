import AbsoluteZero.Scheduler.EarlierRuns
import AbsoluteZero.Scheduler.Selections

/-!
# Refused calls

A call that is refused should leave the run as it found it. An activation writes its record before
its loop finds a branch group that has a selection, a selection before a member can turn out to have
an outcome, and so does a verdict; these are the only refusals that come too late
(`World.refused_unchanged_iff`).
-/

namespace AbsoluteZero.Scheduler

open Foundations OrderedDict Call List World Option

variable (workflow : Workflow) (journal : List Record) (resumes storage collaborators : Bool)

/-- A process that builds a new run over a journal, or resumes the run that the journal tells. -/
def World.opened : World where
  run := { (if resumes then WorkflowRun.replay workflow journal
      else WorkflowRun.new workflow storage collaborators) with
    storage := storage
    collaborators := collaborators }
  journal := journal

variable (run : WorkflowRun)

def WorkflowRun.Known : Prop :=
  ∀ unit ∈ run.workflow.units.keys, run.progress.unitState.get? unit ≠ none

theorem get?_foldl_apply_ne_none {progress : Progress} {unit : String}
    (hunit : progress.unitState.get? unit ≠ none) (records : List Record) :
    (records.foldl Progress.apply progress).unitState.get? unit ≠ none := by
  induction records generalizing progress with
  | nil => exact hunit
  | cons entry rest ih =>
    have hinsert : ∀ other state, (progress.unitState.insert other state).get? unit ≠ none := by
      intro other state
      rw [get?_insert]
      split
      · exact some_ne_none state
      · exact hunit
    refine ih ?_
    cases entry with
    | dispatched other | terminal other outcome => exact hinsert other _
    | execResult other ok => cases ok <;> exact hunit
    | activated | cancelled | selected | verdict | workflowTerminal => exact hunit

theorem World.known_opened (operations : List Operation) :
    let world := (opened workflow journal resumes storage collaborators).perform operations
    world.Sound ∧ world.run.Known := by
  have hstart : (opened workflow journal resumes storage collaborators).Sound := by
    cases resumes <;> exact nofun
  have hworkflow : (opened workflow journal resumes storage collaborators).run.workflow =
      workflow := by
    cases resumes <;> rfl
  obtain ⟨hsound, records, hadvanced⟩ := advances_perform operations _ hstart
  refine ⟨hsound, fun unit hunit ↦ ?_⟩
  rw [hadvanced.workflow, hworkflow] at hunit
  rw [← foldl_apply_of_reads hadvanced.reads]
  refine get?_foldl_apply_ne_none ?_ records
  obtain ⟨entry, hentry⟩ := workflow.units.exists_get?_iff.mpr hunit
  have hinitial : (Progress.initial workflow).unitState.get? unit ≠ none := by
    change (workflow.units.mapValues fun _ ↦ UnitState.pending).get? unit ≠ none
    rw [get?_mapValues, hentry]
    exact some_ne_none _
  cases resumes with
  | true => exact get?_foldl_apply_ne_none hinitial journal
  | false => exact hinitial

/-! ### Refusals -/

def Refused (outcome : Except CallError Unit) : Prop := ∃ text, outcome = .error (.refusal text)

theorem not_refused_ok : ¬ Refused (.ok ⟨⟩) := by
  rintro ⟨text, heq⟩
  cases heq

def WorkflowRun.Closed (unit : String) : Prop :=
  ∃ state, run.progress.unitState.get? unit = some state ∧ state.terminal = true

section Calls

variable {world : World}

variable {unit : String}

theorem refused_terminal (hsound : world.Sound)
    (hknown : world.run.progress.unitState.get? unit ≠ none) (outcome : UnitState) :
    world.run.Closed unit ∧ Refused ((terminal unit outcome).outcome world) ∨
      ¬ world.run.Closed unit ∧ (terminal unit outcome).outcome world = .ok ⟨⟩ ∧
        (terminal unit outcome).after world = world.steppedAll (world.run.ending unit outcome) := by
  obtain ⟨state, hstate⟩ := ne_none_iff_exists'.mp hknown
  by_cases hclosed : state.terminal = true
  · refine .inl ⟨⟨state, hstate, hclosed⟩, "ws.double_terminal:" ++ unit, ?_⟩
    unfold terminal
    rw [outcome_stateOf_bind, hstate]
    simp only [hclosed, if_true]
    rfl
  · refine .inr ⟨?_, terminal_spec hsound hstate (Bool.eq_false_iff.mpr hclosed)⟩
    rintro ⟨other, hother, hterminal⟩
    rw [hstate] at hother
    cases hother
    exact hclosed hterminal

/-- The groups but one have the same selections, and their members the same states. -/
structure World.Beside (workflow : Workflow) (group : String) (before after : World) : Prop where
  artifact : after.run.workflow = before.run.workflow
  selected : ∀ other, other ≠ group →
    after.run.progress.selected.get? other = before.run.progress.selected.get? other
  states : ∀ unit, workflow.groupOf unit ≠ some group →
    after.run.progress.unitState.get? unit = before.run.progress.unitState.get? unit

theorem refused_forM_terminal {workflow : Workflow} {group : String} {losers : List String}
    (hsound : world.Sound) (hnodup : losers.Nodup)
    (hlosers : ∀ unit ∈ losers, workflow.groupOf unit = some group)
    (hknown : ∀ unit ∈ losers, world.run.progress.unitState.get? unit ≠ none) :
    let call := losers.forM fun unit ↦ terminal unit .notExecuted
    (∃ unit ∈ losers, world.run.Closed unit) ∧ Refused (call.outcome world) ∨
      (∀ unit ∈ losers, ¬ world.run.Closed unit) ∧ call.outcome world = .ok ⟨⟩ ∧
        (call.after world).Sound ∧ World.Beside workflow group world (call.after world) := by
  induction losers generalizing world with
  | nil => exact .inr ⟨nofun, rfl, hsound, rfl, fun _ _ ↦ rfl, fun _ _ ↦ rfl⟩
  | cons head rest ih =>
    intro call
    obtain ⟨hfresh, hrest⟩ := nodup_cons.mp hnodup
    have hcall : call = (terminal head .notExecuted >>= fun _ ↦
        rest.forM fun unit ↦ terminal unit .notExecuted) := rfl
    rw [hcall, outcome_bind, after_bind]
    rcases refused_terminal hsound (hknown head mem_cons_self) .notExecuted with
      ⟨hclosed, text, htext⟩ | ⟨hopen, hok, hafter⟩
    · rw [htext]
      exact .inl ⟨⟨head, mem_cons_self, hclosed⟩, text, rfl⟩
    · rw [hok, hafter]
      obtain ⟨hget, hselected, -⟩ := world.run.ending_frame head .notExecuted
      generalize hmiddle : world.steppedAll (world.run.ending head .notExecuted) = middle
      have hprogress : middle.run.progress =
          (world.run.after (world.run.ending head .notExecuted)).progress :=
        hmiddle ▸ progress_steppedAll _ _
      have hsame : ∀ unit ∈ rest, middle.run.progress.unitState.get? unit =
          world.run.progress.unitState.get? unit := by
        intro unit hunit
        have hne : head ≠ unit := fun heq ↦ hfresh (heq ▸ hunit)
        rw [hprogress, hget, if_neg hne]
      have hiff : ∀ unit ∈ rest, middle.run.Closed unit ↔ world.run.Closed unit := by
        intro unit hunit
        unfold WorkflowRun.Closed
        rw [hsame unit hunit]
      rcases ih (hmiddle ▸ hsound.steppedAll _) hrest
        (fun unit hunit ↦ hlosers unit (mem_cons_of_mem _ hunit))
        (fun unit hunit ↦ by
          rw [hsame unit hunit]
          exact hknown unit (mem_cons_of_mem _ hunit)) with
        ⟨⟨unit, hunit, hclosed⟩, hrefused⟩ | ⟨hopens, hreturns, hlast, hbeside⟩
      · exact .inl ⟨⟨unit, mem_cons_of_mem _ hunit, (hiff unit hunit).mp hclosed⟩, hrefused⟩
      · refine .inr ⟨forall_mem_cons.mpr ⟨hopen, fun unit hunit ↦
          mt (hiff unit hunit).mpr (hopens unit hunit)⟩, hreturns, hlast, ?_, ?_, ?_⟩
        · rw [hbeside.artifact, ← hmiddle, workflow_steppedAll]
        · intro other hother
          rw [hbeside.selected other hother, hprogress, hselected]
        · intro unit hunit
          have hne : head ≠ unit := fun heq ↦ hunit (heq ▸ hlosers head mem_cons_self)
          rw [hbeside.states unit hunit, hprogress, hget, if_neg hne]

/-- No member of the group but the chosen one has its outcome. -/
def WorkflowRun.LosersOpen (group unit : String) : Prop :=
  ∀ member ∈ (run.workflow.groups.get? group).getD [], member ≠ unit → ¬ run.Closed member

/-- A selection that may be made returns when no loser has its outcome, and is refused otherwise. -/
theorem refused_selectBranch (hsound : world.Sound) (hknown : world.run.Known)
    {group unit : String} (hunit : unit ∈ (world.run.workflow.groups.get? group).getD [])
    (hunselected : world.run.progress.selected.get? group = none) :
    let call := selectBranch group unit
    ¬ world.run.LosersOpen group unit ∧ Refused (call.outcome world) ∨
      world.run.LosersOpen group unit ∧ call.outcome world = .ok ⟨⟩ ∧
        (call.after world).Sound ∧
        World.Beside world.run.workflow group world (call.after world) := by
  intro call
  obtain ⟨members, hmembers, hunit⟩ := exists_of_mem_getD hunit
  have hgroupOf : ∀ member ∈ members, world.run.workflow.groupOf member = some group :=
    fun member hmember ↦ (world.run.workflow.mem_members_iff hmembers).mp hmember
  obtain ⟨-, hnodup, -⟩ := world.run.workflow.members_named (group, members)
    ((get?_eq_some_iff _).mp hmembers)
  let loop := (members.filter fun member ↦ member ≠ unit).forM fun member ↦
    terminal member .notExecuted
  have hstepped := stepped_bind hsound (.selected group unit) fun _ ↦ loop
  have hcall : (selectBranch group unit).outcome world =
        loop.outcome (world.stepped (.selected group unit)) ∧
      (selectBranch group unit).after world =
        loop.after (world.stepped (.selected group unit)) := by
    unfold selectBranch
    rw [outcome_get_bind, after_get_bind]
    simp only [hmembers, hunselected, isSome_none, Bool.false_eq_true, if_false, not_not.mpr hunit]
    exact hstepped
  simp only [call, hcall.1, hcall.2]
  have hlosers : world.run.LosersOpen group unit ↔
      ∀ member ∈ members.filter fun member ↦ member ≠ unit,
        ¬ (world.stepped (.selected group unit)).run.Closed member := by
    unfold WorkflowRun.LosersOpen WorkflowRun.Closed
    rw [hmembers, getD_some, progress_stepped]
    simp only [mem_filter, decide_eq_true_eq, and_imp]
    rfl
  rcases refused_forM_terminal (hsound.stepped (.selected group unit))
    (hnodup.filter fun member ↦ member ≠ unit)
    (fun member hmember ↦ hgroupOf member (mem_filter.mp hmember).1)
    (fun member hmember ↦ by
      rw [progress_stepped]
      exact hknown member (Workflow.mem_units_of_groupOf
        (hgroupOf member (mem_filter.mp hmember).1))) with
    ⟨⟨loser, hloser, hclosed⟩, hrefused⟩ | ⟨hopen, hok, hlast, hbeside⟩
  · exact .inl ⟨fun hlosersOpen ↦ hlosers.mp hlosersOpen loser hloser hclosed, hrefused⟩
  · refine .inr ⟨hlosers.mpr hopen, hok, hlast, ?_, fun other hother ↦ ?_,
      fun member hmember ↦ ?_⟩
    · rw [hbeside.artifact, workflow_stepped]
    · rw [hbeside.selected other hother, progress_stepped, Progress.apply,
        get?_insert, if_neg (Ne.symm hother)]
    · rw [hbeside.states member hmember, progress_stepped]
      rfl

/-- The group has no selection, and no member but the best one has its outcome. -/
def WorkflowRun.Selectable (group : String) : Prop :=
  run.progress.selected.get? group = none ∧ run.LosersOpen group (run.workflow.best group)

theorem World.Beside.selectable_iff {group other : String} {after : World}
    (hbeside : World.Beside world.run.workflow group world after) (hother : other ≠ group) :
    after.run.Selectable other ↔ world.run.Selectable other := by
  unfold WorkflowRun.Selectable WorkflowRun.LosersOpen WorkflowRun.Closed
  rw [hbeside.artifact, hbeside.selected other hother]
  refine and_congr_right fun _ ↦ forall₂_congr fun member hmember ↦ imp_congr_right fun _ ↦ ?_
  obtain ⟨members, hmembers, hmember⟩ := exists_of_mem_getD hmember
  rw [hbeside.states member fun hgroup ↦ hother (Option.some.inj
    (((world.run.workflow.mem_members_iff hmembers).mp hmember).symm.trans hgroup))]

theorem WorkflowRun.Known.called (hknown : world.run.Known) (hsound : world.Sound)
    (operation : Operation) : (operation.call.after world).run.Known := by
  obtain ⟨-, records, hadvanced⟩ := advances_perform [operation] world hsound
  intro unit hunit
  change World.Advanced world (operation.call.after world) records at hadvanced
  rw [hadvanced.workflow] at hunit
  rw [← foldl_apply_of_reads hadvanced.reads]
  exact get?_foldl_apply_ne_none (hknown unit hunit) records

theorem refused_forM_selectDefault {groups : List String} (hsound : world.Sound)
    (hknown : world.run.Known) (hnodup : groups.Nodup)
    (hgroups : ∀ group ∈ groups, group ∈ world.run.workflow.groups.keys) :
    Refused ((groups.forM (selectDefault world.run.workflow)).outcome world) ↔
      ∃ group ∈ groups, ¬ world.run.Selectable group := by
  induction groups generalizing world with
  | nil => exact iff_of_false not_refused_ok (by simp)
  | cons group rest ih =>
    obtain ⟨hfresh, hrest⟩ := nodup_cons.mp hnodup
    have hgroup := hgroups group mem_cons_self
    obtain ⟨members, hmembers, -, hbest⟩ := world.run.workflow.best_mem hgroup
    rw [forM_selectDefault_cons hgroup, outcome_bind, exists_mem_cons_iff]
    have hmem : world.run.workflow.best group ∈
        (world.run.workflow.groups.get? group).getD [] := by
      rw [hmembers]
      exact hbest
    by_cases hunselected : world.run.progress.selected.get? group = none
    · rcases refused_selectBranch hsound hknown hmem hunselected with
        ⟨hlosers, text, htext⟩ | ⟨hlosers, hok, hlast, hbeside⟩
      · rw [htext]
        exact iff_of_true ⟨text, rfl⟩ (.inl fun hselectable ↦ hlosers hselectable.2)
      · have hlater := ih hlast (hknown.called hsound (.selectBranch group _)) hrest
          fun other hother ↦ by
            rw [hbeside.artifact]
            exact hgroups other (mem_cons_of_mem _ hother)
        rw [hbeside.artifact] at hlater
        rw [hok]
        refine hlater.trans ?_
        simp only [WorkflowRun.Selectable, hunselected, hlosers, and_self, not_true_eq_false,
          false_or]
        refine exists_congr fun other ↦ and_congr_right fun hother ↦ not_congr ?_
        exact hbeside.selectable_iff fun heq ↦ hfresh (heq ▸ hother)
    · refine iff_of_true ?_ (.inl fun hselectable ↦ hunselected hselectable.1)
      have hreselected : (selectBranch group (world.run.workflow.best group)).outcome world =
          .error (.refusal ("ws.reselection:" ++ group)) := by
        unfold selectBranch
        rw [outcome_get_bind]
        simp only [hmembers, not_not.mpr hbest, if_false,
          isSome_iff_ne_none.mpr hunselected, if_true]
        rfl
      rw [hreselected]
      exact ⟨_, rfl⟩

section

variable (hsound : world.Sound)

include hsound

/-- An activation of a run that is not active yet is refused exactly when a group is not
selectable. -/
theorem refused_activate (hknown : world.run.Known)
    (hidle : world.run.progress.status = none) : Refused (activate.outcome world) ↔
      ∃ group ∈ world.run.workflow.groups.keys, ¬ world.run.Selectable group := by
  have hsorted : (world.run.workflow.groups.keys.insertionSort (· ≤ ·)).Perm
      world.run.workflow.groups.keys := perm_insertionSort _ _
  have hstepped := (stepped_bind hsound .activated fun _ ↦
    (world.run.workflow.groups.keys.insertionSort (· ≤ ·)).forM
      (selectDefault world.run.workflow)).1
  have hloop := refused_forM_selectDefault (hsound.stepped .activated)
    (by
      unfold WorkflowRun.Known
      rwa [workflow_stepped, progress_stepped])
    (hsorted.nodup_iff.mpr world.run.workflow.groups.nodup) fun group hgroup ↦ by
      rw [workflow_stepped]
      exact hsorted.mem_iff.mp hgroup
  rw [workflow_stepped, ← hstepped] at hloop
  unfold activate
  rw [outcome_get_bind]
  simp only [hidle, ne_eq, not_true_eq_false, if_false]
  refine hloop.trans (exists_congr fun group ↦ and_congr hsorted.mem_iff (not_congr ?_))
  unfold WorkflowRun.Selectable WorkflowRun.LosersOpen WorkflowRun.Closed
  rw [workflow_stepped, progress_stepped]
  rfl

theorem not_refused_onExecResult
    (hexecuting : world.run.progress.unitState.get? unit = some .executing) (ok : Bool) :
    ¬ Refused ((onExecResult unit ok).outcome world) := by
  unfold onExecResult
  rw [outcome_stateOf_bind, hexecuting]
  simp only [ne_eq, not_true_eq_false, if_false]
  obtain ⟨hrecord, hlogged⟩ := record_spec hsound (.execResult unit ok)
  rw [outcome_bind, hrecord, hlogged]
  cases ok with
  | true => exact not_refused_ok
  | false =>
    have hok : (terminal unit .failed).outcome (world.logged (.execResult unit false)) = .ok ⟨⟩ :=
      (terminal_spec (hsound.logged _) (by rwa [progress_logged]) rfl).1
    simp only [Bool.false_eq_true, if_false]
    rw [hok]
    exact not_refused_ok

theorem not_refused_dispatchNext {rest : List String}
    (hready : world.run.ready = unit :: rest) (hcollaborators : world.run.collaborators ≠ false)
    (answer : EngineAnswer) : ¬ Refused ((dispatchNext answer).outcome world) := by
  let execute : RunCall Unit := EngineAnswer.casesOn (motive := fun _ ↦ RunCall Unit) answer
    (throw .collaborator) (onExecResult unit)
  have hcall : (dispatchNext answer).outcome world =
      execute.outcome (world.stepped (.dispatched unit)) := by
    unfold dispatchNext
    rw [outcome_get_bind]
    simp only [hready, hcollaborators]
    cases answer <;> exact (stepped_bind hsound (.dispatched unit) fun _ ↦ _).1
  rw [hcall]
  cases answer with
  | raised =>
    rintro ⟨text, heq⟩
    cases heq
  | finished completed =>
    refine not_refused_onExecResult (hsound.stepped _) ?_ completed
    rw [progress_stepped, Progress.apply, get?_insert_self]

theorem not_refused_cancel
    (hactive : world.run.progress.status = some .active) : ¬ Refused (cancel.outcome world) := by
  have hcall : cancel.outcome world =
      (record .cancelled).outcome (world.changed fun progress ↦ progress.apply .cancelled) := by
    unfold cancel
    rw [outcome_get_bind]
    simp only [hactive, ne_eq, not_true_eq_false, if_false]
    rfl
  rw [hcall, (record_spec (hsound.changed _) .cancelled).1]
  exact not_refused_ok

theorem refused_onVerdict (hawaited : unit ∈ world.run.progress.execOk) (passed : Bool) :
    Refused ((onVerdict unit passed).outcome world) ↔ world.run.Closed unit := by
  let judged : RunCall Unit := terminal unit (if passed then .succeeded else .failed)
  have hcall : (onVerdict unit passed).outcome world =
      judged.outcome (world.stepped (.verdict unit passed)) := by
    unfold onVerdict
    rw [outcome_get_bind]
    simp only [not_not.mpr hawaited, if_false]
    exact (stepped_bind hsound (.verdict unit passed) fun _ ↦ judged).1
  have hstate : (world.stepped (.verdict unit passed)).run.progress.unitState =
      world.run.progress.unitState := by
    rw [progress_stepped]
    rfl
  have hclosed : (world.stepped (.verdict unit passed)).run.Closed unit ↔
      world.run.Closed unit := by
    unfold WorkflowRun.Closed
    rw [hstate]
  rw [hcall]
  by_cases hunit : world.run.progress.unitState.get? unit = none
  · have hnone : judged.outcome (world.stepped (.verdict unit passed)) =
        .error (.keyError unit) := by
      simp only [judged, terminal]
      rw [outcome_stateOf_bind, hstate, hunit]
    rw [hnone]
    refine iff_of_false ?_ ?_
    · rintro ⟨text, heq⟩
      cases heq
    · rintro ⟨state, heq, -⟩
      rw [hunit] at heq
      cases heq
  · rcases refused_terminal (hsound.stepped (.verdict unit passed)) (by rwa [hstate])
      (if passed then .succeeded else .failed) with ⟨hyes, hrefused⟩ | ⟨hno, hok, -⟩
    · exact iff_of_true hrefused (hclosed.mp hyes)
    · rw [show judged.outcome _ = .ok ⟨⟩ from hok]
      exact iff_of_false not_refused_ok (mt hclosed.mpr hno)

end

/-- The status, unit states, executions awaiting a verdict, selections and journal are the same. -/
def World.Unchanged (before after : World) : Prop :=
  SameRun after.run before.run ∧ after.journal = before.journal

/-- Nothing is refused after the first record of the call. Every group is selectable when a run is
activated; no loser of a selection has its outcome, nor has the unit of a verdict. -/
def WorkflowRun.ChecksFirst : Operation → Prop
  | .activate => run.progress.status = none →
      ∀ group ∈ run.workflow.groups.keys, run.Selectable group
  | .selectBranch group unit => unit ∈ (run.workflow.groups.get? group).getD [] →
      run.progress.selected.get? group = none → run.LosersOpen group unit
  | .onVerdict unit _ => unit ∈ run.progress.execOk → ¬ run.Closed unit
  | .cancel | .dispatchNext _ | .onExecResult _ _ => True

theorem World.unchanged_of_early {operation : Operation}
    (hearly : operation.call.after world = world ∨ ¬ Refused (operation.call.outcome world)) :
    Refused (operation.call.outcome world) → world.Unchanged (operation.call.after world) := by
  intro hrefused
  rcases hearly with hafter | hreturns
  · rw [hafter]
    exact ⟨⟨rfl, rfl, rfl, rfl⟩, rfl⟩
  · exact absurd hrefused hreturns

theorem World.refused_unchanged_of_iff {operation : Operation} {condition : Prop}
    (hsound : world.Sound) (hbusy : ¬ Idle world.run operation)
    (hrefused : Refused (operation.call.outcome world) ↔ ¬ condition) :
    (Refused (operation.call.outcome world) → world.Unchanged (operation.call.after world)) ↔
      condition := by
  constructor
  · intro hunchanged
    by_contra hfails
    have hprogress := (sameRun_iff _ _).mp (hunchanged (hrefused.mpr hfails)).1
    refine not_later_of_not_idle hsound hbusy ?_
    rw [hprogress]
    exact .refl _
  · exact fun hholds hcall ↦ absurd hholds (hrefused.mp hcall)

end Calls

/-- In every state that the runs of a workflow reach, new or resumed ones over any journal, a call
that is refused changes nothing exactly when nothing is refused after its first record. -/
theorem World.refused_unchanged_iff (operations : List Operation) (operation : Operation) :
    let world := (opened workflow journal resumes storage collaborators).perform operations
    (Refused (operation.call.outcome world) → world.Unchanged (operation.call.after world)) ↔
      world.run.ChecksFirst operation := by
  intro world
  obtain ⟨hsound, hknown⟩ : world.Sound ∧ world.run.Known := known_opened ..
  cases operation with
  | activate =>
    by_cases hidle : world.run.progress.status = none
    · have hbusy : ¬ Idle world.run .activate := not_not.mpr hidle
      refine (refused_unchanged_of_iff hsound hbusy ?_).trans (forall_prop_of_true hidle).symm
      refine (refused_activate hsound hknown hidle).trans ?_
      simp only [not_forall, exists_prop]
    · refine iff_of_true (unchanged_of_early (.inl ?_)) fun hnone ↦ absurd hnone hidle
      simp [Operation.call, activate, hidle]
  | cancel =>
    refine iff_of_true (unchanged_of_early ?_) trivial
    by_cases hactive : world.run.progress.status = some .active
    · exact .inr (not_refused_cancel hsound hactive)
    · exact .inl (by simp [Operation.call, cancel, hactive])
  | selectBranch group unit =>
    by_cases hallowed : unit ∈ (world.run.workflow.groups.get? group).getD [] ∧
        world.run.progress.selected.get? group = none
    · have hbusy : ¬ Idle world.run (.selectBranch group unit) := by
        intro hidle
        obtain ⟨members, hmembers, hunit⟩ := exists_of_mem_getD hallowed.1
        exact hidle members hmembers hunit hallowed.2
      refine (refused_unchanged_of_iff hsound hbusy ?_).trans
        ⟨fun hopen _ _ ↦ hopen, fun hopen ↦ hopen hallowed.1 hallowed.2⟩
      rcases refused_selectBranch hsound hknown hallowed.1 hallowed.2 with
        ⟨hclosed, hrefused⟩ | ⟨hopen, hok, -, -⟩
      · exact iff_of_true hrefused hclosed
      · rw [show (Operation.selectBranch group unit).call.outcome world = .ok ⟨⟩ from hok]
        exact iff_of_false not_refused_ok (not_not.mpr hopen)
    · exact iff_of_true (unchanged_of_early (.inl (selectBranch_refused hallowed).2))
        fun hunit hselected ↦ absurd ⟨hunit, hselected⟩ hallowed
  | dispatchNext answer =>
    refine iff_of_true (unchanged_of_early ?_) trivial
    cases hready : world.run.ready with
    | nil => exact .inl (by simp [Operation.call, dispatchNext, hready])
    | cons unit rest =>
      by_cases hcollaborators : world.run.collaborators = false
      · exact .inl (by simp [Operation.call, dispatchNext, hready, hcollaborators])
      · exact .inr (not_refused_dispatchNext hsound hready hcollaborators answer)
  | onExecResult unit ok =>
    refine iff_of_true (unchanged_of_early ?_) trivial
    by_cases hexecuting : world.run.progress.unitState.get? unit = some .executing
    · exact .inr (not_refused_onExecResult hsound hexecuting ok)
    · refine .inl ?_
      simp only [Operation.call, onExecResult, after_stateOf_bind]
      cases hstate : world.run.progress.unitState.get? unit with
      | none => rfl
      | some state =>
        have hne : state ≠ .executing := fun heq ↦ hexecuting (heq ▸ hstate)
        simp [hne]
  | onVerdict unit passed =>
    by_cases hawaited : unit ∈ world.run.progress.execOk
    · have hbusy : ¬ Idle world.run (.onVerdict unit passed) := not_not.mpr hawaited
      refine (refused_unchanged_of_iff hsound hbusy ?_).trans (forall_prop_of_true hawaited).symm
      exact (refused_onVerdict hsound hawaited passed).trans not_not.symm
    · refine iff_of_true (unchanged_of_early (.inl ?_)) fun hmem ↦ absurd hmem hawaited
      simp [Operation.call, onVerdict, hawaited]

def alternatives : Workflow where
  workflowId := "wf-1"
  units := (OrderedDict.empty.insert "u-1"
    { priorityBand := .required, groupId := some "g-1" }).insert "u-2"
    { priorityBand := .required, groupId := some "g-1" }
  edges := []
  canonicalOrder := ["u-1", "u-2"]
  groups := OrderedDict.empty.insert "g-1" ["u-1", "u-2"]
  order_perm := .refl _
  edges_forward := nofun
  members_named := by decide
  named_members := by decide

/-- A branch is selected before the workflow is activated. The activation is refused, and leaves the
workflow active with a record in its journal. -/
theorem World.refused_activation_changes :
    let world := (World.opened alternatives [] false true true).perform [.selectBranch "g-1" "u-2"]
    activate.outcome world = .error (.refusal "ws.reselection:g-1") ∧
      world.run.progress.status = none ∧
      (activate.after world).run.progress.status = some .active ∧
      (activate.after world).journal = world.journal ++ [.activated] := by
  decide

end AbsoluteZero.Scheduler

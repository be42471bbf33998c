import AbsoluteZero.Scheduler.Safety
import AbsoluteZero.Scheduler.Selections

/-!
# Crashes between two records

A process that dies between two records of a call leaves a cut of the journal. What the cut tells is
what complete calls reach as well, except where the next record would have continued a change that
was begun (`Inside`, `World.cut_whole_iff`).
-/

namespace AbsoluteZero.Scheduler

open Foundations List WorkflowRun World

/-- The records tell a state that complete calls reach: an active workflow has a selection in every
group and no failed blocking unit, and a unit with a verdict is terminal. -/
structure Whole (workflow : Workflow) (collaborators : Bool) (records : List Record) : Prop where
  reached : ∃ operations, (WorkflowRun.replay workflow records).progress =
    ((World.fresh workflow collaborators).perform operations).run.progress
  selected : (WorkflowRun.replay workflow records).progress.status = some .active →
    ∀ group ∈ workflow.groups.keys,
      (WorkflowRun.replay workflow records).progress.selected.get? group ≠ none
  unstalled : (WorkflowRun.replay workflow records).progress.status = some .active →
    ∀ item ∈ workflow.units.items, item.2.priorityBand.blocking = true →
      (WorkflowRun.replay workflow records).progress.unitState.get? item.1 ≠ some .failed
  judged : ∀ unit passed, .verdict unit passed ∈ records →
    ∃ state, (WorkflowRun.replay workflow records).progress.unitState.get? unit = some state ∧
      state.terminal = true

/-- The record continues a change that the records before it began. -/
def Inside (workflow : Workflow) (before : List Record) : Record → Prop
  | .workflowTerminal _ => True
  | .selected _ _ => (WorkflowRun.replay workflow before).progress.status = some .active
  | .terminal unit outcome => outcome = .notExecuted ∨
    before.getLast? = some (.verdict unit true) ∨ before.getLast? = some (.verdict unit false)
  | _ => False

instance (workflow : Workflow) (before : List Record) (entry : Record) :
    Decidable (Inside workflow before entry) :=
  match entry with
  | .workflowTerminal _ => .isTrue trivial
  | .selected _ _ => inferInstanceAs (Decidable (_ = some Status.active))
  | .terminal _ _ => inferInstanceAs (Decidable (_ ∨ _ ∨ _))
  | .activated | .cancelled | .dispatched _ | .execResult _ _ | .verdict _ _ => .isFalse id

variable {workflow : Workflow} {entry : Record}

/-- Assumes: the workflow has a unit. A cut before a record that continues a change is not whole. -/
theorem not_whole_of_inside {collaborators : Bool} {before after : List Record}
    (hunits : workflow.units.keys ≠ [])
    (htold : Told workflow (before ++ entry :: after)) (hinside : Inside workflow before entry) :
    ¬ Whole workflow collaborators before := by
  rintro ⟨⟨operations, hprogress⟩, hselected, -, hjudged⟩
  have hlawful := htold before entry after rfl
  -- what complete calls reach is consistent
  have hcons : (WorkflowRun.replay workflow before).Consistent := by
    have hfresh : (World.fresh workflow collaborators).Sound := nofun
    have hnew := WorkflowRun.Consistent.new workflow true collaborators
    obtain ⟨hperform, -, hrun⟩ := perform_spec hfresh hnew operations
    refine hrun.congr ?_ hprogress
    rw [hperform, workflow_steppedAll]
    rfl
  cases entry with
  | workflowTerminal status =>
    obtain ⟨hactive, hnot⟩ := hlawful
    exact hnot ⟨hcons.unstalled hactive, hcons.unfinished hactive hunits⟩
  | selected group unit =>
    obtain ⟨hgroup, hopen⟩ := hlawful
    exact hselected hinside group hgroup hopen
  | terminal unit outcome =>
    obtain ⟨-, ⟨state, hstate, hopen⟩, -, hlost⟩ := hlawful
    rcases hinside with hnot | hverdict
    · have hloser := (hcons.losers unit).mpr (hlost hnot)
      rw [eq_of_get? hstate hloser] at hopen
      exact nomatch hopen
    · have hmem : ∃ passed, .verdict unit passed ∈ before := by
        rcases hverdict with hlast | hlast
        · exact ⟨true, mem_of_getLast? hlast⟩
        · exact ⟨false, mem_of_getLast? hlast⟩
      obtain ⟨passed, hmem⟩ := hmem
      obtain ⟨other, hother, hterminal⟩ := hjudged unit passed hmem
      rw [eq_of_get? hother hstate, hopen] at hterminal
      exact nomatch hterminal
  | activated | cancelled | dispatched | execResult | verdict => exact hinside.elim

def Judged (progress : Progress) (records : List Record) : Prop :=
  ∀ unit passed, .verdict unit passed ∈ records →
    ∃ state, progress.unitState.get? unit = some state ∧ state.terminal = true

theorem WorkflowRun.verdict_notMem_settlement (run : WorkflowRun) (unit : String) (passed : Bool) :
    .verdict unit passed ∉ run.settlement := by
  intro hmem
  rcases Consistent.settlement_cases run with ⟨hnone, -⟩ | ⟨-, status, hsome, -⟩
  · rw [hnone] at hmem
    exact not_mem_nil hmem
  · rw [hsome] at hmem
    cases mem_singleton.mp hmem

theorem WorkflowRun.verdict_notMem_execution (run : WorkflowRun) (unit : String) (ok : Bool)
    (other : String) (passed : Bool) : .verdict other passed ∉ run.execution unit ok := by
  intro hmem
  cases ok with
  | true => cases mem_singleton.mp hmem
  | false =>
    rcases mem_cons.mp hmem with heq | hmem
    · cases heq
    · rcases mem_cons.mp hmem with heq | hmem
      · cases heq
      · exact verdict_notMem_settlement _ other passed hmem

theorem WorkflowRun.verdict_notMem_selection (run : WorkflowRun) (group unit : String)
    (other : String) (passed : Bool) : .verdict other passed ∉ run.selection group unit := by
  intro hmem
  unfold selection at hmem
  split at hmem
  · exact not_mem_nil hmem
  · rcases mem_cons.mp hmem with heq | hmem
    · cases heq
    · obtain ⟨name, -, heq⟩ := mem_map.mp hmem
      cases heq

variable {run : WorkflowRun}

theorem Judged.block {records block : List Record} (hjudged : Judged run.progress records)
    (hprogress : run.progress = (WorkflowRun.replay run.workflow records).progress)
    (htold : Told run.workflow (records ++ block)) (hrun : run.Consistent)
    (hblock : run.Block block) : Judged (run.after block).progress (records ++ block) := by
  have hnext : (run.after block).progress =
      (WorkflowRun.replay run.workflow (records ++ block)).progress := by
    rw [progress_replay_append, ← hprogress]
    rfl
  intro unit passed hmem
  rcases mem_append.mp hmem with hold | hnew
  · obtain ⟨state, hstate, hterminal⟩ := hjudged unit passed hold
    rw [hprogress] at hstate
    refine ⟨state, ?_, hterminal⟩
    rw [hnext]
    exact htold.kept hterminal hstate
  · cases hblock with
    | activated hidle | cancelled hactive => cases mem_singleton.mp hnew
    | selection group chosen members hmembers hunit hunselected =>
      exact absurd hnew (run.verdict_notMem_selection group chosen unit passed)
    | dispatched chosen hready => cases mem_singleton.mp hnew
    | execution chosen ok hexecuting =>
      exact absurd hnew (run.verdict_notMem_execution chosen ok unit passed)
    | judgement chosen answer hawaited =>
      unfold WorkflowRun.judgement at *
      have hsame : unit = chosen := by
        rcases mem_cons.mp hnew with heq | hrest
        · cases heq
          rfl
        · split at hrest
          · rcases mem_cons.mp hrest with heq | hrest
            · cases heq
            · exact absurd hrest (verdict_notMem_settlement _ unit passed)
          · exact absurd hrest not_mem_nil
      subst hsame
      by_cases hexecuting : run.progress.unitState.get? unit = some .executing
      · rw [if_pos hexecuting] at hnext htold ⊢
        have houtcome : .terminal unit (if answer then .succeeded else .failed) ∈ records ++
            .verdict unit answer :: (run.after [.verdict unit answer]).ending unit
              (if answer then .succeeded else .failed) :=
          mem_append_right _ (mem_cons_of_mem _ mem_cons_self)
        obtain ⟨hterminal, hstate⟩ := htold.final _ houtcome
        exact ⟨_, hnext ▸ hstate, hterminal⟩
      · rw [if_neg hexecuting]
        rcases hrun.awaited unit hawaited with hstate | hstate
        · exact absurd hstate hexecuting
        · exact ⟨.failed, hstate, rfl⟩

variable {records : List Record}

/-- Blocks leave the units with a verdict terminal. -/
theorem Judged.blocks {run final : WorkflowRun}
    {blocks : List (List Record)} (hjudged : Judged run.progress records)
    (hprogress : run.progress = (WorkflowRun.replay run.workflow records).progress)
    (htold : Told run.workflow records) (hrun : run.Consistent)
    (hreads : Reads BlockStep run blocks final) :
    Judged final.progress (records ++ blocks.flatten) := by
  induction hreads generalizing records with
  | nil state => exact (append_nil records).symm ▸ hjudged
  | @cons state next final block rest hstep hrest ih =>
    obtain ⟨hblock, rfl⟩ := hstep
    have hnext := htold.block rfl hprogress hrun hblock
    rw [flatten_cons, ← append_assoc]
    refine ih (hjudged.block hprogress hnext hrun hblock) ?_ hnext (hblock.consistent hrun)
    show _ = (WorkflowRun.replay state.workflow (records ++ block)).progress
    rw [progress_replay_append, ← hprogress]
    rfl

/-- Calls leave the units with a verdict terminal. -/
theorem judged_perform {world : World} (hsound : world.Sound)
    (hrun : world.run.Consistent) (htold : Told world.run.workflow records)
    (hprogress : world.run.progress = (WorkflowRun.replay world.run.workflow records).progress)
    (hjudged : Judged world.run.progress records) (operations : List Operation) :
    Judged (world.perform operations).run.progress (records ++ world.trace operations) := by
  induction operations generalizing world records with
  | nil => exact (append_nil records).symm ▸ hjudged
  | cons operation rest ih =>
    obtain ⟨hafter, hreads⟩ := writes_call hsound hrun operation
    obtain ⟨hsound', hrun', hworkflow, hnext⟩ := after_call hsound hrun operation
    have hlast := ih hsound' hrun' (hworkflow.symm ▸ htold.blocks rfl hprogress hrun hreads)
      (by
        rw [hworkflow, progress_replay_append, ← hprogress, hnext]
        rfl)
      (by
        rw [hnext]
        exact hjudged.blocks hprogress htold hrun hreads)
    rw [append_assoc] at hlast
    exact hlast

/-! ### A cut elsewhere is reached by complete calls -/

/-- What a cut inside the records of a call leaves: nothing of the call, or the dispatch that it
began with, and no verdict. -/
structure World.Begun (world : World) (begun : List Record) (calls : List Operation) : Prop where
  dispatch : calls = [] ∨ calls = [.dispatchNext .raised]
  progress : (world.perform calls).run.progress = (world.run.after begun).progress
  unjudged : ∀ unit passed, .verdict unit passed ∉ begun

theorem World.Begun.nothing (world : World) : world.Begun [] [] where
  dispatch := .inl rfl
  progress := rfl
  unjudged := fun _ _ ↦ not_mem_nil

variable {unit : String}

theorem WorkflowRun.ending_cut {outcome : UnitState} {begun rest : List Record}
    (heq : run.ending unit outcome = begun ++ entry :: rest) :
    begun = [] ∧ entry = .terminal unit outcome ∨ ∃ status, entry = .workflowTerminal status := by
  rcases cons_eq_append_iff.mp heq with ⟨rfl, hfirst⟩ | ⟨later, rfl, hsettled⟩
  · cases hfirst
    exact .inl ⟨rfl, rfl⟩
  · right
    rcases Consistent.settlement_cases (run.at (run.progress.apply (.terminal unit outcome))) with
      ⟨hnone, -⟩ | ⟨-, status, hsome, -⟩
    · rw [hnone] at hsettled
      exact absurd hsettled.symm (by simp)
    · rw [hsome] at hsettled
      have hmem : entry ∈ [Record.workflowTerminal status] :=
        hsettled ▸ mem_append_right _ mem_cons_self
      exact ⟨status, mem_singleton.mp hmem⟩

/-- A cut in an execution result that continues no change leaves the progress as it was. -/
theorem WorkflowRun.execution_cut {ok : Bool} {earlier begun rest : List Record}
    (heq : run.execution unit ok = begun ++ entry :: rest)
    (houtside : ¬ Inside workflow (earlier ++ begun) entry) :
    (run.after begun).progress = run.progress ∧ ∀ other passed, .verdict other passed ∉ begun := by
  refine ⟨?_, fun other passed hmem ↦
    run.verdict_notMem_execution unit ok other passed (heq ▸ mem_append_left _ hmem)⟩
  cases ok with
  | true =>
    rcases cons_eq_append_iff.mp heq with ⟨rfl, -⟩ | ⟨later, -, hrest⟩
    · rfl
    · exact absurd hrest.symm (by simp)
  | false =>
    rcases cons_eq_append_iff.mp heq with ⟨rfl, -⟩ | ⟨later, rfl, hending⟩
    · rfl
    · rcases run.ending_cut hending with ⟨rfl, -⟩ | ⟨status, rfl⟩
      · rfl
      · exact absurd trivial houtside

/-- The records of a selection after the first one are outcomes of units that are not executed. -/
theorem WorkflowRun.selection_records {group unit : String}
    (hentry : entry ∈ run.selection group unit) :
    entry = .selected group unit ∨ ∃ other, entry = .terminal other .notExecuted := by
  unfold selection at hentry
  split at hentry
  · exact absurd hentry not_mem_nil
  · rcases mem_cons.mp hentry with rfl | hmem
    · exact .inl rfl
    · obtain ⟨other, -, rfl⟩ := mem_map.mp hmem
      exact .inr ⟨other, rfl⟩

/-- Selections leave the status alone. -/
theorem status_foldl_selections (progress : Progress)
    (hrecords : ∀ entry ∈ records, (∃ group unit, entry = .selected group unit) ∨
      ∃ other, entry = .terminal other .notExecuted) :
    (records.foldl Progress.apply progress).status = progress.status := by
  induction records generalizing progress with
  | nil => rfl
  | cons entry rest ih =>
    rw [foldl_cons, ih _ fun other hother ↦ hrecords other (mem_cons_of_mem _ hother)]
    rcases hrecords entry mem_cons_self with ⟨group, unit, rfl⟩ | ⟨other, rfl⟩
    · rfl
    · rfl

section Cuts

variable {world : World} {earlier begun rest : List Record} {entry : Record}

/-- A cut in an activation that continues no change is one before it. -/
theorem begun_activate (hprogress : world.run.progress =
      (WorkflowRun.replay world.run.workflow earlier).progress)
    (heq : (world.run.blocks .activate).flatten = begun ++ entry :: rest)
    (houtside : ¬ Inside world.run.workflow (earlier ++ begun) entry) : begun = [] := by
  by_cases hidle : world.run.progress.status = none
  · have hblocks : world.run.blocks .activate = [.activated] :: world.run.openGroups.map
        fun group ↦ world.run.selection group (world.run.workflow.best group) := if_pos hidle
    rw [hblocks, flatten_cons, singleton_append] at heq
    rcases cons_eq_append_iff.mp heq with ⟨rfl, -⟩ | ⟨later, rfl, hrest⟩
    · rfl
    · have hselections : ∀ other ∈ later ++ entry :: rest,
          (∃ group unit, other = .selected group unit) ∨
            ∃ name, other = .terminal name .notExecuted := by
        intro other hother
        rw [← hrest] at hother
        obtain ⟨block, hblock, hmem⟩ := mem_flatten.mp hother
        obtain ⟨group, -, rfl⟩ := mem_map.mp hblock
        rcases selection_records hmem with heq | hlost
        · exact .inl ⟨group, _, heq⟩
        · exact .inr hlost
      -- the workflow is active from its first record on
      have hactive : (WorkflowRun.replay world.run.workflow
          (earlier ++ .activated :: later)).progress.status = some .active := by
        rw [progress_replay_append, ← hprogress, foldl_cons,
          status_foldl_selections _ fun other hother ↦
            hselections other (mem_append_left _ hother)]
        rfl
      rcases hselections entry (mem_append_right _ mem_cons_self) with
        ⟨group, unit, rfl⟩ | ⟨name, rfl⟩
      · exact absurd hactive houtside
      · exact absurd (.inl rfl) houtside
  · rw [show world.run.blocks .activate = [] from if_neg hidle] at heq
    exact absurd heq.symm (by simp)

/-- A cut in a selection that continues no change is one before it. -/
theorem begun_selectBranch {group unit : String}
    (heq : (world.run.blocks (.selectBranch group unit)).flatten = begun ++ entry :: rest)
    (houtside : ¬ Inside workflow (earlier ++ begun) entry) : begun = [] := by
  simp only [WorkflowRun.blocks] at heq
  split at heq
  · rw [flatten_cons, flatten_nil, append_nil] at heq
    unfold WorkflowRun.selection at heq
    split at heq
    · exact absurd heq.symm (by simp)
    · rcases cons_eq_append_iff.mp heq with ⟨rfl, -⟩ | ⟨later, -, hrest⟩
      · rfl
      · have hmem : entry ∈ notExecuted _ := hrest ▸ mem_append_right _ mem_cons_self
        obtain ⟨name, -, rfl⟩ := mem_map.mp hmem
        exact absurd (.inl rfl) houtside
  · exact absurd heq.symm (by simp)

/-- A cut in a verdict that continues no change is one before it. -/
theorem begun_onVerdict {passed : Bool}
    (heq : (world.run.blocks (.onVerdict unit passed)).flatten = begun ++ entry :: rest)
    (houtside : ¬ Inside workflow (earlier ++ begun) entry) : begun = [] := by
  simp only [WorkflowRun.blocks] at heq
  split at heq
  · rw [flatten_cons, flatten_nil, append_nil] at heq
    rcases cons_eq_append_iff.mp heq with ⟨rfl, -⟩ | ⟨later, rfl, hrest⟩
    · rfl
    · split at hrest
      · rcases ending_cut hrest with ⟨rfl, rfl⟩ | ⟨status, rfl⟩
        · -- the outcome follows its verdict
          have hlast : (earlier ++ [Record.verdict unit passed]).getLast? =
              some (.verdict unit passed) := getLast?_concat
          refine absurd (.inr ?_) houtside
          cases passed with
          | true => exact .inl hlast
          | false => exact .inr hlast
        · exact absurd trivial houtside
      · exact absurd hrest.symm (by simp)
  · exact absurd heq.symm (by simp)

/-- A cut in a dispatch that continues no change is one before it, or one that tells the
dispatch. -/
theorem begun_dispatchNext (hsound : world.Sound) {answer : EngineAnswer}
    (heq : (world.run.blocks (.dispatchNext answer)).flatten = begun ++ entry :: rest)
    (houtside : ¬ Inside world.run.workflow (earlier ++ begun) entry) :
    ∃ calls, world.Begun begun calls := by
  cases hready : world.run.ready with
  | nil =>
    simp only [WorkflowRun.blocks, hready, flatten_nil] at heq
    exact absurd heq.symm (by simp)
  | cons unit others =>
    by_cases hcollaborators : world.run.collaborators = true
    · have hflatten : ∃ later, (world.run.blocks (.dispatchNext answer)).flatten =
          .dispatched unit :: later ∧
          (later = [] ∨ ∃ ok, later = (world.run.after [.dispatched unit]).execution unit ok) := by
        cases answer with
        | raised => exact ⟨[], by simp [WorkflowRun.blocks, hready, hcollaborators], .inl rfl⟩
        | finished ok =>
          exact ⟨_, by simp [WorkflowRun.blocks, hready, hcollaborators], .inr ⟨ok, rfl⟩⟩
      obtain ⟨later, hflatten, hlater⟩ := hflatten
      rw [hflatten] at heq
      rcases cons_eq_append_iff.mp heq with ⟨rfl, -⟩ | ⟨middle, rfl, hmiddle⟩
      · exact ⟨[], .nothing world⟩
      · rcases hlater with rfl | ⟨ok, rfl⟩
        · exact absurd hmiddle.symm (by simp)
        · rw [append_cons] at houtside
          obtain ⟨hsame, hunjudged⟩ := execution_cut hmiddle houtside
          refine ⟨[.dispatchNext .raised], .inr rfl, ?_, ?_⟩
          · have hafter := (writes_dispatchNext hsound .raised).1
            have hblocks : world.run.blocks (.dispatchNext .raised) = [[.dispatched unit]] := by
              simp [WorkflowRun.blocks, hready, hcollaborators]
            show (Operation.call (.dispatchNext .raised) |>.after world).run.progress = _
            rw [hafter, hblocks, progress_steppedAll]
            show (world.run.after [.dispatched unit]).progress =
              ((world.run.after [.dispatched unit]).after middle).progress
            rw [hsame]
          · intro other passed hmem
            rcases mem_cons.mp hmem with heq | hmem
            · cases heq
            · exact hunjudged other passed hmem
    · have hblocks : world.run.blocks (.dispatchNext answer) = [] := by
        simp [WorkflowRun.blocks, hready, hcollaborators]
      rw [hblocks] at heq
      exact absurd heq.symm (by simp)

/-- A cut in the records of a call that continues no change leaves nothing of the call, or the
dispatch that it began with. -/
theorem exists_begun (hsound : world.Sound) (hprogress : world.run.progress =
      (WorkflowRun.replay world.run.workflow earlier).progress) {operation : Operation}
    (heq : (world.run.blocks operation).flatten = begun ++ entry :: rest)
    (houtside : ¬ Inside world.run.workflow (earlier ++ begun) entry) :
    ∃ calls, world.Begun begun calls := by
  cases operation with
  | activate =>
    obtain rfl := begun_activate hprogress heq houtside
    exact ⟨[], .nothing world⟩
  | cancel =>
    simp only [WorkflowRun.blocks] at heq
    split at heq
    · rcases cons_eq_append_iff.mp heq with ⟨rfl, -⟩ | ⟨later, -, hrest⟩
      · exact ⟨[], .nothing world⟩
      · exact absurd hrest.symm (by simp)
    · exact absurd heq.symm (by simp)
  | selectBranch group unit =>
    obtain rfl := begun_selectBranch heq houtside
    exact ⟨[], .nothing world⟩
  | dispatchNext answer => exact begun_dispatchNext hsound heq houtside
  | onExecResult unit ok =>
    simp only [WorkflowRun.blocks] at heq
    split at heq
    · rw [flatten_cons, flatten_nil, append_nil] at heq
      obtain ⟨hsame, hunjudged⟩ := execution_cut heq houtside
      exact ⟨[], .inl rfl, hsame.symm, hunjudged⟩
    · exact absurd heq.symm (by simp)
  | onVerdict unit passed =>
    obtain rfl := begun_onVerdict heq houtside
    exact ⟨[], .nothing world⟩

end Cuts

/-- Assumes: each activation finds the selections in order, and the record after the cut continues
no change. Complete calls with such activations reach the state that the cut tells, and they wrote
its verdicts. -/
theorem exists_calls {world : World} (earlier : List Record) (hsound : world.Sound)
    (hrun : world.run.Consistent)
    (hprogress : world.run.progress = (WorkflowRun.replay world.run.workflow earlier).progress)
    {operations : List Operation} (hselects : world.Each WorkflowRun.SelectsAll operations)
    {before after : List Record} (heq : world.trace operations = before ++ after)
    (houtside : ∀ entry ∈ after.head?, ¬ Inside world.run.workflow (earlier ++ before) entry) :
    ∃ calls, world.Each WorkflowRun.SelectsAll calls ∧
      (world.perform calls).run.progress = (world.run.after before).progress ∧
      ∀ unit passed, .verdict unit passed ∈ before → .verdict unit passed ∈ world.trace calls := by
  induction operations generalizing world earlier before with
  | nil =>
    obtain ⟨rfl, -⟩ := append_eq_nil_iff.mp heq.symm
    exact ⟨[], trivial, rfl, fun _ _ hmem ↦ absurd hmem not_mem_nil⟩
  | cons operation rest ih =>
    obtain ⟨hfirst, hrest⟩ := hselects
    obtain ⟨hsound', hrun', hworkflow, hnext⟩ := after_call hsound hrun operation
    -- the cut lies in the records of this call, or after them
    have hlater : ∀ later, before = (world.run.blocks operation).flatten ++ later →
        (operation.call.after world).trace rest = later ++ after →
        ∃ calls, world.Each WorkflowRun.SelectsAll calls ∧
          (world.perform calls).run.progress = (world.run.after before).progress ∧
          ∀ unit passed, .verdict unit passed ∈ before →
            .verdict unit passed ∈ world.trace calls := by
      rintro later rfl htrace
      obtain ⟨calls, heach, hreached, hverdicts⟩ := ih
        (earlier ++ (world.run.blocks operation).flatten) hsound' hrun' (by
          rw [hworkflow, progress_replay_append, ← hprogress, hnext]
          rfl) hrest htrace (by
          rw [hworkflow, append_assoc]
          exact houtside)
      refine ⟨operation :: calls, ⟨hfirst, heach⟩, ?_, fun unit passed hmem ↦ ?_⟩
      · refine hreached.trans ?_
        rw [WorkflowRun.after_append]
        show later.foldl Progress.apply (operation.call.after world).run.progress = _
        rw [hnext]
        rfl
      · rcases mem_append.mp hmem with hold | hnew
        · exact mem_append_left _ hold
        · exact mem_append_right _ (hverdicts unit passed hnew)
    rcases append_eq_append_iff.mp heq with ⟨later, hbefore, htrace⟩ | ⟨part, hblocks, htail⟩
    · exact hlater later hbefore htrace
    · cases part with
      | nil =>
        rw [append_nil] at hblocks
        exact hlater [] (by rw [append_nil, hblocks]) htail.symm
      | cons entry others =>
        have hentry : entry ∈ after.head? := by
          rw [htail]
          rfl
        obtain ⟨calls, hcalls, hreached, hunjudged⟩ :=
          exists_begun hsound hprogress hblocks (houtside entry hentry)
        refine ⟨calls, ?_, hreached, fun unit passed hmem ↦ absurd hmem (hunjudged unit passed)⟩
        rcases hcalls with rfl | rfl
        · trivial
        · exact ⟨trivial, trivial⟩

/-- Assumes: the workflow has a unit, as every compiled one, and each activation finds the
selections in order. What a cut of the journal tells is whole exactly when the record after it, if
there is one, does not continue a change that was begun. -/
theorem World.cut_whole_iff (workflow : Workflow) (collaborators : Bool)
    (operations : List Operation) (hunits : workflow.units.keys ≠ [])
    (hselects : (World.fresh workflow collaborators).Each WorkflowRun.SelectsAll operations)
    (before after : List Record)
    (hcut : ((World.fresh workflow collaborators).perform operations).journal = before ++ after) :
    Whole workflow collaborators before ↔
      ∀ entry ∈ after.head?, ¬ Inside workflow before entry := by
  have hfresh : (World.fresh workflow collaborators).Sound := nofun
  have hnew : (World.fresh workflow collaborators).run.Consistent :=
    WorkflowRun.Consistent.new workflow true collaborators
  have htrace : (World.fresh workflow collaborators).trace operations = before ++ after := by
    rw [← hcut, (perform_spec hfresh hnew operations).1, journal_steppedAll]
    rfl
  have htold : Told workflow (before ++ after) := by
    rw [← htrace]
    exact told_trace hfresh hnew (told_nil workflow) rfl operations
  constructor
  · intro hwhole entry hentry hinside
    obtain ⟨rest, rfl⟩ := head?_eq_some_iff.mp hentry
    exact not_whole_of_inside hunits htold hinside hwhole
  · intro houtside
    obtain ⟨calls, heach, hreached, hverdicts⟩ :=
      exists_calls [] hfresh hnew rfl hselects htrace houtside
    obtain ⟨hperform, -, hrun⟩ := perform_spec hfresh hnew calls
    have hworkflow : ((World.fresh workflow collaborators).perform calls).run.workflow =
        workflow := by
      rw [hperform, workflow_steppedAll]
      rfl
    have hall : ((World.fresh workflow collaborators).perform calls).run.AllSelected :=
      allSelected_perform hfresh hnew nofun heach
    have hjudged := judged_perform hfresh hnew (told_nil workflow) rfl
      (fun _ _ hmem ↦ absurd hmem not_mem_nil) calls
    have hsame : (WorkflowRun.replay workflow before).progress =
        ((World.fresh workflow collaborators).perform calls).run.progress := hreached.symm
    have hunstalled := hrun.unstalled
    unfold WorkflowRun.AllSelected at hall
    unfold WorkflowRun.Unstalled at hunstalled
    rw [hworkflow, ← hsame] at hall hunstalled
    refine ⟨⟨calls, hsame⟩, hall, hunstalled, fun unit passed hmem ↦ ?_⟩
    rw [hsame]
    exact hjudged unit passed (hverdicts unit passed hmem)

/-- After an execution result the next call is awaited, and the cut tells what was reached. -/
theorem World.cut_whole_sample :
    Whole soloWorkflow true [.activated, .dispatched "u-1", .execResult "u-1" true] :=
  (cut_whole_iff soloWorkflow true
    [.activate, .dispatchNext (.finished true), .onVerdict "u-1" true] (by decide)
    ⟨fun _ ↦ by decide, trivial, trivial, trivial⟩
    [.activated, .dispatched "u-1", .execResult "u-1" true]
    [.verdict "u-1" true, .terminal "u-1" .succeeded, .workflowTerminal .completed]
    (by decide)).mpr (by decide)

/-- The process dies between a verdict and the outcome of its unit: the resumed run still takes the
unit for executing, and awaits no verdict for it. -/
theorem World.cut_after_verdict :
    let journal := ((World.fresh soloWorkflow true).perform
      [.activate, .dispatchNext (.finished true), .onVerdict "u-1" true]).journal
    journal.take 4 = [.activated, .dispatched "u-1", .execResult "u-1" true,
        .verdict "u-1" true] ∧
      ¬ Whole soloWorkflow true (journal.take 4) := by
  refine ⟨by decide, fun hwhole ↦ ?_⟩
  obtain ⟨state, hstate, hterminal⟩ := hwhole.judged "u-1" true (by decide)
  have hexecuting : state = .executing := Option.some.inj (hstate.symm.trans (by decide))
  rw [hexecuting] at hterminal
  exact nomatch hterminal

end AbsoluteZero.Scheduler

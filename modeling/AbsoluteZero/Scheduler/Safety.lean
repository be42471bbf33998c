import AbsoluteZero.Scheduler.Blocks

/-!
# Safety of a run

Each record of a run may follow the ones before it (`Lawful`, `told_trace`). From this alone follows
what a run promises of its units: dispatched once, after its predecessors and on the selected
branch; one outcome; and a success only after a passing verdict (`WorkflowRun.perform_safe`).
-/

namespace AbsoluteZero.Scheduler

open Foundations OrderedDict List WorkflowRun World Progress

def WorkflowRun.Unselected (run : WorkflowRun) (unit : String) : Prop :=
  ∃ group chosen, run.workflow.groupOf unit = some group ∧
    run.progress.selected.get? group = some chosen ∧ chosen ≠ unit

def Lawful (workflow : Workflow) (earlier : List Record) : Record → Prop
  | .activated | .cancelled => True
  | .workflowTerminal _ =>
    (WorkflowRun.replay workflow earlier).progress.status = some .active ∧
      ¬ ((WorkflowRun.replay workflow earlier).Unstalled ∧
        (WorkflowRun.replay workflow earlier).Unfinished)
  | .selected group _ => group ∈ workflow.groups.keys ∧
    (WorkflowRun.replay workflow earlier).progress.selected.get? group = none
  | .dispatched unit => unit ∈ (WorkflowRun.replay workflow earlier).ready
  | .execResult unit _ =>
    (WorkflowRun.replay workflow earlier).progress.unitState.get? unit = some .executing
  | .verdict unit _ => unit ∈ (WorkflowRun.replay workflow earlier).progress.execOk
  | .terminal unit outcome =>
    outcome.terminal = true ∧
      (∃ state, (WorkflowRun.replay workflow earlier).progress.unitState.get? unit = some state ∧
        state.terminal = false) ∧
      (outcome = .succeeded → ∃ before, earlier = before ++ [.verdict unit true] ∧
        unit ∈ (WorkflowRun.replay workflow before).progress.execOk) ∧
      (outcome = .notExecuted → (WorkflowRun.replay workflow earlier).Unselected unit)

/-- Each of the records may follow the ones before it. -/
def Told (workflow : Workflow) (records : List Record) : Prop :=
  ∀ before entry after, records = before ++ entry :: after → Lawful workflow before entry

section Told

variable {workflow : Workflow} {records : List Record}

theorem told_nil (workflow : Workflow) : Told workflow [] := by
  intro before entry after heq
  exact absurd heq.symm (by simp)

theorem Told.left {first second : List Record} (htold : Told workflow (first ++ second)) :
    Told workflow first := by
  intro before entry after heq
  exact htold before entry (after ++ second) (by rw [heq, append_assoc, cons_append])

theorem told_snoc_iff {entry : Record} :
    Told workflow (records ++ [entry]) ↔ Told workflow records ∧ Lawful workflow records entry := by
  constructor
  · intro htold
    exact ⟨htold.left, htold records entry [] rfl⟩
  · rintro ⟨htold, hlawful⟩ before last after heq
    rcases eq_nil_or_concat after with rfl | ⟨initial, final, rfl⟩
    · obtain ⟨rfl, hlast⟩ := append_inj' heq rfl
      cases hlast
      exact hlawful
    · rw [concat_eq_append, ← cons_append, ← append_assoc] at heq
      exact htold before last initial (append_inj' heq rfl).1

theorem Told.induction {motive : (records : List Record) → Told workflow records → Prop}
    (nil : motive [] (told_nil workflow))
    (snoc : ∀ earlier entry (htold : Told workflow earlier)
      (hlawful : Lawful workflow earlier entry),
      motive earlier htold → motive (earlier ++ [entry]) (told_snoc_iff.mpr ⟨htold, hlawful⟩))
    {records : List Record} (htold : Told workflow records) : motive records htold := by
  induction records using List.reverseRecOn with
  | nil => exact nil
  | append_singleton earlier entry ih =>
    obtain ⟨hearlier, hlawful⟩ := told_snoc_iff.mp htold
    exact snoc earlier entry hearlier hlawful (ih hearlier)

end Told

/-! ### The states of the units -/

theorem WorkflowRun.progress_replay_append (workflow : Workflow) (first second : List Record) :
    (replay workflow (first ++ second)).progress =
      second.foldl Progress.apply (replay workflow first).progress :=
  foldl_append

theorem WorkflowRun.progress_replay_snoc (workflow : Workflow) (records : List Record)
    (entry : Record) : (replay workflow (records ++ [entry])).progress =
      (replay workflow records).progress.apply entry :=
  progress_replay_append workflow records [entry]

def Record.Moves (unit : String) : Record → Prop
  | .dispatched other | .terminal other _ => other = unit
  | _ => False

variable {unit : String}

theorem Progress.get?_apply_of_not_moves (progress : Progress) {entry : Record}
    (hentry : ¬ entry.Moves unit) :
    (progress.apply entry).unitState.get? unit = progress.unitState.get? unit := by
  cases entry with
  | dispatched other | terminal other outcome => exact (get?_insert _ _ _ _).trans (if_neg hentry)
  | execResult other ok =>
    cases ok with
    | true | false => rfl
  | activated | cancelled | selected | verdict | workflowTerminal => rfl

/-- Two states of one unit. -/
theorem eq_of_get? {progress : Progress} {first second : UnitState}
    (hfirst : progress.unitState.get? unit = some first)
    (hsecond : progress.unitState.get? unit = some second) : first = second :=
  Option.some.inj (hfirst.symm.trans hsecond)

namespace Told

variable {workflow : Workflow} {records : List Record} {unit : String}

section

variable (htold : Told workflow records)

include htold

theorem final :
    ∀ outcome, .terminal unit outcome ∈ records → outcome.terminal = true ∧
      (WorkflowRun.replay workflow records).progress.unitState.get? unit = some outcome := by
  induction htold using Told.induction with
  | nil => exact fun _ hmem ↦ absurd hmem not_mem_nil
  | snoc earlier entry htold hlawful ih =>
    intro outcome hmem
    rw [progress_replay_snoc]
    rcases mem_append.mp hmem with hold | hnew
    · obtain ⟨hterminal, hstate⟩ := ih outcome hold
      refine ⟨hterminal, ?_⟩
      rw [get?_apply_of_not_moves, hstate]
      -- neither a dispatch nor an outcome may follow the outcome of the unit
      intro hmoves
      cases entry with
      | dispatched other =>
        obtain rfl : other = unit := hmoves
        rw [eq_of_get? hstate (of_mem_ready hlawful).2] at hterminal
        exact nomatch hterminal
      | terminal other last =>
        obtain rfl : other = unit := hmoves
        obtain ⟨-, ⟨state, hopen, hnot⟩, -, -⟩ := hlawful
        rw [eq_of_get? hstate hopen, hnot] at hterminal
        exact nomatch hterminal
      | activated | cancelled | selected | execResult | verdict | workflowTerminal =>
        exact hmoves
    · obtain rfl := mem_singleton.mp hnew
      exact ⟨hlawful.1, get?_insert_self _ _ _⟩

theorem notMem_terminal {state : UnitState}
    (hstate : (WorkflowRun.replay workflow records).progress.unitState.get? unit = some state)
    (hopen : state.terminal = false) (outcome : UnitState) : .terminal unit outcome ∉ records := by
  intro hmem
  obtain ⟨hterminal, hget⟩ := htold.final outcome hmem
  rw [eq_of_get? hget hstate, hopen] at hterminal
  exact nomatch hterminal

theorem of_state :
    ∀ state, (WorkflowRun.replay workflow records).progress.unitState.get? unit = some state →
      state ≠ .pending →
      state = .executing ∧ .dispatched unit ∈ records ∨ .terminal unit state ∈ records := by
  induction htold using Told.induction with
  | nil =>
    intro state hstate hne
    change (workflow.units.mapValues fun _ ↦ UnitState.pending).get? unit = _ at hstate
    rw [get?_mapValues, Option.map_eq_some_iff] at hstate
    obtain ⟨entry, -, hpending⟩ := hstate
    exact absurd hpending.symm hne
  | snoc earlier entry htold hlawful ih =>
    intro state hstate hne
    rw [progress_replay_snoc] at hstate
    by_cases hmoves : entry.Moves unit
    · cases entry with
      | dispatched other =>
        obtain rfl : other = unit := hmoves
        have hexecuting : some UnitState.executing = some state :=
          (get?_insert_self _ _ _).symm.trans hstate
        cases hexecuting
        exact .inl ⟨rfl, mem_append_right _ mem_cons_self⟩
      | terminal other outcome =>
        obtain rfl : other = unit := hmoves
        have houtcome : some outcome = some state :=
          (get?_insert_self _ _ _).symm.trans hstate
        cases houtcome
        exact .inr (mem_append_right _ mem_cons_self)
      | activated | cancelled | selected | execResult | verdict | workflowTerminal =>
        exact hmoves.elim
    · rw [get?_apply_of_not_moves _ hmoves] at hstate
      refine (ih state hstate hne).imp (fun hdispatched ↦ ?_) fun hterminal ↦ ?_
      · exact ⟨hdispatched.1, mem_append_left _ hdispatched.2⟩
      · exact mem_append_left _ hterminal

theorem ne_pending : .dispatched unit ∈ records →
      (WorkflowRun.replay workflow records).progress.unitState.get? unit ≠ some .pending := by
  induction htold using Told.induction with
  | nil => exact fun hmem ↦ absurd hmem not_mem_nil
  | snoc earlier entry htold hlawful ih =>
    intro hmem
    rw [progress_replay_snoc]
    by_cases hmoves : entry.Moves unit
    · cases entry with
      | dispatched other =>
        obtain rfl : other = unit := hmoves
        rw [show (Progress.apply _ (.dispatched other)).unitState.get? other = some .executing from
          get?_insert_self _ _ _]
        exact nofun
      | terminal other outcome =>
        obtain rfl : other = unit := hmoves
        rw [show (Progress.apply _ (.terminal other outcome)).unitState.get? other = some outcome
          from get?_insert_self _ _ _]
        intro hpending
        cases hpending
        exact nomatch hlawful.1
      | activated | cancelled | selected | execResult | verdict | workflowTerminal =>
        exact hmoves.elim
    · rw [get?_apply_of_not_moves _ hmoves]
      rcases mem_append.mp hmem with hold | hnew
      · exact ih hold
      · obtain rfl := mem_singleton.mp hnew
        exact absurd rfl hmoves

theorem awaited :
    unit ∈ (WorkflowRun.replay workflow records).progress.execOk →
      List.Sublist [.dispatched unit, .execResult unit true] records := by
  induction htold using Told.induction with
  | nil => exact fun hunit ↦ absurd hunit (Finset.notMem_empty unit)
  | snoc earlier entry htold hlawful ih =>
    intro hunit
    rw [progress_replay_snoc] at hunit
    have hold : unit ∈ (WorkflowRun.replay workflow earlier).progress.execOk →
        List.Sublist [.dispatched unit, .execResult unit true] (earlier ++ [entry]) :=
      fun hmem ↦ (ih hmem).trans (sublist_append_left _ _)
    cases entry with
    | execResult other ok =>
      cases ok with
      | false => exact hold hunit
      | true =>
        rcases Finset.mem_insert.mp hunit with rfl | hmem
        · -- an executing unit was dispatched
          rcases htold.of_state .executing hlawful nofun with ⟨-, hdispatched⟩ | hterminal
          · exact (singleton_sublist.mpr hdispatched).append (List.Sublist.refl _)
          · exact absurd hterminal (htold.notMem_terminal hlawful rfl _)
        · exact hold hmem
    | verdict other passed => exact hold (Finset.mem_of_mem_erase hunit)
    | activated | cancelled | selected | dispatched | terminal | workflowTerminal =>
      exact hold hunit

theorem succeeded (hmem : .terminal unit .succeeded ∈ records) :
    List.Sublist [.dispatched unit, .execResult unit true, .verdict unit true,
      .terminal unit .succeeded] records := by
  obtain ⟨before, after, rfl⟩ := append_of_mem hmem
  obtain ⟨-, -, hverified, -⟩ := htold before _ after rfl
  obtain ⟨earlier, rfl, hawaited⟩ := hverified rfl
  have hfirst := (Told.left (Told.left htold)).awaited hawaited
  have hlast : List.Sublist [.verdict unit true, .terminal unit .succeeded]
      (.verdict unit true :: .terminal unit .succeeded :: after) :=
    ((nil_sublist after).cons_cons _).cons_cons _
  rw [append_assoc]
  exact hfirst.append hlast

end

/-- An outcome stays. -/
theorem kept {first second : List Record} (htold : Told workflow (first ++ second))
    {outcome : UnitState} (hterminal : outcome.terminal = true)
    (hstate : (WorkflowRun.replay workflow first).progress.unitState.get? unit = some outcome) :
    (WorkflowRun.replay workflow (first ++ second)).progress.unitState.get? unit =
      some outcome := by
  have hne : outcome ≠ .pending := fun heq ↦ by
    rw [heq] at hterminal
    exact nomatch hterminal
  rcases htold.left.of_state outcome hstate hne with ⟨rfl, -⟩ | hmem
  · exact nomatch hterminal
  · exact (htold.final outcome (mem_append_left _ hmem)).2

theorem allowed (htold : Told workflow records) : .dispatched unit ∈ records →
      (WorkflowRun.replay workflow records).branchAllows unit = true := by
  induction htold using Told.induction with
  | nil => exact fun hmem ↦ absurd hmem not_mem_nil
  | snoc earlier entry htold hlawful ih =>
    intro hmem
    have hearlier : (WorkflowRun.replay workflow earlier).branchAllows unit = true := by
      rcases mem_append.mp hmem with hold | hnew
      · exact ih hold
      · obtain rfl := mem_singleton.mp hnew
        exact (WorkflowRun.Consistent.mem_ready_iff.mp hlawful).2.2.2.1
    rw [branchAllows_iff] at hearlier ⊢
    intro group hgroup
    have hselected := hearlier group hgroup
    rw [progress_replay_snoc]
    cases entry with
    | selected other chosen =>
      have hne : other ≠ group := fun heq ↦ by
        rw [← heq, hlawful.2] at hselected
        cases hselected
      exact (get?_insert _ _ _ _).trans ((if_neg hne).trans hselected)
    | execResult other ok =>
      cases ok with
      | true | false => exact hselected
    | activated | cancelled | dispatched | verdict | terminal | workflowTerminal => exact hselected

theorem count_dispatched_le (htold : Told workflow records) :
    records.count (.dispatched unit) ≤ 1 := by
  induction htold using Told.induction with
  | nil => exact Nat.zero_le 1
  | snoc earlier entry htold hlawful ih =>
    rw [count_append]
    by_cases hentry : entry = .dispatched unit
    · subst hentry
      have hnew : .dispatched unit ∉ earlier := fun hmem ↦
        htold.ne_pending hmem (of_mem_ready hlawful).2
      rw [count_eq_zero.mpr hnew, count_singleton_self]
    · rw [count_eq_zero.mpr (fun hmem ↦ hentry (mem_singleton.mp hmem).symm)]
      exact ih

end Told

def Record.ends (unit : String) : Record → Bool
  | .terminal other _ => other = unit
  | _ => false

namespace Told

variable {workflow : Workflow} {records : List Record} {unit : String}

theorem countP_ends_le (htold : Told workflow records) : records.countP (Record.ends unit) ≤ 1 := by
  induction htold using Told.induction with
  | nil => exact Nat.zero_le 1
  | snoc earlier entry htold hlawful ih =>
    rw [countP_append]
    by_cases hentry : entry.ends unit = true
    · have hnew : earlier.countP (Record.ends unit) = 0 := by
        rw [countP_eq_zero]
        intro old hold hends
        cases entry with
        | terminal other last =>
          obtain rfl : other = unit := of_decide_eq_true hentry
          obtain ⟨-, ⟨state, hstate, hopen⟩, -, -⟩ := hlawful
          cases old with
          | terminal name outcome =>
            obtain rfl : name = other := of_decide_eq_true hends
            exact htold.notMem_terminal hstate hopen outcome hold
          | activated | cancelled | selected | dispatched | execResult | verdict
          | workflowTerminal => exact nomatch hends
        | activated | cancelled | selected | dispatched | execResult | verdict
        | workflowTerminal => exact nomatch hentry
      rw [hnew, Nat.zero_add]
      exact countP_le_length
    · have hnone : [entry].countP (Record.ends unit) = 0 := by
        rw [countP_eq_zero]
        intro other hother
        obtain rfl := mem_singleton.mp hother
        exact hentry
      rw [hnone]
      exact ih

theorem dispatched_before (htold : Told workflow records) {producer consumer : String}
    (hedge : Relation.TransGen (fun first second ↦ (first, second) ∈ workflow.edges)
      producer consumer) : ∀ before after, records = before ++ .dispatched consumer :: after →
      .dispatched producer ∈ before := by
  -- along the path, from its last edge
  have hlast : ∀ first second, (first, second) ∈ workflow.edges → ∀ before after,
      records = before ++ .dispatched second :: after → .dispatched first ∈ before := by
    intro first second hmem before after heq
    have hready := WorkflowRun.Consistent.mem_ready_iff.mp (htold before _ after heq)
    have hpredecessor : first ∈ workflow.predecessors second :=
      mem_map.mpr ⟨(first, second), mem_filter.mpr ⟨hmem, decide_eq_true rfl⟩, rfl⟩
    have hsucceeded := hready.2.2.2.2 first hpredecessor
    have hbefore : Told workflow before := Told.left (heq ▸ htold)
    rcases hbefore.of_state .succeeded hsucceeded nofun with ⟨habsurd, -⟩ | hterminal
    · cases habsurd
    · exact (hbefore.succeeded hterminal).subset mem_cons_self
  induction hedge with
  | single hmem => exact hlast _ _ hmem
  | @tail middle last _ hmem ih =>
    intro before after heq
    obtain ⟨earlier, later, rfl⟩ := append_of_mem (hlast middle last hmem before after heq)
    have hsplit : records =
        earlier ++ .dispatched middle :: (later ++ .dispatched last :: after) := by
      rw [heq, append_assoc, cons_append]
    exact mem_append_left _ (ih earlier _ hsplit)

end Told

section Blocks

variable {workflow : Workflow} {records : List Record}

section

variable (htold : Told workflow records)

include htold

theorem Told.notExecuted {units : List String} (hnodup : units.Nodup) (hpending : ∀ unit ∈ units,
      (WorkflowRun.replay workflow records).progress.unitState.get? unit = some .pending)
    (hunselected : ∀ unit ∈ units, (WorkflowRun.replay workflow records).Unselected unit) :
    Told workflow (records ++ notExecuted units) := by
  induction units generalizing records with
  | nil => exact (append_nil records).symm ▸ htold
  | cons head rest ih =>
    obtain ⟨hfresh, hrest⟩ := nodup_cons.mp hnodup
    have hhead : Lawful workflow records (.terminal head .notExecuted) :=
      ⟨rfl, ⟨.pending, hpending head mem_cons_self, rfl⟩, nofun,
        fun _ ↦ hunselected head mem_cons_self⟩
    have hnext := ih (told_snoc_iff.mpr ⟨htold, hhead⟩) hrest (fun unit hunit ↦ by
      rw [progress_replay_snoc, get?_apply_of_not_moves]
      · exact hpending unit (mem_cons_of_mem _ hunit)
      · exact fun (heq : head = unit) ↦ hfresh (heq ▸ hunit)) fun unit hunit ↦ by
        unfold WorkflowRun.Unselected
        rw [progress_replay_snoc]
        exact hunselected unit (mem_cons_of_mem _ hunit)
    rw [append_assoc, singleton_append] at hnext
    exact hnext

/-- Assumes: the records tell the run, and the outcome may follow them. So may what it settles. -/
theorem Told.ending {run : WorkflowRun} (hworkflow : run.workflow = workflow)
    (hprogress : run.progress = (WorkflowRun.replay workflow records).progress)
    {outcome : UnitState} (hlawful : Lawful workflow records (.terminal unit outcome)) :
    Told workflow (records ++ run.ending unit outcome) := by
  have hfirst := told_snoc_iff.mpr ⟨htold, hlawful⟩
  have hsettled : (run.at (run.progress.apply (.terminal unit outcome))).settlement =
      (WorkflowRun.replay workflow (records ++ [.terminal unit outcome])).settlement := by
    refine settlement_congr hworkflow ?_
    rw [progress_replay_snoc, ← hprogress]
    rfl
  rw [WorkflowRun.ending, append_cons, hsettled]
  rcases WorkflowRun.Consistent.settlement_cases (WorkflowRun.replay workflow
    (records ++ [.terminal unit outcome])) with ⟨hnone, -⟩ | ⟨hactive, status, hsome, hstatus⟩
  · rw [hnone, append_nil]
    exact hfirst
  · rw [hsome]
    refine told_snoc_iff.mpr ⟨hfirst, hactive, ?_⟩
    rintro ⟨hunstalled, hunfinished⟩
    rcases hstatus with ⟨-, hstalled⟩ | ⟨-, -, hfinished⟩
    · exact hstalled hunstalled
    · exact hfinished hunfinished

theorem Told.block {run : WorkflowRun} {block : List Record} (hworkflow : run.workflow = workflow)
    (hprogress : run.progress = (WorkflowRun.replay workflow records).progress)
    (hrun : run.Consistent) (hblock : run.Block block) : Told workflow (records ++ block) := by
  cases hblock with
  | activated hidle | cancelled hactive => exact told_snoc_iff.mpr ⟨htold, trivial⟩
  | selection group unit members hmembers hunit hunselected =>
    have hopen : (WorkflowRun.replay workflow records).progress.selected.get? group = none :=
      hprogress ▸ hunselected
    have hknown : group ∈ workflow.groups.keys := by
      rw [← hworkflow]
      exact mem_map_of_mem (f := Prod.fst) ((get?_eq_some_iff _).mp hmembers)
    have hfirst : Told workflow (records ++ [.selected group unit]) :=
      told_snoc_iff.mpr ⟨htold, hknown, hopen⟩
    obtain ⟨-, hnodup, -⟩ := run.workflow.members_named (group, members)
      ((get?_eq_some_iff _).mp hmembers)
    have hgroupOf : ∀ member ∈ members.filter fun member ↦ member ≠ unit,
        run.workflow.groupOf member = some group := fun member hmember ↦
      (run.workflow.mem_members_iff hmembers).mp (mem_filter.mp hmember).1
    have hrest := hfirst.notExecuted (hnodup.filter fun member ↦ member ≠ unit)
      (fun member hmember ↦ by
        rw [progress_replay_snoc, ← hprogress]
        exact hrun.pending_of_unselected (hgroupOf member hmember) hunselected)
      fun member hmember ↦ by
        refine ⟨group, unit, ?_, ?_, ?_⟩
        · exact hworkflow ▸ hgroupOf member hmember
        · rw [progress_replay_snoc]
          exact get?_insert_self _ _ _
        · have hne := of_decide_eq_true (mem_filter.mp hmember).2
          exact Ne.symm hne
    rw [append_assoc, singleton_append] at hrest
    rw [WorkflowRun.selection, hmembers]
    exact hrest
  | dispatched unit hready =>
    refine told_snoc_iff.mpr ⟨htold, ?_⟩
    rw [ready_congr hworkflow hprogress] at hready
    exact hready
  | execution unit ok hexecuting =>
    have hstate : (WorkflowRun.replay workflow records).progress.unitState.get? unit =
        some .executing := hprogress ▸ hexecuting
    have hfirst : Told workflow (records ++ [.execResult unit ok]) :=
      told_snoc_iff.mpr ⟨htold, hstate⟩
    cases ok with
    | true => exact hfirst
    | false =>
      have hfailed : Lawful workflow (records ++ [.execResult unit false])
          (.terminal unit .failed) := by
        refine ⟨rfl, ⟨.executing, ?_, rfl⟩, by simp, by simp⟩
        rw [progress_replay_snoc]
        exact hstate
      have htells : run.progress =
          (WorkflowRun.replay workflow (records ++ [.execResult unit false])).progress := by
        rw [progress_replay_snoc]
        exact hprogress
      have hrest := hfirst.ending hworkflow htells hfailed
      rw [append_assoc, singleton_append] at hrest
      exact hrest
  | judgement unit passed hawaited =>
    have hmem : unit ∈ (WorkflowRun.replay workflow records).progress.execOk :=
      hprogress ▸ hawaited
    have hfirst : Told workflow (records ++ [.verdict unit passed]) :=
      told_snoc_iff.mpr ⟨htold, hmem⟩
    unfold WorkflowRun.judgement
    by_cases hexecuting : run.progress.unitState.get? unit = some .executing
    · have houtcome : Lawful workflow (records ++ [.verdict unit passed])
          (.terminal unit (if passed then .succeeded else .failed)) := by
        refine ⟨by cases passed <;> rfl, ⟨.executing, ?_, rfl⟩, fun hsucceeded ↦ ?_,
          fun hlost ↦ ?_⟩
        · rw [progress_replay_snoc]
          exact hprogress ▸ hexecuting
        · cases passed with
          | true => exact ⟨records, rfl, hmem⟩
          | false => cases hsucceeded
        · cases passed with
          | true | false => cases hlost
      have htells : (run.after [.verdict unit passed]).progress =
          (WorkflowRun.replay workflow (records ++ [.verdict unit passed])).progress := by
        rw [progress_replay_snoc, ← hprogress]
        rfl
      have hsame : (run.after [.verdict unit passed]).workflow = workflow := hworkflow
      have hrest := hfirst.ending hsame htells houtcome
      rw [append_assoc, singleton_append] at hrest
      rw [if_pos hexecuting]
      exact hrest
    · rw [if_neg hexecuting]
      exact hfirst

theorem Told.blocks {run final : WorkflowRun}
    {blocks : List (List Record)} (hworkflow : run.workflow = workflow)
    (hprogress : run.progress = (WorkflowRun.replay workflow records).progress)
    (hrun : run.Consistent) (hreads : Reads BlockStep run blocks final) :
    Told workflow (records ++ blocks.flatten) := by
  induction hreads generalizing records with
  | nil => exact (append_nil records).symm ▸ htold
  | cons hstep _ ih =>
    obtain ⟨hblock, rfl⟩ := hstep
    have hnext := htold.block hworkflow hprogress hrun hblock
    rw [flatten_cons, ← append_assoc]
    refine ih hnext hworkflow ?_ (hblock.consistent hrun)
    rw [progress_replay_append, ← hprogress]
    rfl

end

end Blocks

theorem told_trace {world : World} {records : List Record} (hsound : world.Sound)
    (hrun : world.run.Consistent) (htold : Told world.run.workflow records)
    (hprogress : world.run.progress =
      (WorkflowRun.replay world.run.workflow records).progress) (operations : List Operation) :
    Told world.run.workflow (records ++ world.trace operations) := by
  induction operations generalizing world records with
  | nil => exact (append_nil records).symm ▸ htold
  | cons operation rest ih =>
    obtain ⟨hafter, hreads⟩ := writes_call hsound hrun operation
    have hnext := htold.blocks rfl hprogress hrun hreads
    obtain ⟨hsound', hrun', hworkflow, -⟩ := after_call hsound hrun operation
    have hlast := ih hsound' hrun' (hworkflow.symm ▸ hnext) (by
      rw [hworkflow, progress_replay_append, ← hprogress, hafter, progress_steppedAll])
    rw [hworkflow, append_assoc] at hlast
    exact hlast

/-- What the records of a run say, and its progress with them. The state of a unit when a record is
written is the one that the records before it tell. -/
structure Safe (workflow : Workflow) (records : List Record) (progress : Progress) : Prop where
  /-- A dispatch waits for the predecessors and for the branch. -/
  dispatch_ready : ∀ before unit after, records = before ++ .dispatched unit :: after →
    (∀ predecessor ∈ workflow.predecessors unit,
      (WorkflowRun.replay workflow before).progress.unitState.get? predecessor =
        some .succeeded) ∧
      ∀ group, workflow.groupOf unit = some group →
        (WorkflowRun.replay workflow before).progress.selected.get? group = some unit
  dispatch_once : ∀ unit, records.count (.dispatched unit) ≤ 1
  outcome_once : ∀ unit, records.countP (Record.ends unit) ≤ 1
  /-- A terminal state stays. -/
  outcome_kept : ∀ before after unit outcome, records = before ++ after →
    outcome.terminal = true →
    (WorkflowRun.replay workflow before).progress.unitState.get? unit = some outcome →
    progress.unitState.get? unit = some outcome
  /-- Success comes after a dispatch, a successful execution and a passing verdict. -/
  success_verified : ∀ before after unit, records = before ++ after →
    (WorkflowRun.replay workflow before).progress.unitState.get? unit = some .succeeded →
    List.Sublist [.dispatched unit, .execResult unit true, .verdict unit true] before
  /-- The units of an unselected branch are not dispatched. -/
  dispatch_selected : ∀ unit group, .dispatched unit ∈ records →
    workflow.groupOf unit = some group → progress.selected.get? group = some unit
  /-- A dispatch comes after the dispatches of everything that leads to the unit. -/
  dispatch_ordered : ∀ producer consumer,
    Relation.TransGen (fun first second ↦ (first, second) ∈ workflow.edges) producer consumer →
    ∀ before after, records = before ++ .dispatched consumer :: after →
      .dispatched producer ∈ before
  /-- In a completed workflow the blocking units have succeeded, or their branch is unselected. -/
  completed_succeeded : progress.status = some .completed → ∀ item ∈ workflow.units.items,
    item.2.priorityBand.blocking = true →
      progress.unitState.get? item.1 = some .succeeded ∨
        ∃ group chosen, item.2.groupId = some group ∧
          progress.selected.get? group = some chosen ∧ chosen ≠ item.1

theorem Told.safe {run : WorkflowRun} {records : List Record}
    (htold : Told run.workflow records) (hrun : run.Consistent)
    (hprogress : run.progress = (WorkflowRun.replay run.workflow records).progress) :
    Safe run.workflow records run.progress where
  dispatch_ready := by
    intro before unit after heq
    obtain ⟨-, -, -, hallowed, hpredecessors⟩ :=
      WorkflowRun.Consistent.mem_ready_iff.mp (htold before _ after heq)
    exact ⟨hpredecessors, (branchAllows_iff _ unit).mp hallowed⟩
  dispatch_once := fun _ ↦ htold.count_dispatched_le
  outcome_once := fun _ ↦ htold.countP_ends_le
  outcome_kept := by
    intro before after unit outcome heq hterminal hstate
    subst heq
    rw [hprogress]
    exact htold.kept hterminal hstate
  success_verified := by
    intro before after unit heq hstate
    subst heq
    rcases htold.left.of_state .succeeded hstate nofun with ⟨habsurd, -⟩ | hmem
    · cases habsurd
    · have hsublist := htold.left.succeeded hmem
      exact (sublist_append_left [Record.dispatched unit, .execResult unit true,
        .verdict unit true] [Record.terminal unit .succeeded]).trans hsublist
  dispatch_selected := by
    intro unit group hmem hgroup
    rw [hprogress]
    exact (branchAllows_iff _ unit).mp (htold.allowed hmem) group hgroup
  dispatch_ordered := fun producer consumer hpath ↦ htold.dispatched_before hpath
  completed_succeeded := by
    intro hcompleted item hitem hblocking
    obtain ⟨hunstalled, hfinished⟩ := hrun.completed hcompleted
    have hknown : item.1 ∈ run.workflow.units.keys := mem_map_of_mem (f := Prod.fst) hitem
    have hentry : run.workflow.units.get? item.1 = some item.2 :=
      (get?_eq_some_iff _).mpr hitem
    obtain ⟨state, hstate⟩ := hrun.state_of_mem hknown
    have hterminal : state.terminal = true := by
      by_contra hopen
      refine hfinished ⟨item.1, hknown, fun other hother ↦ ?_⟩
      rw [hstate] at hother
      cases hother
      exact Bool.eq_false_of_not_eq_true hopen
    cases state with
    | pending | executing => exact nomatch hterminal
    | succeeded => exact .inl hstate
    | failed => exact absurd hstate (hunstalled item hitem hblocking)
    | notExecuted =>
      obtain ⟨group, chosen, hgroup, hchosen, hne⟩ := (hrun.losers item.1).mp hstate
      rw [Workflow.groupOf, hentry] at hgroup
      exact .inr ⟨group, chosen, hgroup, hchosen, hne⟩

theorem World.trace_congr {first second : World} (hfirst : first.Sound) (hsecond : second.Sound)
    (hrun : first.run.Consistent) (hworkflow : second.run.workflow = first.run.workflow)
    (hprogress : second.run.progress = first.run.progress)
    (hcollaborators : second.run.collaborators = first.run.collaborators)
    (operations : List Operation) : second.trace operations = first.trace operations := by
  induction operations generalizing first second with
  | nil => rfl
  | cons operation rest ih =>
    have hrun' : second.run.Consistent := hrun.congr hworkflow hprogress
    obtain ⟨hafter, hreads⟩ := writes_call hfirst hrun operation
    obtain ⟨hafter', -⟩ := writes_call hsecond hrun' operation
    have hblocks : second.run.blocks operation = first.run.blocks operation := by
      obtain ⟨⟨workflow, progress, nextSeq, replaying, storage, collaborators⟩, journal⟩ := second
      cases hworkflow
      cases hprogress
      cases hcollaborators
      rfl
    have hnext := consistent_steppedAll (consistent_of_reads hreads hrun)
    rw [trace, trace, hafter, hafter', hblocks]
    congr 1
    refine ih (hfirst.steppedAll _) (hsecond.steppedAll _) hnext ?_ ?_ ?_
    · rw [workflow_steppedAll, workflow_steppedAll, hworkflow]
    · rw [progress_steppedAll, progress_steppedAll, hprogress]
    · rw [collaborators_steppedAll, collaborators_steppedAll, hcollaborators]

/-- After any calls on a new run, with or without a storage and over any stored journal, the
progress is the one that the records of the calls tell, the journal grew by exactly these records,
and they are safe. -/
theorem WorkflowRun.perform_safe (workflow : Workflow) (storage collaborators : Bool)
    (stored : List Record) (operations : List Operation) :
    let world := (World.mk (.new workflow storage collaborators) stored).perform operations
    let records := ((World.fresh workflow collaborators).perform operations).journal
    world.run.progress = (replay workflow records).progress ∧
      world.journal = stored ++ (if storage then records else []) ∧
      Safe workflow records world.run.progress := by
  intro world records
  let start := World.mk (.new workflow storage collaborators) stored
  have hstart : start.Sound := nofun
  have hfresh : (World.fresh workflow collaborators).Sound := nofun
  have hconsistent : start.run.Consistent := Consistent.new workflow storage collaborators
  have hnew : (World.fresh workflow collaborators).run.Consistent :=
    Consistent.new workflow true collaborators
  obtain ⟨hworld, -, hrun⟩ := perform_spec hstart hconsistent operations
  have hrecords : records = start.trace operations := by
    show ((World.fresh workflow collaborators).perform operations).journal = _
    rw [(perform_spec hfresh hnew operations).1, journal_steppedAll]
    exact trace_congr hstart hfresh hconsistent rfl rfl rfl operations
  have hprogress : world.run.progress = (replay workflow records).progress := by
    show (start.perform operations).run.progress = _
    rw [hworld, progress_steppedAll, hrecords]
    rfl
  have hworkflow : world.run.workflow = workflow := by
    show (start.perform operations).run.workflow = _
    rw [hworld, workflow_steppedAll]
    rfl
  have htold : Told workflow records := by
    rw [hrecords]
    exact told_trace hstart hconsistent (told_nil workflow) rfl operations
  refine ⟨hprogress, ?_, ?_⟩
  · show (start.perform operations).journal = _
    rw [hworld, journal_steppedAll, hrecords]
    rfl
  · have hsafe : Safe world.run.workflow records world.run.progress :=
      Told.safe (hworkflow.symm ▸ htold) hrun (hworkflow.symm ▸ hprogress)
    rw [hworkflow] at hsafe
    exact hsafe

end AbsoluteZero.Scheduler

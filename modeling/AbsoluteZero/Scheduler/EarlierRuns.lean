import AbsoluteZero.Scheduler.Resume

/-!
# Runs over a journal that earlier runs left

A run may be built over the journal of earlier runs of its workflow; it starts from the initial
progress and appends. No record undoes another one, so the journal tells the new run exactly when no
earlier run left a record (`World.replay_eq_live_iff`).
-/

namespace AbsoluteZero.Scheduler

open Foundations OrderedDict List Option

/-- A run that was built over the same storage before, with the operations performed on it. The
process of a run may end in the middle of an operation: only the given number of its records reach
the journal then. -/
structure EarlierRun where
  storage : Bool
  collaborators : Bool
  operations : List Operation
  written : Option Nat

def World.over (workflow : Workflow) (storage collaborators : Bool) (journal : List Record) :
    World where
  run := .new workflow storage collaborators
  journal := journal

def EarlierRun.leaves (workflow : Workflow) (journal : List Record) (earlier : EarlierRun) :
    List Record :=
  let final := (World.over workflow earlier.storage earlier.collaborators journal).perform
    earlier.operations
  match earlier.written with
  | none => final.journal
  | some count => final.journal.take (journal.length + count)

def journalAfter (workflow : Workflow) (earlier : List EarlierRun) : List Record :=
  earlier.foldl (EarlierRun.leaves workflow) []

/-- A new run takes its steps from the initial progress, and appends exactly them to what is
there. -/
theorem World.reads_over (workflow : Workflow) (storage collaborators : Bool)
    (journal : List Record) (operations : List Operation) :
    let world := (World.over workflow storage collaborators journal).perform operations
    ∃ records, Reads (Step workflow) (.initial workflow) records world.run.progress ∧
      world.journal = journal ++ if storage then records else [] := by
  have hsound : (World.over workflow storage collaborators journal).Sound := nofun
  obtain ⟨-, records, hadvanced⟩ := advances_perform operations _ hsound
  exact ⟨records, hadvanced.reads, by simpa [WorkflowRun.recording, World.over, WorkflowRun.new]
    using hadvanced.journal⟩

/-- Something happened in the progress. -/
def Progress.Touched (progress : Progress) : Prop :=
  progress.status ≠ none ∨ progress.selected ≠ .empty ∨
    ∃ unit state, progress.unitState.get? unit = some state ∧ state ≠ .pending

variable {state : UnitState} {workflow : Workflow}

theorem Progress.pending_of_initial {unit : String}
    (hstate : (initial workflow).unitState.get? unit = some state) : state = .pending := by
  unfold initial at hstate
  rw [get?_mapValues] at hstate
  obtain ⟨_, -, hpending⟩ := map_eq_some_iff.mp hstate
  exact hpending.symm

theorem Progress.not_touched_initial (workflow : Workflow) : ¬ (initial workflow).Touched := by
  rintro (hstatus | hselected | ⟨unit, state, hstate, hne⟩)
  · exact hstatus rfl
  · exact hselected rfl
  · exact hne (pending_of_initial hstate)

theorem OrderedDict.insert_ne_empty {Key Value : Type} [DecidableEq Key]
    (dict : OrderedDict Key Value) (key : Key) (value : Value) :
      dict.insert key value ≠ .empty := by
  intro heq
  have hget : (dict.insert key value).get? key = none := by rw [heq, get?_empty]
  rw [get?_insert_self] at hget
  cases hget

theorem UnitState.ne_pending_of_terminal (hstate : state.terminal = true) : state ≠ .pending := by
  rintro rfl
  cases hstate

theorem Progress.Touched.of_insert (progress : Progress) (unit : String)
    (hstate : state ≠ .pending) :
    Touched { progress with unitState := progress.unitState.insert unit state } :=
  .inr (.inr ⟨unit, state, get?_insert_self _ _ _, hstate⟩)

/-- Assumes: the record is permitted somewhere. It leaves the traces that are there. -/
theorem Progress.Touched.apply {progress elsewhere : Progress}
    {entry : Record} (hpermitted : Permitted workflow elsewhere entry)
    (htouched : progress.Touched) : (progress.apply entry).Touched := by
  cases entry with
  | activated | cancelled => exact .inl (some_ne_none _)
  | selected group unit => exact .inr (.inl (OrderedDict.insert_ne_empty _ _ _))
  | dispatched unit => exact .of_insert progress unit nofun
  | execResult unit ok => cases ok <;> exact htouched
  | verdict unit passed => exact htouched
  | terminal unit outcome =>
    exact .of_insert progress unit (UnitState.ne_pending_of_terminal hpermitted.1)
  | workflowTerminal status => exact .inl (some_ne_none _)

/-- Assumes: the record may be the first one of a run. It leaves a trace. -/
theorem Progress.Touched.of_first {entry : Record}
    (hpermitted : Permitted workflow (.initial workflow) entry) (progress : Progress) :
    (progress.apply entry).Touched := by
  cases entry with
  | activated => exact .inl (some_ne_none _)
  | cancelled => exact absurd hpermitted nofun
  | selected group unit => exact .inr (.inl (OrderedDict.insert_ne_empty _ _ _))
  | dispatched unit => exact absurd hpermitted.1 nofun
  | execResult unit ok => exact absurd (pending_of_initial hpermitted) nofun
  | verdict unit passed => exact absurd hpermitted (Finset.notMem_empty unit)
  | terminal unit outcome =>
    exact .of_insert progress unit (UnitState.ne_pending_of_terminal hpermitted.1)
  | workflowTerminal status => exact absurd hpermitted.1 nofun

variable {records : List Record}

/-- Assumes: every record is permitted somewhere. Reading them leaves the traces that are there. -/
theorem Progress.Touched.foldl_apply {progress : Progress}
    (hrecords : ∀ entry ∈ records, ∃ elsewhere, Permitted workflow elsewhere entry)
    (htouched : progress.Touched) : (records.foldl Progress.apply progress).Touched := by
  induction records generalizing progress with
  | nil => exact htouched
  | cons entry rest ih =>
    obtain ⟨elsewhere, hpermitted⟩ := hrecords entry mem_cons_self
    exact ih (fun other hother ↦ hrecords other (mem_cons_of_mem _ hother))
      (htouched.apply hpermitted)

/-! ### What earlier runs leave -/

/-- A journal that runs of the workflow may have left: the first record is the first record of a
run, and every record was permitted when it was written. -/
structure Plausible (workflow : Workflow) (journal : List Record) : Prop where
  first : ∀ entry ∈ journal.head?, Permitted workflow (.initial workflow) entry
  records : ∀ entry ∈ journal, ∃ progress, Permitted workflow progress entry

theorem permitted_of_reads {start final : Progress}
    (hreads : Reads (Step workflow) start records final) :
    (∀ entry ∈ records.head?, Permitted workflow start entry) ∧
      ∀ entry ∈ records, ∃ progress, Permitted workflow progress entry := by
  induction hreads with
  | nil => exact ⟨nofun, nofun⟩
  | @cons state next final entry rest hstep hrest ih =>
    constructor
    · intro head hhead
      rw [head?_cons, mem_some_iff] at hhead
      exact hhead ▸ hstep.1
    · intro other hother
      rcases mem_cons.mp hother with rfl | hmem
      · exact ⟨state, hstep.1⟩
      · exact ih.2 other hmem

namespace Plausible

variable {workflow : Workflow} {journal : List Record}

theorem empty (workflow : Workflow) : Plausible workflow [] := ⟨nofun, nofun⟩

theorem append {final : Progress} (hjournal : Plausible workflow journal)
    (hreads : Reads (Step workflow) (.initial workflow) records final) :
    Plausible workflow (journal ++ records) where
  first := by
    intro entry hentry
    cases journal with
    | nil => exact (permitted_of_reads hreads).1 entry hentry
    | cons head rest => exact hjournal.first entry hentry
  records := by
    intro entry hentry
    rcases mem_append.mp hentry with hold | hnew
    · exact hjournal.records entry hold
    · exact (permitted_of_reads hreads).2 entry hnew

section

variable (hjournal : Plausible workflow journal)

include hjournal

theorem take (count : Nat) :
    Plausible workflow (journal.take count) where
  first := by
    intro entry hentry
    refine hjournal.first entry ?_
    cases count with
    | zero => cases hentry
    | succ count => rwa [head?_take, if_neg (Nat.succ_ne_zero count)] at hentry
  records := fun entry hentry ↦ hjournal.records entry (mem_of_mem_take hentry)

theorem leaves (earlier : EarlierRun) :
    Plausible workflow (earlier.leaves workflow journal) := by
  obtain ⟨records, hreads, hfinal⟩ := World.reads_over workflow earlier.storage
    earlier.collaborators journal earlier.operations
  have hall : Plausible workflow ((World.over workflow earlier.storage earlier.collaborators
      journal).perform earlier.operations).journal := by
    rw [hfinal]
    split
    · exact hjournal.append hreads
    · rwa [append_nil]
  unfold EarlierRun.leaves
  cases earlier.written with
  | none => exact hall
  | some count => exact hall.take _

theorem touched (hne : journal ≠ []) :
    (journal.foldl Progress.apply (.initial workflow)).Touched := by
  cases journal with
  | nil => exact absurd rfl hne
  | cons entry rest =>
    have hrest : ∀ other ∈ rest, ∃ elsewhere, Permitted workflow elsewhere other :=
      fun other hother ↦ hjournal.records other (mem_cons_of_mem _ hother)
    rw [foldl_cons]
    exact Progress.Touched.foldl_apply hrest (.of_first (hjournal.first entry rfl) _)

end

end Plausible

theorem plausible_journalAfter (workflow : Workflow) (earlier : List EarlierRun) :
    Plausible workflow (journalAfter workflow earlier) := by
  have hfrom : ∀ journal, Plausible workflow journal →
      Plausible workflow (earlier.foldl (EarlierRun.leaves workflow) journal) := by
    induction earlier with
    | nil => exact fun _ hjournal ↦ hjournal
    | cons run rest ih => exact fun _ hjournal ↦ ih _ (hjournal.leaves run)
  exact hfrom [] (.empty workflow)

/-- The replayed run has the status, unit states, executions awaiting a verdict and selections of
the live one. -/
def SameRun (rebuilt live : WorkflowRun) : Prop :=
  rebuilt.progress.status = live.progress.status ∧
    rebuilt.progress.unitState = live.progress.unitState ∧
    rebuilt.progress.execOk = live.progress.execOk ∧
    rebuilt.progress.selected = live.progress.selected

theorem sameRun_iff (rebuilt live : WorkflowRun) :
    SameRun rebuilt live ↔ rebuilt.progress = live.progress := by
  obtain ⟨_, ⟨_, _, _, _⟩, _, _, _, _⟩ := rebuilt
  obtain ⟨_, ⟨_, _, _, _⟩, _, _, _, _⟩ := live
  simp [SameRun]

/-- Over what earlier runs left, the journal of a new run tells its progress at every operation
boundary, whatever the operations are, exactly when there was nothing left. -/
theorem World.replay_eq_live_iff (workflow : Workflow) (earlier : List EarlierRun)
    (collaborators : Bool) : (∀ operations,
      let world := (World.over workflow true collaborators
        (journalAfter workflow earlier)).perform operations
      SameRun (.replay workflow world.journal) world.run) ↔
      journalAfter workflow earlier = [] := by
  constructor
  · intro hsame
    by_contra hne
    have hinitial : (journalAfter workflow earlier).foldl Progress.apply (.initial workflow) =
        .initial workflow := (sameRun_iff _ _).mp (hsame [])
    have htouched := (plausible_journalAfter workflow earlier).touched hne
    rw [hinitial] at htouched
    exact Progress.not_touched_initial workflow htouched
  · intro hempty operations world
    obtain ⟨records, hreads, hjournal⟩ :=
      World.reads_over workflow true collaborators [] operations
    have hworld : world = (World.over workflow true collaborators []).perform operations := by
      rw [← hempty]
    rw [sameRun_iff, hworld, hjournal]
    exact foldl_apply_of_reads hreads

/-- An earlier process activated the workflow and cancelled it. A new run over its storage has not
been activated, and its journal says cancelled. -/
theorem World.earlier_run_replayed :
    let journal := journalAfter soloWorkflow [⟨true, true, [.activate, .cancel], none⟩]
    let world := (World.over soloWorkflow true true journal).perform []
    world.run.progress.status = none ∧
      (WorkflowRun.replay soloWorkflow world.journal).progress.status = some .cancelled := by
  decide

end AbsoluteZero.Scheduler

import AbsoluteZero.Scheduler.Resume

/-!
# What a call writes

Every call of a consistent run, whether it returns or raises, writes a sequence of blocks of records
(`WorkflowRun.blocks`, `writes_call`), and its progress is the one that the records tell. A block
leads from one consistent progress to another, so every run is consistent after each of its calls
(`perform_spec`).
-/

namespace AbsoluteZero.Scheduler

open Foundations OrderedDict Call List WorkflowRun

/-! ### Several records -/

def World.steppedAll (world : World) (records : List Record) : World :=
  records.foldl World.stepped world

namespace World

section

variable (world : World)

@[simp] theorem steppedAll_nil : world.steppedAll [] = world := rfl

@[simp] theorem steppedAll_cons (entry : Record) (rest : List Record) :
    world.steppedAll (entry :: rest) = (world.stepped entry).steppedAll rest := rfl

theorem steppedAll_append (first second : List Record) :
    world.steppedAll (first ++ second) = (world.steppedAll first).steppedAll second :=
  foldl_append

@[simp] theorem workflow_stepped (entry : Record) :
    (world.stepped entry).run.workflow = world.run.workflow := (world.stepped_frame entry).1

section

variable (records : List Record)

@[simp] theorem workflow_steppedAll :
    (world.steppedAll records).run.workflow = world.run.workflow := by
  induction records generalizing world with
  | nil => rfl
  | cons entry rest ih => rw [steppedAll_cons, ih, workflow_stepped]

@[simp] theorem collaborators_steppedAll :
    (world.steppedAll records).run.collaborators = world.run.collaborators := by
  induction records generalizing world with
  | nil => rfl
  | cons entry rest ih => rw [steppedAll_cons, ih, (world.stepped_frame entry).2.2.1]

theorem journal_steppedAll :
    (world.steppedAll records).journal =
      world.journal ++ if world.run.recording then records else [] := by
  induction records generalizing world with
  | nil => simp
  | cons entry rest ih =>
    obtain ⟨-, hrecording, -, hjournal⟩ := world.stepped_frame entry
    rw [steppedAll_cons, ih, hjournal, hrecording, append_assoc]
    split <;> simp

@[simp] theorem progress_steppedAll :
    (world.steppedAll records).run.progress = records.foldl Progress.apply world.run.progress := by
  induction records generalizing world with
  | nil => rfl
  | cons entry rest ih => rw [steppedAll_cons, ih, progress_stepped, foldl_cons]

end

end

theorem Sound.steppedAll {world : World} (hsound : world.Sound) (records : List Record) :
    (world.steppedAll records).Sound := by
  induction records generalizing world with
  | nil => exact hsound
  | cons entry rest ih => exact ih (hsound.stepped entry)

end World

def WorkflowRun.settlement (run : WorkflowRun) : List Record :=
  if run.progress.status = some .active then
    (run.settled?.map Record.workflowTerminal).toList
  else []

def WorkflowRun.at (run : WorkflowRun) (progress : Progress) : WorkflowRun :=
  { run with progress := progress }

variable {first second : WorkflowRun}

theorem WorkflowRun.settlement_congr
    (hworkflow : first.workflow = second.workflow) (hprogress : first.progress = second.progress) :
    first.settlement = second.settlement := by
  unfold settlement settled?
  rw [hworkflow, hprogress]

variable {world : World}

theorem settle_spec (hsound : world.Sound) :
    settle.outcome world = .ok ⟨⟩ ∧ settle.after world = world.steppedAll world.run.settlement := by
  unfold settle WorkflowRun.settlement
  rw [outcome_get_bind, after_get_bind]
  by_cases hactive : world.run.progress.status = some .active
  · simp only [if_pos hactive]
    cases world.run.settled? with
    | none => exact ⟨rfl, rfl⟩
    | some status =>
      have hlogged := record_spec (hsound.changed fun progress ↦ progress.apply
        (.workflowTerminal status)) (.workflowTerminal status)
      constructor
      · rw [outcome_bind]
        exact hlogged.1
      · rw [after_change_bind]
        exact hlogged.2
  · simp only [if_neg hactive]
    exact ⟨rfl, rfl⟩

theorem outcome_stateOf_bind {Result : Type} (unit : String) (rest : UnitState → RunCall Result)
    (world : World) : (stateOf unit >>= rest).outcome world =
      match world.run.progress.unitState.get? unit with
      | some state => (rest state).outcome world
      | none => .error (.keyError unit) := by
  unfold stateOf
  cases hstate : world.run.progress.unitState.get? unit with
  | none | some state => simp [outcome_bind, hstate]

theorem stepped_bind {Result : Type} (hsound : world.Sound) (entry : Record)
    (rest : PUnit → RunCall Result) :
    (change (fun progress ↦ progress.apply entry) >>= fun _ ↦ record entry >>= rest).outcome world =
        (rest ⟨⟩).outcome (world.stepped entry) ∧
      (change (fun progress ↦ progress.apply entry) >>= fun _ ↦ record entry >>= rest).after world =
        (rest ⟨⟩).after (world.stepped entry) := by
  have hrecord := record_spec (hsound.changed fun progress ↦ progress.apply entry) entry
  constructor
  · rw [outcome_bind]
    change (record entry >>= rest).outcome (world.changed fun progress ↦ progress.apply entry) = _
    rw [outcome_bind, hrecord.1, hrecord.2]
    rfl
  · rw [after_change_bind, after_record_bind (hsound.changed _)]
    rfl

def WorkflowRun.ending (run : WorkflowRun) (unit : String) (outcome : UnitState) : List Record :=
  .terminal unit outcome :: (run.at (run.progress.apply (.terminal unit outcome))).settlement

theorem WorkflowRun.ending_congr
    (hworkflow : first.workflow = second.workflow) (hprogress : first.progress = second.progress)
    (unit : String) (outcome : UnitState) :
    first.ending unit outcome = second.ending unit outcome := by
  unfold ending
  have hsame : (first.at (first.progress.apply (.terminal unit outcome))).settlement =
      (second.at (second.progress.apply (.terminal unit outcome))).settlement :=
    settlement_congr hworkflow
      (congrArg (fun progress ↦ progress.apply (.terminal unit outcome)) hprogress)
  rw [hsame]

variable {unit : String}

theorem terminal_spec {state outcome : UnitState}
    (hsound : world.Sound) (hget : world.run.progress.unitState.get? unit = some state)
    (hopen : state.terminal = false) : (terminal unit outcome).outcome world = .ok ⟨⟩ ∧
      (terminal unit outcome).after world = world.steppedAll (world.run.ending unit outcome) := by
  have hsettled := settle_spec (hsound.stepped (.terminal unit outcome))
  have hsame : (world.stepped (.terminal unit outcome)).run.settlement =
      (world.run.at (world.run.progress.apply (.terminal unit outcome))).settlement :=
    settlement_congr (World.workflow_stepped _ _) (World.progress_stepped _ _)
  have hstepped := stepped_bind hsound (.terminal unit outcome) fun _ ↦ settle
  constructor
  · unfold terminal
    rw [outcome_stateOf_bind, hget]
    simp only [hopen, Bool.false_eq_true, if_false]
    exact hstepped.1.trans hsettled.1
  · rw [after_terminal_of_open hsound hget hopen, hsettled.2, hsame]
    rfl

theorem terminal_refused {state outcome : UnitState}
    (hget : world.run.progress.unitState.get? unit = some state) (hclosed : state.terminal = true) :
    (∃ error, (terminal unit outcome).outcome world = .error error) ∧
      (terminal unit outcome).after world = world := by
  constructor
  · refine ⟨.refusal ("ws.double_terminal:" ++ unit), ?_⟩
    unfold terminal
    rw [outcome_stateOf_bind, hget]
    simp only [hclosed, if_true]
    rfl
  · exact after_terminal_of_closed fun other hother ↦ by
      rw [hget] at hother
      cases hother
      exact hclosed

def WorkflowRun.Unstalled (run : WorkflowRun) : Prop :=
  ∀ item ∈ run.workflow.units.items, item.2.priorityBand.blocking = true →
    run.progress.unitState.get? item.1 ≠ some .failed

/-- Some unit has no outcome yet. -/
def WorkflowRun.Unfinished (run : WorkflowRun) : Prop :=
  ∃ unit ∈ run.workflow.units.keys, ∀ state ∈ run.progress.unitState.get? unit,
    state.terminal = false

/-- A run stalls once a blocking unit has failed; otherwise it completes unless some unit is
left. -/
theorem WorkflowRun.settled?_cases (run : WorkflowRun) :
    run.settled? = some .stalled ∧ ¬ run.Unstalled ∨
      run.settled? = some .completed ∧ run.Unstalled ∧ ¬ run.Unfinished ∨
      run.settled? = none ∧ run.Unstalled ∧ run.Unfinished := by
  have hfailed : (run.workflow.units.items.any fun item ↦ item.2.priorityBand.blocking ∧
      run.progress.unitState.get? item.1 = some .failed) = true ↔ ¬ run.Unstalled := by
    simp [Unstalled]
  have hterminal : (run.workflow.units.items.all fun item ↦
      (run.progress.unitState.get? item.1).any UnitState.terminal) = true ↔ ¬ run.Unfinished := by
    have hunit : ∀ unit, (run.progress.unitState.get? unit).any UnitState.terminal = true ↔
        ¬ ∀ state ∈ run.progress.unitState.get? unit, state.terminal = false := by
      intro unit
      cases run.progress.unitState.get? unit <;> simp
    simp only [all_eq_true, hunit, Unfinished, OrderedDict.keys, mem_map, not_exists, not_and]
    constructor
    · rintro hall unit ⟨item, hitem, rfl⟩
      exact hall item hitem
    · exact fun hall item hitem ↦ hall item.1 ⟨item, hitem, rfl⟩
  unfold settled?
  by_cases hunstalled : run.Unstalled
  · have hnone := mt hfailed.mp (not_not.mpr hunstalled)
    rw [if_neg hnone]
    by_cases hunfinished : run.Unfinished
    · rw [if_neg (mt hterminal.mp (not_not.mpr hunfinished))]
      exact .inr (.inr ⟨rfl, hunstalled, hunfinished⟩)
    · rw [if_pos (hterminal.mpr hunfinished)]
      exact .inr (.inl ⟨rfl, hunstalled, hunfinished⟩)
  · rw [if_pos (hfailed.mpr hunstalled)]
    exact .inl ⟨rfl, hunstalled⟩

variable {run : WorkflowRun}

theorem WorkflowRun.settled?_eq_none (hunstalled : run.Unstalled)
    (hunfinished : run.Unfinished) : run.settled? = none := by
  rcases run.settled?_cases with ⟨-, hfailed⟩ | ⟨-, -, hfinished⟩ | ⟨hnone, -, -⟩
  · exact absurd hunstalled hfailed
  · exact absurd hunfinished hfinished
  · exact hnone

theorem WorkflowRun.settlement_eq_nil
    (hquiet : run.progress.status = some .active → run.Unstalled ∧ run.Unfinished) :
    run.settlement = [] := by
  unfold settlement
  by_cases hactive : run.progress.status = some .active
  · obtain ⟨hunstalled, hunfinished⟩ := hquiet hactive
    rw [if_pos hactive, settled?_eq_none hunstalled hunfinished]
    rfl
  · exact if_neg hactive

def notExecuted (units : List String) : List Record :=
  units.map fun unit ↦ .terminal unit .notExecuted

theorem get?_foldl_notExecuted (units : List String) (progress : Progress) (unit : String) :
    ((notExecuted units).foldl Progress.apply progress).unitState.get? unit =
      if unit ∈ units then some .notExecuted else progress.unitState.get? unit := by
  induction units generalizing progress with
  | nil => simp [notExecuted]
  | cons head rest ih =>
    change ((notExecuted rest).foldl Progress.apply _).unitState.get? unit = _
    rw [ih, Progress.apply, get?_insert]
    by_cases hhead : head = unit
    · simp [hhead]
    · simp [hhead, Ne.symm hhead]

theorem foldl_notExecuted_frame (units : List String) (progress : Progress) :
    ((notExecuted units).foldl Progress.apply progress).status = progress.status ∧
      ((notExecuted units).foldl Progress.apply progress).execOk = progress.execOk ∧
      ((notExecuted units).foldl Progress.apply progress).selected = progress.selected := by
  induction units generalizing progress with
  | nil => exact ⟨rfl, rfl, rfl⟩
  | cons head rest ih => exact ih (progress.apply (.terminal head .notExecuted))

/-- Assumes: the units are pending, another one is too, and no blocking unit has failed. The loop
over the unselected units writes a record for each of them, and the run does not settle. -/
theorem forM_notExecuted {units : List String} {chosen : String}
    (hsound : world.Sound) (hnodup : units.Nodup)
    (hpending : ∀ unit ∈ units, world.run.progress.unitState.get? unit = some .pending)
    (hchosen : chosen ∉ units) (hunit : chosen ∈ world.run.workflow.units.keys)
    (hopen : world.run.progress.unitState.get? chosen = some .pending)
    (hunstalled : world.run.progress.status = some .active → world.run.Unstalled) :
    (units.forM fun unit ↦ terminal unit .notExecuted).outcome world = .ok ⟨⟩ ∧
      (units.forM fun unit ↦ terminal unit .notExecuted).after world =
        world.steppedAll (notExecuted units) := by
  induction units generalizing world with
  | nil => exact ⟨rfl, rfl⟩
  | cons head rest ih =>
    obtain ⟨hhead, hrest⟩ := nodup_cons.mp hnodup
    have hne : head ≠ chosen := fun heq ↦ hchosen (heq ▸ mem_cons_self)
    let next := world.run.at (world.run.progress.apply (.terminal head .notExecuted))
    have hget : ∀ unit, head ≠ unit →
        next.progress.unitState.get? unit = world.run.progress.unitState.get? unit :=
      fun unit hunit ↦ by
        change (world.run.progress.unitState.insert head .notExecuted).get? unit = _
        rw [get?_insert, if_neg hunit]
    have hstalled : next.progress.status = some .active → next.Unstalled := by
      intro hactive item hitem hblocking hfailed
      by_cases heq : head = item.1
      · have hself : next.progress.unitState.get? item.1 = some .notExecuted := by
          change (world.run.progress.unitState.insert head .notExecuted).get? item.1 = _
          rw [get?_insert, if_pos heq]
        rw [hself] at hfailed
        cases hfailed
      · exact hunstalled hactive item hitem hblocking ((hget item.1 heq).symm.trans hfailed)
    have hquiet : next.settlement = [] := settlement_eq_nil fun hactive ↦
      ⟨hstalled hactive, chosen, hunit, fun state hstate ↦ by
        rw [hget chosen hne, hopen] at hstate
        cases hstate
        rfl⟩
    obtain ⟨hok, hafter⟩ := terminal_spec hsound (hpending head mem_cons_self) rfl
    rw [WorkflowRun.ending, show (world.run.at _).settlement = [] from hquiet] at hafter
    have hlater := ih (hsound.stepped (.terminal head .notExecuted)) hrest
      (fun unit hmem ↦ by
        rw [World.progress_stepped]
        exact (hget unit fun heq ↦ hhead (heq ▸ hmem)).trans
          (hpending unit (mem_cons_of_mem _ hmem)))
      (fun hmem ↦ hchosen (mem_cons_of_mem _ hmem)) (by rwa [World.workflow_stepped])
      (by rw [World.progress_stepped]; exact (hget chosen hne).trans hopen)
      (by
        unfold WorkflowRun.Unstalled at hstalled ⊢
        rw [World.workflow_stepped, World.progress_stepped]
        exact hstalled)
    constructor
    · change (terminal head .notExecuted >>= fun _ ↦ rest.forM _).outcome world = _
      rw [outcome_bind, hok, hafter]
      exact hlater.1
    · change (terminal head .notExecuted >>= fun _ ↦ rest.forM _).after world = _
      rw [after_bind, hok, hafter]
      exact hlater.2

variable (workflow : Workflow)

def Workflow.groupOf (unit : String) : Option String :=
  (workflow.units.get? unit).bind WorkflowUnit.groupId

/-- What every call keeps. The units that are not executed are the unselected members of the groups
with a selection; a unit is executed only in an activated workflow and on an allowed branch; an
active workflow has no failed blocking unit and some unit left, a completed one has neither, and a
stalled one has a failed blocking unit. -/
structure WorkflowRun.Consistent (run : WorkflowRun) : Prop where
  known : ∀ unit, (run.progress.unitState.get? unit).isSome ↔ unit ∈ run.workflow.units.keys
  chosen : ∀ group unit, run.progress.selected.get? group = some unit →
    ∃ members, run.workflow.groups.get? group = some members ∧ unit ∈ members
  losers : ∀ unit, run.progress.unitState.get? unit = some .notExecuted ↔
    ∃ group chosen, run.workflow.groupOf unit = some group ∧
      run.progress.selected.get? group = some chosen ∧ chosen ≠ unit
  started : ∀ unit state, run.progress.unitState.get? unit = some state → state ≠ .pending →
    state ≠ .notExecuted → run.branchAllows unit = true ∧ run.progress.status ≠ none
  awaited : ∀ unit ∈ run.progress.execOk, run.progress.unitState.get? unit = some .executing ∨
    run.progress.unitState.get? unit = some .failed
  unstalled : run.progress.status = some .active → run.Unstalled
  unfinished : run.progress.status = some .active → run.workflow.units.keys ≠ [] → run.Unfinished
  completed : run.progress.status = some .completed → run.Unstalled ∧ ¬ run.Unfinished
  stalled : run.progress.status = some .stalled → ¬ run.Unstalled

variable {group : String}

theorem Workflow.mem_members_iff {members : List String}
    (hmembers : workflow.groups.get? group = some members) :
    unit ∈ members ↔ workflow.groupOf unit = some group := by
  constructor
  · intro hunit
    obtain ⟨-, -, hnamed⟩ := workflow.members_named (group, members)
      ((get?_eq_some_iff _).mp hmembers)
    obtain ⟨entry, hentry, hgroup⟩ := Option.map_eq_some_iff.mp (hnamed unit hunit)
    rw [groupOf, hentry]
    exact hgroup
  · intro hgroup
    obtain ⟨entry, hentry, hname⟩ := Option.bind_eq_some_iff.mp hgroup
    obtain ⟨members', hmembers', hunit⟩ := workflow.named_members (unit, entry)
      ((get?_eq_some_iff _).mp hentry) group hname
    rw [hmembers] at hmembers'
    cases hmembers'
    exact hunit

variable {unit group : String}

theorem Workflow.mem_units_of_groupOf {workflow : Workflow}
    (hgroup : workflow.groupOf unit = some group) : unit ∈ workflow.units.keys := by
  obtain ⟨entry, hentry, -⟩ := Option.bind_eq_some_iff.mp hgroup
  exact mem_map_of_mem (f := Prod.fst) ((get?_eq_some_iff _).mp hentry)

theorem WorkflowRun.branchAllows_iff (run : WorkflowRun) (unit : String) :
    run.branchAllows unit = true ↔ ∀ group, run.workflow.groupOf unit = some group →
      run.progress.selected.get? group = some unit := by
  have hgroupOf : run.workflow.groupOf unit =
      (run.workflow.units.get? unit).bind WorkflowUnit.groupId := rfl
  unfold branchAllows
  rw [hgroupOf]
  cases (run.workflow.units.get? unit).bind WorkflowUnit.groupId with
  | none | some group => simp

namespace WorkflowRun.Consistent

variable {run : WorkflowRun}

theorem new (workflow : Workflow) (storage collaborators : Bool) :
    (WorkflowRun.new workflow storage collaborators).Consistent where
  known := fun unit ↦ by
    change ((workflow.units.mapValues fun _ ↦ UnitState.pending).get? unit).isSome ↔ _
    rw [get?_mapValues, Option.isSome_map]
    constructor
    · intro hsome
      obtain ⟨entry, hentry⟩ := Option.isSome_iff_exists.mp hsome
      exact mem_map_of_mem (f := Prod.fst) ((get?_eq_some_iff _).mp hentry)
    · intro hunit
      by_contra hnone
      have hmissing : workflow.units.get? unit = none := by simpa using hnone
      exact (get?_eq_none_iff _).mp hmissing hunit
  chosen := nofun
  losers := fun unit ↦ by
    constructor
    · intro hstate
      change (workflow.units.mapValues fun _ ↦ UnitState.pending).get? unit = _ at hstate
      rw [get?_mapValues, Option.map_eq_some_iff] at hstate
      obtain ⟨entry, -, hpending⟩ := hstate
      cases hpending
    · rintro ⟨group, chosen, -, hchosen, -⟩
      cases hchosen
  started := fun unit state hstate hpending ↦ by
    change (workflow.units.mapValues fun _ ↦ UnitState.pending).get? unit = _ at hstate
    rw [get?_mapValues, Option.map_eq_some_iff] at hstate
    obtain ⟨entry, -, rfl⟩ := hstate
    exact absurd rfl hpending
  awaited := fun unit hunit ↦ absurd hunit (Finset.notMem_empty unit)
  unstalled := nofun
  unfinished := nofun
  completed := nofun
  stalled := nofun

theorem state_of_mem (hrun : run.Consistent) (hunit : unit ∈ run.workflow.units.keys) :
    ∃ state, run.progress.unitState.get? unit = some state :=
  Option.isSome_iff_exists.mp ((hrun.known unit).mpr hunit)

theorem pending_of_unselected (hrun : run.Consistent)
    (hgroup : run.workflow.groupOf unit = some group)
    (hunselected : run.progress.selected.get? group = none) :
    run.progress.unitState.get? unit = some .pending := by
  obtain ⟨state, hstate⟩ := hrun.state_of_mem (Workflow.mem_units_of_groupOf hgroup)
  by_cases hpending : state = .pending
  · rw [hstate, hpending]
  by_cases hloser : state = .notExecuted
  · obtain ⟨other, chosen, hother, hchosen, -⟩ := (hrun.losers unit).mp (hloser ▸ hstate)
    rw [hgroup] at hother
    cases hother
    rw [hunselected] at hchosen
    cases hchosen
  · have hallowed := (run.branchAllows_iff unit).mp (hrun.started unit state hstate hpending
      hloser).1 group hgroup
    rw [hunselected] at hallowed
    cases hallowed

theorem ne_notExecuted_of_selected (hrun : run.Consistent)
    (hselected : run.progress.selected.get? group = some unit) :
    run.progress.unitState.get? unit ≠ some .notExecuted := by
  intro hstate
  obtain ⟨members, hmembers, hunit⟩ := hrun.chosen group unit hselected
  have hgroup := (run.workflow.mem_members_iff hmembers).mp hunit
  obtain ⟨other, chosen, hother, hchosen, hne⟩ := (hrun.losers unit).mp hstate
  rw [hgroup] at hother
  cases hother
  rw [hselected] at hchosen
  cases hchosen
  exact hne rfl

end WorkflowRun.Consistent

/-! ### Blocks -/

def WorkflowRun.after (run : WorkflowRun) (records : List Record) : WorkflowRun :=
  run.at (records.foldl Progress.apply run.progress)

@[simp] theorem WorkflowRun.workflow_after (run : WorkflowRun) (records : List Record) :
    (run.after records).workflow = run.workflow := rfl

theorem WorkflowRun.after_append (run : WorkflowRun) (first second : List Record) :
    run.after (first ++ second) = (run.after first).after second := by
  simp only [after, «at», foldl_append]

/-- The records of a selection: the selection, and the outcome of each other member. -/
def WorkflowRun.selection (run : WorkflowRun) (group unit : String) : List Record :=
  match run.workflow.groups.get? group with
  | none => []
  | some members => .selected group unit :: notExecuted (members.filter fun member ↦ member ≠ unit)

def WorkflowRun.execution (run : WorkflowRun) (unit : String) (ok : Bool) : List Record :=
  if ok then [.execResult unit true]
  else .execResult unit false :: run.ending unit .failed

/-- The records of a verdict: the verdict, and the outcome unless the unit has one. -/
def WorkflowRun.judgement (run : WorkflowRun) (unit : String) (passed : Bool) : List Record :=
  .verdict unit passed ::
    if run.progress.unitState.get? unit = some .executing then
      (run.after [.verdict unit passed]).ending unit (if passed then .succeeded else .failed)
    else []

/-- The groups that an activation selects in: the sorted groups before the first one that has a
selection. -/
def WorkflowRun.openGroups (run : WorkflowRun) : List String :=
  (run.workflow.groups.keys.insertionSort (· ≤ ·)).takeWhile fun group ↦
    run.progress.selected.get? group = none

def Workflow.best (group : String) : String :=
  ((workflow.groups.get? group).bind List.head?).getD ""

def WorkflowRun.blocks (run : WorkflowRun) : Operation → List (List Record)
  | .activate =>
    if run.progress.status = none then
      [.activated] :: run.openGroups.map fun group ↦ run.selection group (run.workflow.best group)
    else []
  | .cancel => if run.progress.status = some .active then [[.cancelled]] else []
  | .selectBranch group unit =>
    if unit ∈ (run.workflow.groups.get? group).getD [] ∧
        run.progress.selected.get? group = none then
      [run.selection group unit]
    else []
  | .dispatchNext answer =>
    match run.ready with
    | [] => []
    | unit :: _ =>
      if run.collaborators then
        [.dispatched unit] :: match answer with
          | .raised => []
          | .finished ok => [(run.after [.dispatched unit]).execution unit ok]
      else []
  | .onExecResult unit ok =>
    if run.progress.unitState.get? unit = some .executing then [run.execution unit ok] else []
  | .onVerdict unit passed =>
    if unit ∈ run.progress.execOk then [run.judgement unit passed] else []

namespace WorkflowRun.Consistent

variable {run : WorkflowRun}

theorem unfinished_of_idle (hrun : run.Consistent) (hidle : run.progress.status = none)
    (hunits : run.workflow.units.keys ≠ []) : run.Unfinished := by
  obtain ⟨unit, hunit⟩ := exists_mem_of_ne_nil _ hunits
  obtain ⟨state, hstate⟩ := hrun.state_of_mem hunit
  have hpending : ∀ other state, run.progress.unitState.get? other = some state →
      state ≠ .notExecuted → state = .pending := by
    intro other state hother hne
    by_contra hstarted
    exact (hrun.started other state hother hstarted hne).2 hidle
  by_cases hloser : state = .notExecuted
  · obtain ⟨group, chosen, -, hchosen, -⟩ := (hrun.losers unit).mp (hloser ▸ hstate)
    obtain ⟨members, hmembers, hmember⟩ := hrun.chosen group chosen hchosen
    have hknown := Workflow.mem_units_of_groupOf
      ((run.workflow.mem_members_iff hmembers).mp hmember)
    refine ⟨chosen, hknown, fun other hother ↦ ?_⟩
    have hne : other ≠ .notExecuted := fun heq ↦
      hrun.ne_notExecuted_of_selected hchosen (heq ▸ hother)
    rw [hpending chosen other hother hne]
    rfl
  · refine ⟨unit, hunit, fun other hother ↦ ?_⟩
    rw [hstate] at hother
    cases hother
    rw [hpending unit state hstate hloser]
    rfl

theorem activated (hrun : run.Consistent) (hidle : run.progress.status = none) :
    (run.after [.activated]).Consistent :=
  { hrun with
    started := fun unit state hstate hpending hloser ↦
      ⟨(hrun.started unit state hstate hpending hloser).1, nofun⟩
    unstalled := fun _ item _ _ hfailed ↦
      (hrun.started item.1 .failed hfailed nofun nofun).2 hidle
    unfinished := fun _ ↦ hrun.unfinished_of_idle hidle
    completed := nofun
    stalled := nofun }

theorem cancelled (hrun : run.Consistent) : (run.after [.cancelled]).Consistent :=
  { hrun with
    started := fun unit state hstate hpending hloser ↦
      ⟨(hrun.started unit state hstate hpending hloser).1, nofun⟩
    unstalled := nofun
    unfinished := nofun
    completed := nofun
    stalled := nofun }

variable {members : List String}

/-- The states after a selection: its losers are not executed. -/
theorem get?_selection (unit : String)
    (hmembers : run.workflow.groups.get? group = some members) (other : String) :
    (run.after (run.selection group unit)).progress.unitState.get? other =
      if other ∈ members ∧ other ≠ unit then some .notExecuted
      else run.progress.unitState.get? other := by
  unfold selection
  rw [hmembers]
  change ((notExecuted _).foldl Progress.apply _).unitState.get? other = _
  rw [get?_foldl_notExecuted]
  simp only [mem_filter, decide_eq_true_eq]
  rfl

theorem selection_frame (unit : String) (hmembers : run.workflow.groups.get? group = some members) :
    (run.after (run.selection group unit)).progress.status = run.progress.status ∧
      (run.after (run.selection group unit)).progress.execOk = run.progress.execOk ∧
      (run.after (run.selection group unit)).progress.selected =
        run.progress.selected.insert group unit := by
  unfold selection
  rw [hmembers]
  exact foldl_notExecuted_frame _ _

theorem selection (hrun : run.Consistent) {group unit : String}
    (hmembers : run.workflow.groups.get? group = some members) (hunit : unit ∈ members)
    (hunselected : run.progress.selected.get? group = none) :
    (run.after (run.selection group unit)).Consistent := by
  obtain ⟨hstatus, hexecOk, hselected⟩ := selection_frame unit hmembers
  have hget := get?_selection unit hmembers
  have hgroupOf : ∀ other, other ∈ members ↔ run.workflow.groupOf other = some group :=
    fun other ↦ run.workflow.mem_members_iff hmembers
  have hpending : ∀ other ∈ members, run.progress.unitState.get? other = some .pending :=
    fun other hother ↦ hrun.pending_of_unselected ((hgroupOf other).mp hother) hunselected
  -- only losers change, from pending to not executed
  have hkeeps : ∀ other state, state ≠ .pending → state ≠ .notExecuted →
      ((run.after (run.selection group unit)).progress.unitState.get? other = some state ↔
        run.progress.unitState.get? other = some state) := by
    intro other state hne hloser
    rw [hget]
    split
    · next hother =>
      rw [hpending other hother.1]
      simp [Ne.symm hne, Ne.symm hloser]
    · rfl
  have hselections : ∀ other chosen, run.progress.selected.get? other = some chosen →
      (run.after (run.selection group unit)).progress.selected.get? other = some chosen := by
    intro other chosen hchosen
    have hne : group ≠ other := fun heq ↦ by
      rw [← heq, hunselected] at hchosen
      cases hchosen
    rw [hselected, get?_insert, if_neg hne, hchosen]
  refine ⟨fun other ↦ ?_, fun other chosen hchosen ↦ ?_, fun other ↦ ?_,
    fun other state hstate hne hloser ↦ ?_, fun other hother ↦ ?_, fun hactive ↦ ?_,
    fun hactive _ ↦ ?_, fun hcompleted ↦ ?_, fun hstalled ↦ ?_⟩
  · rw [hget]
    split
    · next hother =>
      simp only [Option.isSome_some, true_iff]
      exact Workflow.mem_units_of_groupOf ((hgroupOf other).mp hother.1)
    · exact hrun.known other
  · rw [hselected, get?_insert] at hchosen
    split at hchosen
    · next heq =>
      cases hchosen
      exact ⟨members, heq ▸ hmembers, hunit⟩
    · exact hrun.chosen other chosen hchosen
  · rw [hget]
    by_cases hother : other ∈ members ∧ other ≠ unit
    · rw [if_pos hother]
      refine iff_of_true rfl ⟨group, unit, (hgroupOf other).mp hother.1, ?_, Ne.symm hother.2⟩
      rw [hselected, get?_insert_self]
    · rw [if_neg hother, hrun.losers other]
      constructor
      · rintro ⟨name, chosen, hname, hchosen, hne⟩
        exact ⟨name, chosen, hname, hselections name chosen hchosen, hne⟩
      · rintro ⟨name, chosen, hname, hchosen, hne⟩
        rw [hselected, get?_insert] at hchosen
        split at hchosen
        · next heq =>
          cases hchosen
          exact absurd ⟨(hgroupOf other).mpr (heq ▸ hname), Ne.symm hne⟩ hother
        · exact ⟨name, chosen, hname, hchosen, hne⟩
  · have hold := (hkeeps other state hne hloser).mp hstate
    obtain ⟨hallowed, hidle⟩ := hrun.started other state hold hne hloser
    refine ⟨(branchAllows_iff _ other).mpr fun name hname ↦ ?_, fun heq ↦ hidle ?_⟩
    · exact hselections name other ((run.branchAllows_iff other).mp hallowed name hname)
    · rw [← hstatus, heq]
  · rw [hexecOk] at hother
    exact (hrun.awaited other hother).imp (hkeeps other .executing (by decide) (by decide)).mpr
      (hkeeps other .failed (by decide) (by decide)).mpr
  · rw [hstatus] at hactive
    exact fun item hitem hblocking hfailed ↦ hrun.unstalled hactive item hitem hblocking
      ((hkeeps item.1 .failed (by decide) (by decide)).mp hfailed)
  · refine ⟨unit, Workflow.mem_units_of_groupOf ((hgroupOf unit).mp hunit), fun state hstate ↦ ?_⟩
    rw [hget, if_neg fun hboth ↦ hboth.2 rfl, hpending unit hunit] at hstate
    cases hstate
    rfl
  · rw [hstatus] at hcompleted
    refine absurd ⟨unit, Workflow.mem_units_of_groupOf ((hgroupOf unit).mp hunit),
      fun state hstate ↦ ?_⟩ (hrun.completed hcompleted).2
    rw [hpending unit hunit] at hstate
    cases hstate
    rfl
  · rw [hstatus] at hstalled
    exact fun hunstalled ↦ hrun.stalled hstalled fun item hitem hblocking hfailed ↦
      hunstalled item hitem hblocking ((hkeeps item.1 .failed (by decide) (by decide)).mpr hfailed)

variable {unit : String}

/-- A ready unit is pending in an active workflow, its branch is allowed, and its predecessors have
succeeded. -/
theorem mem_ready_iff : unit ∈ run.ready ↔
    run.progress.status = some .active ∧ unit ∈ run.workflow.canonicalOrder ∧
      run.progress.unitState.get? unit = some .pending ∧ run.branchAllows unit = true ∧
      ∀ predecessor ∈ run.workflow.predecessors unit,
        run.progress.unitState.get? predecessor = some .succeeded := by
  unfold ready
  split
  · next hactive => simp [hactive]
  · next hactive => simp [hactive]

theorem dispatched (hrun : run.Consistent) (hready : unit ∈ run.ready) :
    (run.after [.dispatched unit]).Consistent := by
  obtain ⟨hactive, -, hpending, hallowed, -⟩ := mem_ready_iff.mp hready
  have hget : ∀ other, (run.after [.dispatched unit]).progress.unitState.get? other =
      if unit = other then some .executing else run.progress.unitState.get? other :=
    fun other ↦ get?_insert _ unit other _
  have hkeeps : ∀ other state, state ≠ .pending → state ≠ .executing →
      ((run.after [.dispatched unit]).progress.unitState.get? other = some state ↔
        run.progress.unitState.get? other = some state) := by
    intro other state hne hexecuting
    rw [hget]
    split
    · next heq =>
      rw [← heq, hpending]
      simp [Ne.symm hne, Ne.symm hexecuting]
    · rfl
  have hknown : unit ∈ run.workflow.units.keys := by
    rw [← hrun.known unit, hpending]
    rfl
  refine ⟨fun other ↦ ?_, hrun.chosen, fun other ↦ ?_, fun other state hstate hne hloser ↦ ?_,
    fun other hother ↦ ?_, fun _ item hitem hblocking hfailed ↦ ?_, fun _ hunits ↦ ?_,
    fun hcompleted ↦ ?_, fun hstalled ↦ ?_⟩
  · rw [hget]
    split
    · next heq => exact iff_of_true rfl (heq ▸ hknown)
    · exact hrun.known other
  · rw [hkeeps other .notExecuted (by decide) (by decide)]
    exact hrun.losers other
  · rw [hget] at hstate
    split at hstate
    · next heq =>
      refine ⟨heq ▸ hallowed, fun hidle ↦ ?_⟩
      have hclash := hactive.symm.trans hidle
      cases hclash
    · exact hrun.started other state hstate hne hloser
  · rw [hget]
    split
    · exact .inl rfl
    · exact hrun.awaited other hother
  · exact hrun.unstalled hactive item hitem hblocking
      ((hkeeps item.1 .failed (by decide) (by decide)).mp hfailed)
  · refine ⟨unit, hknown, fun state hstate ↦ ?_⟩
    rw [hget, if_pos rfl] at hstate
    cases hstate
    rfl
  · have hclash := hactive.symm.trans hcompleted
    cases hclash
  · have hclash := hactive.symm.trans hstalled
    cases hclash

/-- The end of the wait for a verdict. -/
theorem unawaited (hrun : run.Consistent) (unit : String) (passed : Bool) :
    (run.after [.verdict unit passed]).Consistent :=
  { hrun with
    awaited := fun other hother ↦ hrun.awaited other (Finset.mem_of_mem_erase hother) }

theorem executed (hrun : run.Consistent)
    (hexecuting : run.progress.unitState.get? unit = some .executing) :
    (run.after [.execResult unit true]).Consistent :=
  { hrun with
    awaited := fun other hother ↦ by
      rcases Finset.mem_insert.mp hother with rfl | hold
      · exact .inl hexecuting
      · exact hrun.awaited other hold }

theorem settlement_cases (run : WorkflowRun) : run.settlement = [] ∧
        (run.progress.status = some .active → run.Unstalled ∧ run.Unfinished) ∨
      run.progress.status = some .active ∧ ∃ status, run.settlement = [.workflowTerminal status] ∧
        (status = .stalled ∧ ¬ run.Unstalled ∨
          status = .completed ∧ run.Unstalled ∧ ¬ run.Unfinished) := by
  unfold settlement
  by_cases hactive : run.progress.status = some .active
  · rw [if_pos hactive]
    rcases run.settled?_cases with ⟨hsome, hfailed⟩ | ⟨hsome, hrest⟩ | ⟨hnone, hrest⟩
    · exact .inr ⟨hactive, .stalled, by rw [hsome]; rfl, .inl ⟨rfl, hfailed⟩⟩
    · exact .inr ⟨hactive, .completed, by rw [hsome]; rfl, .inr ⟨rfl, hrest⟩⟩
    · exact .inl ⟨by rw [hnone]; rfl, fun _ ↦ hrest⟩
  · rw [if_neg hactive]
    exact .inl ⟨rfl, fun hother ↦ absurd hother hactive⟩

/-- Assumes: the unit is executing, and if it succeeds it awaits no verdict. Its outcome, with what
it settles, keeps the run consistent. -/
theorem ending (hrun : run.Consistent) {outcome : UnitState}
    (hexecuting : run.progress.unitState.get? unit = some .executing)
    (houtcome : outcome = .failed ∨ outcome = .succeeded ∧ unit ∉ run.progress.execOk) :
    (run.after (run.ending unit outcome)).Consistent := by
  let next := run.after [.terminal unit outcome]
  have hget : ∀ other, next.progress.unitState.get? other =
      if unit = other then some outcome else run.progress.unitState.get? other :=
    fun other ↦ get?_insert _ unit other _
  have hnew : outcome ≠ .notExecuted ∧ outcome ≠ .pending := by
    rcases houtcome with rfl | ⟨rfl, -⟩ <;> decide
  have hknown : ∀ other, (next.progress.unitState.get? other).isSome ↔
      other ∈ run.workflow.units.keys := by
    intro other
    rw [hget]
    split
    · next heq =>
      refine iff_of_true rfl ?_
      rw [← heq, ← hrun.known unit, hexecuting]
      rfl
    · exact hrun.known other
  have hlosers : ∀ other, next.progress.unitState.get? other = some .notExecuted ↔
      run.progress.unitState.get? other = some .notExecuted := by
    intro other
    rw [hget]
    split
    · next heq =>
      rw [← heq, hexecuting]
      simp [hnew.1]
    · rfl
  obtain ⟨hallowed, hidle⟩ := hrun.started unit .executing hexecuting (by decide) (by decide)
  have hstarted : ∀ other state, next.progress.unitState.get? other = some state →
      state ≠ .pending → state ≠ .notExecuted →
      run.branchAllows other = true ∧ run.progress.status ≠ none := by
    intro other state hstate hne hloser
    rw [hget] at hstate
    split at hstate
    · next heq => exact ⟨heq ▸ hallowed, hidle⟩
    · exact hrun.started other state hstate hne hloser
  have hawaited : ∀ other ∈ run.progress.execOk,
      next.progress.unitState.get? other = some .executing ∨
        next.progress.unitState.get? other = some .failed := by
    intro other hother
    rw [hget]
    split
    · next heq =>
      rcases houtcome with rfl | ⟨-, hunawaited⟩
      · exact .inr rfl
      · exact absurd (heq ▸ hother) hunawaited
    · exact hrun.awaited other hother
  have hfailed : ¬ run.Unstalled → ¬ next.Unstalled := by
    intro hstalled hunstalled
    refine hstalled fun item hitem hblocking hitemFailed ↦ ?_
    refine hunstalled item hitem hblocking ?_
    rw [hget, if_neg fun heq ↦ by rw [← heq, hexecuting] at hitemFailed; cases hitemFailed]
    exact hitemFailed
  have hunfinished : run.Unfinished :=
    ⟨unit, (hrun.known unit).mp (by rw [hexecuting]; rfl), fun state hstate ↦ by
      rw [hexecuting] at hstate
      cases hstate
      rfl⟩
  rcases settlement_cases next with ⟨hquiet, hopen⟩ | ⟨hactive, status, hsettled, hstatus⟩
  · have heq : run.ending unit outcome = [.terminal unit outcome] :=
      congrArg (List.cons _) hquiet
    rw [heq]
    exact ⟨hknown, hrun.chosen, fun other ↦ (hlosers other).trans (hrun.losers other), hstarted,
      hawaited, fun hactive ↦ (hopen hactive).1, fun hactive _ ↦ (hopen hactive).2,
      fun hcompleted ↦ absurd hunfinished (hrun.completed hcompleted).2,
      fun hstalled ↦ hfailed (hrun.stalled hstalled)⟩
  · have heq : run.ending unit outcome = [.terminal unit outcome, .workflowTerminal status] :=
      congrArg (List.cons _) hsettled
    rw [heq]
    refine ⟨hknown, hrun.chosen, fun other ↦ (hlosers other).trans (hrun.losers other),
      fun other state hstate hne hloser ↦ ⟨(hstarted other state hstate hne hloser).1,
        Option.some_ne_none _⟩,
      hawaited, fun hother ↦ ?_, fun hother _ ↦ ?_, fun hother ↦ ?_, fun hother ↦ ?_⟩
    all_goals
      have hname := Option.some.inj hother
      subst hname
      rcases hstatus with ⟨hname, hrest⟩ | ⟨hname, hrest⟩
    · cases hname
    · cases hname
    · cases hname
    · cases hname
    · cases hname
    · exact hrest
    · exact hrest
    · cases hname

end WorkflowRun.Consistent

theorem WorkflowRun.Consistent.congr (hrun : first.Consistent)
    (hworkflow : second.workflow = first.workflow) (hprogress : second.progress = first.progress) :
    second.Consistent := by
  obtain ⟨workflow, progress, nextSeq, replaying, storage, collaborators⟩ := second
  cases hworkflow
  cases hprogress
  exact { hrun with }

/-- A block that the run may write, with the condition that the calls check. -/
inductive WorkflowRun.Block (run : WorkflowRun) : List Record → Prop
  | activated (hidle : run.progress.status = none) : run.Block [.activated]
  | cancelled (hactive : run.progress.status = some .active) : run.Block [.cancelled]
  | selection (group unit : String) (members : List String)
      (hmembers : run.workflow.groups.get? group = some members) (hunit : unit ∈ members)
      (hunselected : run.progress.selected.get? group = none) :
      run.Block (run.selection group unit)
  | dispatched (unit : String) (hready : unit ∈ run.ready) : run.Block [.dispatched unit]
  | execution (unit : String) (ok : Bool)
      (hexecuting : run.progress.unitState.get? unit = some .executing) :
      run.Block (run.execution unit ok)
  | judgement (unit : String) (passed : Bool) (hawaited : unit ∈ run.progress.execOk) :
      run.Block (run.judgement unit passed)

def BlockStep (run : WorkflowRun) (block : List Record) (next : WorkflowRun) : Prop :=
  run.Block block ∧ next = run.after block

theorem WorkflowRun.Block.consistent {block : List Record}
    (hblock : run.Block block) (hrun : run.Consistent) : (run.after block).Consistent := by
  cases hblock with
  | activated hidle => exact hrun.activated hidle
  | cancelled hactive => exact hrun.cancelled
  | selection group unit members hmembers hunit hunselected =>
    exact hrun.selection hmembers hunit hunselected
  | dispatched unit hready => exact hrun.dispatched hready
  | execution unit ok hexecuting =>
    cases ok with
    | true => exact hrun.executed hexecuting
    | false => exact (hrun.ending hexecuting (.inl rfl)).congr rfl rfl
  | judgement unit passed hawaited =>
    have hunawaited := hrun.unawaited unit passed
    unfold WorkflowRun.judgement
    by_cases hexecuting : run.progress.unitState.get? unit = some .executing
    · rw [if_pos hexecuting]
      have houtcome : (if passed then UnitState.succeeded else .failed) = .failed ∨
          (if passed then UnitState.succeeded else .failed) = .succeeded ∧
            unit ∉ (run.after [.verdict unit passed]).progress.execOk := by
        cases passed with
        | true => exact .inr ⟨rfl, Finset.notMem_erase unit _⟩
        | false => exact .inl rfl
      exact (hunawaited.ending hexecuting houtcome).congr rfl rfl
    · rw [if_neg hexecuting]
      exact hunawaited

theorem consistent_of_reads {run final : WorkflowRun} {blocks : List (List Record)}
    (hreads : Reads BlockStep run blocks final) (hrun : run.Consistent) : final.Consistent :=
  hreads.keeps hrun fun _ _ _ _ hstep hrun ↦ hstep.2 ▸ hstep.1.consistent hrun

theorem reads_congr {blocks : List (List Record)}
    (hworkflow : second.workflow = first.workflow) (hprogress : second.progress = first.progress)
    (hreads : Reads BlockStep first blocks (first.after blocks.flatten)) :
    Reads BlockStep second blocks (second.after blocks.flatten) := by
  induction blocks generalizing first second with
  | nil => exact .nil second
  | cons block rest ih =>
    obtain ⟨next, ⟨hblock, rfl⟩, hrest⟩ := reads_cons_iff.mp hreads
    rw [flatten_cons, WorkflowRun.after_append] at hrest ⊢
    have hnext : (second.after block).progress = (first.after block).progress := by
      show block.foldl Progress.apply second.progress = block.foldl Progress.apply first.progress
      rw [hprogress]
    have hsame : (second.after block).workflow = (first.after block).workflow := hworkflow
    refine .cons ⟨?_, rfl⟩ (ih hsame hnext hrest)
    obtain ⟨workflow, progress, nextSeq, replaying, storage, collaborators⟩ := second
    cases hworkflow
    cases hprogress
    cases hblock with
    | activated hidle => exact .activated hidle
    | cancelled hactive => exact .cancelled hactive
    | selection group unit members hmembers hunit hunselected =>
      exact .selection group unit members hmembers hunit hunselected
    | dispatched unit hready => exact .dispatched unit hready
    | execution unit ok hexecuting => exact .execution unit ok hexecuting
    | judgement unit passed hawaited => exact .judgement unit passed hawaited

theorem World.consistent_steppedAll {records : List Record}
    (hrun : (world.run.after records).Consistent) : (world.steppedAll records).run.Consistent :=
  hrun.congr (World.workflow_steppedAll _ _) (World.progress_steppedAll _ _)

/-! ### What each call writes -/

section Calls

variable {world : World}

/-- A selection that is allowed writes its block. -/
theorem selectBranch_spec (hsound : world.Sound) (hrun : world.run.Consistent)
    {group unit : String} {members : List String}
    (hmembers : world.run.workflow.groups.get? group = some members) (hunit : unit ∈ members)
    (hunselected : world.run.progress.selected.get? group = none) :
    (selectBranch group unit).outcome world = .ok ⟨⟩ ∧ (selectBranch group unit).after world =
        world.steppedAll (world.run.selection group unit) := by
  have hgroupOf : ∀ other ∈ members, world.run.workflow.groupOf other = some group :=
    fun other hother ↦ (world.run.workflow.mem_members_iff hmembers).mp hother
  have hpending : ∀ other ∈ members,
      world.run.progress.unitState.get? other = some .pending :=
    fun other hother ↦ hrun.pending_of_unselected (hgroupOf other hother) hunselected
  obtain ⟨-, hnodup, -⟩ := world.run.workflow.members_named (group, members)
    ((get?_eq_some_iff _).mp hmembers)
  have hstepped := stepped_bind hsound (.selected group unit) fun _ ↦
    (members.filter fun member ↦ member ≠ unit).forM fun member ↦ terminal member .notExecuted
  have hloop : ((members.filter fun member ↦ member ≠ unit).forM fun member ↦
        terminal member .notExecuted).outcome (world.stepped (.selected group unit)) = .ok ⟨⟩ ∧
      ((members.filter fun member ↦ member ≠ unit).forM fun member ↦
        terminal member .notExecuted).after (world.stepped (.selected group unit)) =
          (world.stepped (.selected group unit)).steppedAll
            (notExecuted (members.filter fun member ↦ member ≠ unit)) := by
    refine forM_notExecuted (hsound.stepped _) (hnodup.filter _) (fun other hother ↦ by
      rw [World.progress_stepped]
      exact hpending other (mem_filter.mp hother).1)
      (show unit ∉ _ by simp) ?_ ?_ fun hactive ↦ ?_
    · rw [World.workflow_stepped]
      exact Workflow.mem_units_of_groupOf (hgroupOf unit hunit)
    · rw [World.progress_stepped]
      exact hpending unit hunit
    · unfold WorkflowRun.Unstalled
      rw [World.progress_stepped] at hactive ⊢
      rw [World.workflow_stepped]
      exact hrun.unstalled hactive
  unfold selectBranch
  rw [outcome_get_bind, after_get_bind]
  simp only [hmembers, hunselected, Option.isSome_none,
    Bool.false_eq_true, if_false, not_not.mpr hunit]
  rw [WorkflowRun.selection, hmembers]
  exact ⟨hstepped.1.trans hloop.1, hstepped.2.trans hloop.2⟩

theorem selectBranch_refused {group unit : String}
    (hrefused : ¬ (unit ∈ (world.run.workflow.groups.get? group).getD [] ∧
      world.run.progress.selected.get? group = none)) :
    (∃ error, (selectBranch group unit).outcome world = .error error) ∧
      (selectBranch group unit).after world = world := by
  unfold selectBranch
  rw [outcome_get_bind, after_get_bind]
  cases hmembers : world.run.workflow.groups.get? group with
  | none => exact ⟨⟨_, rfl⟩, rfl⟩
  | some members =>
    rw [hmembers, Option.getD_some] at hrefused
    by_cases hunit : unit ∈ members
    · have hselected : (world.run.progress.selected.get? group).isSome = true := by
        rw [Option.isSome_iff_ne_none]
        exact fun hnone ↦ hrefused ⟨hunit, hnone⟩
      simp only [not_not.mpr hunit, if_false, hselected, if_true]
      exact ⟨⟨_, rfl⟩, rfl⟩
    · simp only [hunit, not_false_eq_true, if_true]
      exact ⟨⟨_, rfl⟩, rfl⟩

theorem Workflow.best_mem
    (hgroup : group ∈ workflow.groups.keys) : ∃ members, workflow.groups.get? group = some members ∧
      members.head? = some (workflow.best group) ∧ workflow.best group ∈ members := by
  obtain ⟨⟨name, members⟩, hitem, rfl⟩ := mem_map.mp hgroup
  have hmembers : workflow.groups.get? name = some members :=
    (get?_eq_some_iff _).mpr hitem
  obtain ⟨hne, -, -⟩ := workflow.members_named (name, members) hitem
  obtain ⟨best, rest, rfl⟩ := exists_cons_of_ne_nil hne
  have hbest : workflow.best name = best := by
    rw [Workflow.best, hmembers]
    rfl
  exact ⟨best :: rest, hmembers, by rw [hbest]; rfl, by rw [hbest]; exact mem_cons_self⟩

/-- `takeWhile` reads its condition on the elements alone. -/
theorem takeWhile_congr {Item : Type} {first second : Item → Bool} {items : List Item}
    (hitems : ∀ item ∈ items, first item = second item) :
    items.takeWhile first = items.takeWhile second := by
  induction items with
  | nil => rfl
  | cons item rest ih =>
    rw [takeWhile_cons, takeWhile_cons, hitems item mem_cons_self,
      ih fun other hother ↦ hitems other (mem_cons_of_mem _ hother)]

/-- One turn of the loop of an activation. -/
def selectDefault (group : String) : RunCall Unit :=
  match (workflow.groups.get? group).bind List.head? with
  | some best => selectBranch group best
  | none => throw .indexError

theorem forM_selectDefault_cons {workflow : Workflow} (hgroup : group ∈ workflow.groups.keys)
    (rest : List String) : (group :: rest).forM (selectDefault workflow) =
      (selectBranch group (workflow.best group) >>= fun _ ↦ rest.forM
        (selectDefault workflow)) := by
  obtain ⟨members, hmembers, hhead, -⟩ := workflow.best_mem hgroup
  change (selectDefault workflow group >>= fun _ ↦ rest.forM (selectDefault workflow)) = _
  rw [selectDefault, hmembers, Option.bind_some, hhead]

/-- The default selections in some groups, up to the first one that has a selection. -/
def WorkflowRun.defaults (run : WorkflowRun) (groups : List String) : List (List Record) :=
  (groups.takeWhile fun group ↦ run.progress.selected.get? group = none).map fun group ↦
    run.selection group (run.workflow.best group)

/-- The loop of an activation selects in the groups before the first one that has a selection. -/
theorem forM_selectDefault {groups : List String} (hsound : world.Sound)
    (hrun : world.run.Consistent) (hnodup : groups.Nodup)
    (hgroups : ∀ group ∈ groups, group ∈ world.run.workflow.groups.keys) :
    (groups.forM (selectDefault world.run.workflow)).after world =
        world.steppedAll (world.run.defaults groups).flatten ∧
      Reads BlockStep world.run (world.run.defaults groups)
        (world.run.after (world.run.defaults groups).flatten) := by
  induction groups generalizing world with
  | nil => exact ⟨rfl, .nil _⟩
  | cons group rest ih =>
    obtain ⟨hfresh, hrest⟩ := nodup_cons.mp hnodup
    have hgroup := hgroups group mem_cons_self
    obtain ⟨members, hmembers, -, hbest⟩ := world.run.workflow.best_mem hgroup
    rw [forM_selectDefault_cons hgroup, after_bind]
    by_cases hunselected : world.run.progress.selected.get? group = none
    · obtain ⟨hok, hafter⟩ := selectBranch_spec hsound hrun hmembers hbest hunselected
      have hnext := hrun.selection hmembers hbest hunselected
      generalize hnow : world.steppedAll (world.run.selection group
        (world.run.workflow.best group)) = now at hafter
      have hworkflow : now.run.workflow = world.run.workflow := by
        rw [← hnow, World.workflow_steppedAll]
      have hprogress : now.run.progress = (world.run.after (world.run.selection group
          (world.run.workflow.best group))).progress := by
        rw [← hnow, World.progress_steppedAll]
        rfl
      obtain ⟨hloop, hreads⟩ := ih (hnow ▸ hsound.steppedAll _) (hnext.congr hworkflow hprogress)
        hrest fun other hother ↦ hworkflow ▸ hgroups other (mem_cons_of_mem _ hother)
      -- the selections of the other groups are as before
      have hselected : now.run.progress.selected =
          world.run.progress.selected.insert group (world.run.workflow.best group) := by
        rw [hprogress]
        exact (WorkflowRun.Consistent.selection_frame _ hmembers).2.2
      have hwhile : (rest.takeWhile fun other ↦ now.run.progress.selected.get? other = none) =
          rest.takeWhile fun other ↦ world.run.progress.selected.get? other = none :=
        takeWhile_congr fun other hother ↦ by
          have hne : group ≠ other := fun heq ↦ hfresh (heq ▸ hother)
          rw [hselected, get?_insert, if_neg hne]
      have hdefaults : world.run.defaults (group :: rest) =
          world.run.selection group (world.run.workflow.best group) :: now.run.defaults rest := by
        unfold WorkflowRun.defaults WorkflowRun.selection
        rw [hwhile, hworkflow, takeWhile_cons_of_pos (by simpa using hunselected), map_cons]
      rw [hok, hafter, hdefaults, flatten_cons, World.steppedAll_append, hnow,
        WorkflowRun.after_append]
      exact ⟨hworkflow ▸ hloop, .cons ⟨.selection group _ members hmembers hbest hunselected, rfl⟩
        (reads_congr hworkflow.symm hprogress.symm hreads)⟩
    · obtain ⟨⟨error, herror⟩, hafter⟩ := selectBranch_refused fun hboth :
        world.run.workflow.best group ∈ (world.run.workflow.groups.get? group).getD [] ∧
          world.run.progress.selected.get? group = none ↦ hunselected hboth.2
      rw [herror, hafter, WorkflowRun.defaults, takeWhile_cons_of_neg (by simpa using hunselected)]
      exact ⟨rfl, .nil _⟩

/-- The call leaves behind what its blocks tell, and the run may write them. -/
def World.Writes (world : World) (operation : Operation) : Prop :=
  operation.call.after world = world.steppedAll (world.run.blocks operation).flatten ∧
    Reads BlockStep world.run (world.run.blocks operation)
      (world.run.after (world.run.blocks operation).flatten)

theorem World.Writes.nothing {operation : Operation} (hafter : operation.call.after world = world)
    (hblocks : world.run.blocks operation = []) : world.Writes operation := by
  rw [Writes, hafter, hblocks]
  exact ⟨rfl, .nil _⟩

theorem World.Writes.single {operation : Operation} {block : List Record}
    (hafter : operation.call.after world = world.steppedAll block)
    (hblocks : world.run.blocks operation = [block]) (hblock : world.run.Block block) :
    world.Writes operation := by
  rw [Writes, hafter, hblocks, flatten_cons, flatten_nil, append_nil]
  exact ⟨rfl, .single ⟨hblock, rfl⟩⟩

section

variable (hsound : world.Sound)

include hsound

theorem writes_activate (hrun : world.run.Consistent) :
    world.Writes .activate := by
  by_cases hidle : world.run.progress.status = none
  · have hblocks : world.run.blocks .activate = [.activated] :: world.run.openGroups.map
        fun group ↦ world.run.selection group (world.run.workflow.best group) := if_pos hidle
    have hactive := hrun.activated hidle
    have hsorted : (world.run.workflow.groups.keys.insertionSort (· ≤ ·)).Perm
        world.run.workflow.groups.keys := perm_insertionSort _ _
    have hstepped := (stepped_bind hsound .activated fun _ ↦
      (world.run.workflow.groups.keys.insertionSort (· ≤ ·)).forM
        (selectDefault world.run.workflow)).2
    generalize hnow : world.stepped .activated = now at hstepped
    have hworkflow : now.run.workflow = world.run.workflow := by
      rw [← hnow, World.workflow_stepped]
    have hprogress : now.run.progress = (world.run.after [.activated]).progress := by
      rw [← hnow, World.progress_stepped]
      rfl
    obtain ⟨hloop, hreads⟩ := forM_selectDefault (hnow ▸ hsound.stepped _)
      (hactive.congr hworkflow hprogress)
      (hsorted.nodup_iff.mpr world.run.workflow.groups.nodup)
      fun group hgroup ↦ hworkflow ▸ hsorted.mem_iff.mp hgroup
    have hdefaults : now.run.defaults (world.run.workflow.groups.keys.insertionSort (· ≤ ·)) =
        world.run.openGroups.map fun group ↦
          world.run.selection group (world.run.workflow.best group) := by
      unfold WorkflowRun.defaults WorkflowRun.openGroups WorkflowRun.selection
      rw [hprogress, hworkflow]
      rfl
    rw [hdefaults, hworkflow] at hloop
    rw [hdefaults] at hreads
    rw [World.Writes, hblocks, flatten_cons, singleton_append, World.steppedAll_cons, hnow]
    constructor
    · change activate.after world = _
      unfold activate
      rw [after_get_bind, after_ite, if_neg (not_not.mpr hidle)]
      exact hstepped.trans hloop
    · exact .cons ⟨.activated hidle, rfl⟩ (reads_congr hworkflow.symm hprogress.symm hreads)
  · refine .nothing ?_ (if_neg hidle)
    change activate.after world = world
    unfold activate
    rw [after_get_bind, after_ite, if_pos hidle]
    rfl

theorem writes_cancel : world.Writes .cancel := by
  have hcall : Operation.cancel.call.after world =
      if world.run.progress.status ≠ some .active then world
      else world.steppedAll [.cancelled] := by
    change cancel.after world = _
    unfold cancel
    rw [after_get_bind, after_ite, after_change_bind, (record_spec (hsound.changed _) .cancelled).2]
    rfl
  by_cases hactive : world.run.progress.status = some .active
  · exact .single (hcall.trans (if_neg (not_not.mpr hactive))) (if_pos hactive) (.cancelled hactive)
  · exact .nothing (hcall.trans (if_pos hactive)) (if_neg hactive)

theorem writes_selectBranch (hrun : world.run.Consistent)
    (group unit : String) : world.Writes (.selectBranch group unit) := by
  by_cases hallowed : unit ∈ (world.run.workflow.groups.get? group).getD [] ∧
      world.run.progress.selected.get? group = none
  · obtain ⟨members, hmembers, hunit⟩ := exists_of_mem_getD hallowed.1
    exact .single (selectBranch_spec hsound hrun hmembers hunit hallowed.2).2 (if_pos hallowed)
      (.selection group unit members hmembers hunit hallowed.2)
  · exact .nothing (selectBranch_refused hallowed).2 (if_neg hallowed)

theorem writes_onExecResult (unit : String) (ok : Bool) :
    world.Writes (.onExecResult unit ok) := by
  by_cases hexecuting : world.run.progress.unitState.get? unit = some .executing
  · refine .single ?_ (if_pos hexecuting) (.execution unit ok hexecuting)
    change (onExecResult unit ok).after world = _
    unfold onExecResult
    rw [after_stateOf_bind, hexecuting]
    simp only [ne_eq, not_true_eq_false, if_false]
    rw [after_record_bind hsound]
    cases ok with
    | true =>
      simp only [if_true, after_change, changed_logged_execResult]
      rfl
    | false =>
      have hlogged : world.logged (.execResult unit false) =
          world.stepped (.execResult unit false) := rfl
      have hsame : (world.stepped (.execResult unit false)).run.ending unit .failed =
          world.run.ending unit .failed :=
        ending_congr (World.workflow_stepped _ _) (World.progress_stepped _ _) _ _
      simp only [Bool.false_eq_true, if_false]
      rw [hlogged, (terminal_spec (hsound.stepped _)
        (by rw [World.progress_stepped]; exact hexecuting) rfl).2, hsame]
      rfl
  · refine .nothing ?_ (if_neg hexecuting)
    change (onExecResult unit ok).after world = world
    unfold onExecResult
    rw [after_stateOf_bind]
    cases hstate : world.run.progress.unitState.get? unit with
    | none => rfl
    | some state =>
      have hne : state ≠ .executing := fun heq ↦ hexecuting (heq ▸ hstate)
      simp only [ne_eq, hne, not_false_eq_true, if_true]
      rfl

theorem writes_onVerdict (hrun : world.run.Consistent) (unit : String)
    (passed : Bool) : world.Writes (.onVerdict unit passed) := by
  by_cases hawaited : unit ∈ world.run.progress.execOk
  · refine .single ?_ (if_pos hawaited) (.judgement unit passed hawaited)
    have hstepped := (stepped_bind hsound (.verdict unit passed) fun _ ↦
      terminal unit (if passed then .succeeded else .failed)).2
    change (onVerdict unit passed).after world = _
    unfold onVerdict WorkflowRun.judgement
    rw [after_get_bind, after_ite, if_neg (not_not.mpr hawaited)]
    refine hstepped.trans ?_
    rcases hrun.awaited unit hawaited with hexecuting | hfailed
    · have hsame : (world.stepped (.verdict unit passed)).run.ending unit
            (if passed then .succeeded else .failed) =
          (world.run.after [.verdict unit passed]).ending unit
            (if passed then .succeeded else .failed) := by
        refine ending_congr ?_ ?_ _ _
        · exact World.workflow_stepped _ _
        · exact World.progress_stepped _ _
      rw [if_pos hexecuting, (terminal_spec (hsound.stepped _)
        (by rw [World.progress_stepped]; exact hexecuting) rfl).2, hsame]
      rfl
    · have hne : world.run.progress.unitState.get? unit ≠ some .executing := by
        rw [hfailed]
        exact nofun
      rw [if_neg hne, (terminal_refused (by rw [World.progress_stepped]; exact hfailed) rfl).2]
      rfl
  · refine .nothing ?_ (if_neg hawaited)
    change (onVerdict unit passed).after world = world
    unfold onVerdict
    rw [after_get_bind, after_ite, if_pos hawaited]
    rfl

theorem writes_dispatchNext (answer : EngineAnswer) :
    world.Writes (.dispatchNext answer) := by
  cases hready : world.run.ready with
  | nil =>
    refine .nothing ?_ (by simp only [WorkflowRun.blocks, hready])
    change (dispatchNext answer).after world = world
    unfold dispatchNext
    rw [after_get_bind, hready]
    rfl
  | cons unit rest =>
    by_cases hcollaborators : world.run.collaborators = true
    · have hdispatched : world.run.Block [.dispatched unit] :=
        .dispatched unit (hready ▸ mem_cons_self)
      cases answer with
      | raised =>
        refine .single ?_ (by simp [WorkflowRun.blocks, hready, hcollaborators]) hdispatched
        change (dispatchNext .raised).after world = _
        unfold dispatchNext
        rw [after_get_bind, hready]
        simp only [hcollaborators, Bool.true_eq_false, if_false]
        exact (stepped_bind hsound (.dispatched unit) fun _ ↦
          (throw .collaborator : RunCall Unit)).2
      | finished ok =>
        have hblocks : world.run.blocks (.dispatchNext (.finished ok)) =
            [[.dispatched unit], (world.run.after [.dispatched unit]).execution unit ok] := by
          simp [WorkflowRun.blocks, hready, hcollaborators]
        have hstepped := (stepped_bind hsound (.dispatched unit) fun _ ↦ onExecResult unit ok).2
        obtain ⟨hafter, -⟩ := writes_onExecResult (hsound.stepped (.dispatched unit)) unit ok
        have hexecuting : (world.stepped (.dispatched unit)).run.progress.unitState.get? unit =
            some .executing := by
          rw [World.progress_stepped]
          exact get?_insert_self _ _ _
        have hends : (world.stepped (.dispatched unit)).run.ending unit .failed =
            (world.run.after [.dispatched unit]).ending unit .failed := by
          refine ending_congr ?_ ?_ _ _
          · exact World.workflow_stepped _ _
          · exact World.progress_stepped _ _
        have hsame : ((world.stepped (.dispatched unit)).run.blocks
              (.onExecResult unit ok)).flatten =
            (world.run.after [.dispatched unit]).execution unit ok := by
          simp only [WorkflowRun.blocks, if_pos hexecuting, flatten_cons, flatten_nil,
            append_nil, WorkflowRun.execution, hends]
        rw [World.Writes, hblocks]
        constructor
        · change (dispatchNext (.finished ok)).after world = _
          unfold dispatchNext
          rw [after_get_bind, hready]
          simp only [hcollaborators, Bool.true_eq_false, if_false]
          refine hstepped.trans (hafter.trans ?_)
          rw [hsame, flatten_cons, flatten_cons, flatten_nil, append_nil]
          rfl
        · refine .cons ⟨hdispatched, rfl⟩ (.cons ⟨.execution unit ok ?_, ?_⟩ (.nil _))
          · exact get?_insert_self _ _ _
          · rw [flatten_cons, flatten_cons, flatten_nil, append_nil, WorkflowRun.after_append]
    · refine .nothing ?_ (by simp [WorkflowRun.blocks, hready, hcollaborators])
      change (dispatchNext answer).after world = world
      unfold dispatchNext
      rw [after_get_bind, hready]
      simp only [Bool.eq_false_of_not_eq_true hcollaborators, if_true]
      rfl

theorem writes_call (hrun : world.run.Consistent) (operation : Operation) :
    world.Writes operation := by
  cases operation with
  | activate => exact writes_activate hsound hrun
  | cancel => exact writes_cancel hsound
  | selectBranch group unit => exact writes_selectBranch hsound hrun group unit
  | dispatchNext answer => exact writes_dispatchNext hsound answer
  | onExecResult unit ok => exact writes_onExecResult hsound unit ok
  | onVerdict unit passed => exact writes_onVerdict hsound hrun unit passed

theorem after_call (hrun : world.run.Consistent) (operation : Operation) :
    (operation.call.after world).Sound ∧ (operation.call.after world).run.Consistent ∧
      (operation.call.after world).run.workflow = world.run.workflow ∧
      (operation.call.after world).run.progress =
        (world.run.after (world.run.blocks operation).flatten).progress := by
  obtain ⟨hafter, hreads⟩ := writes_call hsound hrun operation
  rw [hafter, World.workflow_steppedAll, World.progress_steppedAll]
  exact ⟨hsound.steppedAll _, World.consistent_steppedAll (consistent_of_reads hreads hrun), rfl,
    rfl⟩

end

end Calls

def World.trace (world : World) : List Operation → List Record
  | [] => []
  | operation :: rest =>
    (world.run.blocks operation).flatten ++ (operation.call.after world).trace rest

/-- Assumes: an open journal continues at its end. After any calls the world is as their records
tell, and the run is consistent. -/
theorem perform_spec (hsound : world.Sound) (hrun : world.run.Consistent)
    (operations : List Operation) :
    world.perform operations = world.steppedAll (world.trace operations) ∧
      (world.perform operations).Sound ∧ (world.perform operations).run.Consistent := by
  induction operations generalizing world with
  | nil => exact ⟨rfl, hsound, hrun⟩
  | cons operation rest ih =>
    obtain ⟨hafter, hreads⟩ := writes_call hsound hrun operation
    obtain ⟨hsound', hrun', -⟩ := after_call hsound hrun operation
    obtain ⟨hperform, hlast⟩ := ih hsound' hrun'
    have htrace : world.trace (operation :: rest) = (world.run.blocks operation).flatten ++
        (operation.call.after world).trace rest := rfl
    refine ⟨?_, hlast⟩
    rw [htrace, World.steppedAll_append, ← hafter]
    exact hperform

end AbsoluteZero.Scheduler

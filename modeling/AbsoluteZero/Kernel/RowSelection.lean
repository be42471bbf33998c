import AbsoluteZero.Kernel.Pinning
import AbsoluteZero.Kernel.Replay
import AbsoluteZero.Kernel.Survival

/-!
# Two ways to select a row

The event loop takes the first row whose guard holds; replay takes the first row for a logged
permission and the last one for a logged refusal. The two agree exactly under a table where every
row that some entry reaches is the first one if it permits and the last one if it does not
(`rowsAgree_iff`, `selectionsAgree_iff`).
-/

namespace AbsoluteZero.Kernel

open Foundations OrderedDict List Coordinator Kernel.Core

/-! ### What a guard tests -/

inductive GuardTest
  | always
  | never
  | raises
  | verdict (name : String)
  | replans

def gateTest (gateDef : Json) : GuardTest :=
  if gateDef.fields?.isNone then .raises
  else if !(gateDef.item "check").hashable then .raises
  else if gateDef.item "check" = .str "verdict_true" then
    match gateDef.getD "verdict" (.str "verification") with
    | .str verdict => .verdict verdict
    | verdict => if verdict.hashable then .never else .raises
  else .never

variable (view : ConfigView)

def Row.test (row : Row) : GuardTest :=
  match row.guardName with
  | .null => .always
  | .str text =>
    match stripStart "gate:" text with
    | some gate => gateTest (view.gates.getD gate (.obj []))
    | none => if text = "replans_remaining" then .replans else .never
  | _ => .raises

namespace GuardTest

/-- The value of a test on an entry; none where evaluating the guard raises. -/
def value? (entry : RequestState) : GuardTest → Option Bool
  | always => some true
  | never => some false
  | raises => none
  | verdict name => some (entry.recordedVerdicts.get? name == some true)
  | replans => some (decide ((entry.replanCount : Int) < view.maxReplans))

/-- Some entry passes the test. -/
def CanHold : GuardTest → Prop
  | always | verdict _ => True
  | replans => 0 < view.maxReplans
  | never | raises => False

def CanFail (passed : GuardTest) : GuardTest → Prop
  | never => True
  | always | raises => False
  | test => test ≠ passed

/-- An entry in a state that passes a test and as few other tests as possible. -/
def passing (state : Json) (passed : GuardTest) : RequestState where
  requestId := .null
  lifecycleState := state
  recordedVerdicts :=
    match passed with
    | verdict name => OrderedDict.empty.insert name true
    | _ => .empty
  replanCount :=
    match passed with
    | replans => 0
    | _ => view.maxReplans.toNat

variable {view : ConfigView} {state : Json} {passed test : GuardTest}

theorem canHold_of_value? {entry : RequestState} (hvalue : test.value? view entry = some true) :
    test.CanHold view := by
  cases test <;> simp_all [value?, CanHold]
  omega

theorem canFail_of_value? {entry : RequestState} (hpassed : passed.value? view entry = some true)
    (hvalue : test.value? view entry = some false) : CanFail passed test := by
  have hne : test ≠ passed := by
    rintro rfl
    rw [hpassed] at hvalue
    cases hvalue
  cases test <;> first | exact hne | simp_all [value?, CanFail]

theorem value?_passing (hholds : passed.CanHold view) :
    passed.value? view (passing view state passed) = some true := by
  cases passed <;> simp_all [value?, CanHold, passing]

theorem value?_passing_of_canFail (hfails : CanFail passed test) :
    test.value? view (passing view state passed) = some false := by
  cases test with
  | always | raises => exact hfails.elim
  | never => rfl
  | verdict name =>
    cases passed with
    | verdict other =>
      have hne : other ≠ name := fun heq ↦ hfails (congrArg verdict heq.symm)
      simp [value?, passing, get?_insert, hne]
    | _ => simp [value?, passing]
  | replans =>
    cases passed with
    | replans => exact absurd rfl hfails
    | _ => simp [value?, passing]

end GuardTest

theorem evaluateGate_eq_ok_iff (gateDef : Json) (entry : RequestState) (holds : Bool) :
    evaluateGate entry gateDef = .ok holds ↔ (gateTest gateDef).value? view entry = some holds := by
  unfold evaluateGate gateTest
  split_ifs
  · simp [GuardTest.value?]
  · simp [GuardTest.value?]
  · unfold verdictTrue
    cases gateDef.getD "verdict" (.str "verification") <;> simp [GuardTest.value?, Json.hashable]
  · simp [GuardTest.value?]

theorem guard_eq_ok_iff (row : Row) (entry : RequestState) (holds : Bool) :
    (if row.guardName = .null then .ok true else guardHolds row.guardName entry view) = .ok holds ↔
      (row.test view).value? view entry = some holds := by
  unfold Row.test
  cases row.guardName
  case null => simp [GuardTest.value?]
  case str text =>
    rw [if_neg (by simp), guardHolds]
    dsimp only
    cases stripStart "gate:" text with
    | none =>
      split_ifs <;> simp [GuardTest.value?]
    | some gate => exact evaluateGate_eq_ok_iff view _ entry holds
  all_goals simp [guardHolds, GuardTest.value?]

def Row.permits (row : Row) (index : Nat) : Bool :=
  row.decision.orElse (.str (if index = 0 then "permit" else "block")) = .str "permit"

theorem pickRowFrom_eq_some_iff (entry : RequestState) (view : ConfigView) (index : Nat)
    (rows : List Row) (row : Row) (permitted : Bool) :
    pickRowFrom entry view index rows = .ok (some (row, permitted)) ↔
      ∃ before after, rows = before ++ row :: after ∧
        (∀ earlier ∈ before, (earlier.test view).value? view entry = some false) ∧
        (row.test view).value? view entry = some true ∧
        permitted = row.permits (index + before.length) := by
  induction rows generalizing index with
  | nil => simp [pickRowFrom]
  | cons first rest ih =>
    rw [pickRowFrom]
    constructor
    · intro hpicked
      split at hpicked
      · cases hpicked
      · next hfails =>
        obtain ⟨before, after, rfl, hbefore, hrow, hpermitted⟩ := (ih (index + 1)).mp hpicked
        refine ⟨first :: before, after, rfl, forall_mem_cons.mpr
          ⟨(guard_eq_ok_iff view first entry false).mp hfails, hbefore⟩, hrow, ?_⟩
        rw [hpermitted, length_cons, Nat.add_right_comm, Nat.add_assoc]
      · next hholds =>
        cases hpicked
        exact ⟨[], rest, rfl, by simp, (guard_eq_ok_iff view row entry true).mp hholds, rfl⟩
    · rintro ⟨before, after, hrows, hbefore, hrow, hpermitted⟩
      cases before with
      | nil =>
        obtain ⟨rfl, rfl⟩ := List.cons.inj hrows
        rw [(guard_eq_ok_iff view first entry true).mpr hrow, hpermitted]
        rfl
      | cons earlier before =>
        obtain ⟨rfl, rfl⟩ := List.cons.inj hrows
        obtain ⟨hfirst, hbefore⟩ := forall_mem_cons.mp hbefore
        rw [(guard_eq_ok_iff view first entry false).mpr hfirst]
        refine (ih (index + 1)).mpr ⟨before, after, rfl, hbefore, hrow, ?_⟩
        rw [hpermitted, length_cons, Nat.add_right_comm, Nat.add_assoc]

/-! ### Consistent tables -/

/-- Some entry reaches the row: it passes the test of the row and fails those of the rows before. -/
structure Reachable (view : ConfigView) (before : List Row) (row : Row) : Prop where
  holds : (row.test view).CanHold view
  fails : ∀ earlier ∈ before, (row.test view).CanFail (earlier.test view)

/-- Every row that some entry reaches is the first row if it permits and the last row if it does
not. A row that cannot be applied is never logged. -/
def ConsistentRows (rows : List Row) : Prop :=
  ∀ before row after, rows = before ++ row :: after → Reachable view before row → row.Runnable →
    replayedRow? rows (row.permits before.length) = some row

def ConsistentTable : Prop :=
  ∀ state event rows, view.rows state event = .ok (some rows) → ConsistentRows view rows

/-- The row that is picked for any entry and event, and applied, is the row that replay takes for
the guard result in its record. -/
def RowsAgree : Prop :=
  ∀ (entry : RequestState) (event eventId : Json) (rows : List Row) (row : Row) (permitted : Bool)
    (unit : Applied), view.rows entry.lifecycleState event = .ok (some rows) →
      pickRow rows entry view = .ok (some (row, permitted)) →
        applied entry event eventId row permitted view none = .ok unit →
          replayedRow? rows unit.record.guardResult = some row

variable {info : Option (List (String × Json))} {entry : RequestState} {guardResult : Bool}
  {event eventId : Json} {row : Row} {unit : Applied}

theorem applied_guardResult {view : ConfigView}
    (happlied : applied entry event eventId row guardResult view info = .ok unit) :
    unit.record.guardResult = guardResult := by
  obtain ⟨emits, actions, -, -, rfl⟩ := applied_eq_ok happlied
  rfl

variable {rows : List Row}

theorem ConsistentRows.agree {view : ConfigView} (hrows : ConsistentRows view rows)
    {permitted : Bool}
    (hpicked : pickRow rows entry view = .ok (some (row, permitted))) (hrunnable : row.Runnable) :
    replayedRow? rows permitted = some row := by
  obtain ⟨before, after, hsplit, hbefore, hrow, hpermitted⟩ :=
    (pickRowFrom_eq_some_iff entry view 0 rows row permitted).mp hpicked
  rw [hpermitted, Nat.zero_add]
  exact hrows before row after hsplit ⟨GuardTest.canHold_of_value? hrow, fun earlier hearlier ↦
    GuardTest.canFail_of_value? hrow (hbefore earlier hearlier)⟩ hrunnable

theorem rowsAgree_iff : RowsAgree view ↔ ConsistentTable view := by
  constructor
  · intro hagree state event rows hrows before row after hsplit hreachable hrunnable
    have hpicked : pickRow rows (GuardTest.passing view state (row.test view)) view =
        .ok (some (row, row.permits before.length)) := by
      refine (pickRowFrom_eq_some_iff _ view 0 rows row _).mpr ⟨before, after, hsplit,
        fun earlier hearlier ↦ ?_, GuardTest.value?_passing hreachable.holds, ?_⟩
      · exact GuardTest.value?_passing_of_canFail (hreachable.fails earlier hearlier)
      · rw [Nat.zero_add]
    obtain ⟨unit, happlied⟩ := (exists_applied_iff
      (GuardTest.passing view state (row.test view)) event .null row (row.permits before.length)
      view none).mpr hrunnable
    have hselected := hagree _ event .null rows row _ unit hrows hpicked happlied
    rwa [applied_guardResult happlied] at hselected
  · intro htable entry event eventId rows row permitted unit hrows hpicked happlied
    rw [applied_guardResult happlied]
    exact (htable _ _ rows hrows).agree hpicked
      ((exists_applied_iff _ _ _ _ _ _ _).mp ⟨unit, happlied⟩)

/-! ### Actions that replay retraces -/

/-- No admission goes on with an event that replay does not recompute. -/
def ChainsRecomputed : Prop :=
  ∀ rows, view.rows (.str "created") (.str "request.received") = .ok (some rows) →
    ∀ row ∈ rows, row.chain ∉ reservedEvents

/-- The actions on behalf of an envelope that replay retraces: transitions are by the row that
replay takes. -/
inductive Core.Retraced (core : Core) (env : Json) : Action → Prop
  | configure {view : ConfigView} (hview : ConsistentTable view ∧ ChainsRecomputed view) :
      Retraced core env (.configure view)
  | mark (hname : env.item "event_name" ∈ sessionEvents) :
      Retraced core env (.mark (env.item "event_name"))
  | absorb {entry : RequestState} (hname : env.item "event_name" ∉ reservedEvents) :
      Retraced core env (.absorb entry env)
  | admission {rows : List Row} {row : Row} {guardResult : Bool} {reason : String} {unit : Applied}
      (hnew : core.Newcomer env)
      (hrows : core.config.rows (.str "created") (.str "request.received") = .ok (some rows))
      (hselected : replayedRow? rows guardResult = some row)
      (happlied : applied (Coordinator.admittedEntry env core.config) (.str "request.received")
        (env.item "event_id") row guardResult core.config
        (some [("declared_type", (Coordinator.admittedEntry env core.config).declaredType),
          ("reason", .str reason)]) = .ok unit) : Retraced core env (.commit unit)
  | advance {entry : RequestState} {event : Json} {rows : List Row} {row : Row} {guardResult : Bool}
      {view : ConfigView} {info : Option (List (String × Json))} {unit : Applied}
      (hevent : event ∉ reservedEvents) (hid : (env.item "event_id").nonemptyStr = true)
      (hentry : core.ledger.get? (env.item "request_id") = some entry)
      (hview : core.configs.at? entry.configVersion = some view)
      (hrows : view.rows entry.lifecycleState event = .ok (some rows))
      (hselected : replayedRow? rows guardResult = some row)
      (happlied : applied entry event (env.item "event_id") row guardResult view info = .ok unit) :
      Retraced core env (.commit unit)
  | clean {requestId : Json} {entry : RequestState} : Retraced core env (.clean requestId entry)

/-- What replay relies on: entries and snapshots are anchored, snapshots are cached under their own
versions, and the tables are consistent. -/
structure Core.Grounded (core : Core) : Prop where
  anchored : core.Anchored
  keyed : ∀ version view, core.configs.at? version = some view →
    ConfigView.versionKey? version = ConfigView.versionKey? view.version
  tables : ∀ version view, core.configs.at? version = some view →
    ConsistentTable view ∧ ChainsRecomputed view

variable {core : Core}

theorem Core.Grounded.cached (hcore : core.Grounded) {version : Json}
    {view : ConfigView} (hview : core.configs.at? version = some view) :
    core.configs.at? view.version = some view := by
  rw [← hview]
  simp only [ConfigCache.at?, hcore.keyed _ _ hview]

theorem Core.Grounded.insert (hcore : core.Grounded) {requestId : Json}
    (hid : entry.requestId = requestId)
    (hpinned : ∃ view, core.configs.at? entry.configVersion = some view) (log : List Record)
    (published : List Publication) : Core.Grounded { core with
      ledger := core.ledger.insert requestId entry, log := log, published := published } := by
  refine ⟨⟨fun other found hfound ↦ ?_, fun other found hfound ↦ ?_, hcore.anchored.current⟩,
    hcore.keyed, hcore.tables⟩
  all_goals
    rw [get?_insert] at hfound
    split at hfound
  · next heq =>
    cases hfound
    exact hid.trans heq
  · exact hcore.anchored.ids other found hfound
  · cases hfound
    exact hpinned
  · exact hcore.anchored.pinned other found hfound

variable {action : Action}

theorem Core.Grounded.act (hcore : core.Grounded)
    (hretraced : core.Retraced env action) : (core.act action).Grounded := by
  cases hretraced with
  | @configure view hview =>
    exact ⟨⟨hcore.anchored.ids, fun requestId entry hentry ↦
        ConfigCache.exists_at?_put (hcore.anchored.pinned requestId entry hentry),
        ConfigCache.at?_put_self⟩,
      ConfigCache.of_at?_put hcore.keyed fun _ hversion ↦ hversion,
      ConfigCache.of_at?_put hcore.tables fun _ _ ↦ hview⟩
  | mark | absorb => exact ⟨⟨hcore.anchored.ids, hcore.anchored.pinned, hcore.anchored.current⟩,
      hcore.keyed, hcore.tables⟩
  | admission hnew hrows hselected happlied =>
    obtain ⟨hrecord, hid, hversion⟩ := applied_fixed happlied
    rw [Core.act, hrecord]
    exact hcore.insert hid ⟨core.config, by rw [hversion]; exact hcore.anchored.current⟩ _ _
  | advance hevent heventId hentry hview hrows hselected happlied =>
    obtain ⟨hrecord, hid, hversion⟩ := applied_fixed happlied
    rw [Core.act, hrecord]
    exact hcore.insert hid ⟨_, by rw [hversion]; exact hview⟩ _ _
  | @clean requestId entry =>
    refine ⟨⟨fun other found hfound ↦ ?_, fun other found hfound ↦ ?_, hcore.anchored.current⟩,
      hcore.keyed, hcore.tables⟩
    all_goals change (core.ledger.erase requestId).get? other = some found at hfound
    · exact hcore.anchored.ids other found (get?_of_erase hfound).2
    · exact hcore.anchored.pinned other found (get?_of_erase hfound).2

theorem Core.Retraced.exists_record
    (hretraced : core.Retraced env action) : ∃ record, action.record? core.config =
      some record := by
  cases hretraced <;> exact ⟨_, rfl⟩

/-- Loaded with a core, the replay loop accepts the record of a retraced action and is then loaded
with the core after it. -/
theorem Core.accepts_retraced (hcore : core.Grounded)
    (hretraced : core.Retraced env action) {record : Record}
    (hrecord : action.record? core.config = some record) (fresh : Coordinator) :
    Coordinator.Accepts none (fresh.loaded core) record (fresh.loaded (core.act action)) := by
  unfold Coordinator.Accepts
  cases hretraced with
  | @configure view hview =>
    cases hrecord
    simp only [Coordinator.replayRecord, Coordinator.configRecord, if_true, Option.getD_some,
      ConfigView.ofData_data]
    rfl
  | mark hname =>
    cases hrecord
    have hchange : env.item "event_name" ≠ .str "config.changed" := fun hconfig ↦ by
      rw [hconfig] at hname
      revert hname
      decide
    exact (if_neg hchange).trans (if_pos hname)
  | absorb hname =>
    cases hrecord
    simp only [reservedEvents, cons_append, nil_append, mem_cons, not_or] at hname
    exact (if_neg hname.1).trans ((if_neg hname.2.2).trans (if_neg hname.2.1))
  | admission hnew hrows hselected happlied =>
    cases hrecord
    exact accepts_admission fresh hnew hcore.anchored.current hrows hselected happlied
  | advance hevent hid hentry hview hrows hselected happlied =>
    cases hrecord
    refine accepts_advance fresh hevent hid ?_ (hcore.cached hview) hrows hselected happlied
    rw [hcore.anchored.ids _ _ hentry]
    exact hentry
  | clean =>
    cases hrecord
    rfl

section Decisions

variable {core : Core} {env : Json}

/-- Committing the transition of an entry by the row that replay takes is a plan that replay
retraces. -/
theorem retraced_commit {entry : RequestState} {event : Json} {row : Row}
    {guardResult : Bool} {view : ConfigView} (info : Option (List (String × Json)))
    (hevent : event ∉ reservedEvents) (hid : (env.item "event_id").nonemptyStr = true)
    (hentry : core.ledger.get? (env.item "request_id") = some entry)
    (hview : core.configs.at? entry.configVersion = some view)
    (hrows : view.rows entry.lifecycleState event = .ok (some rows))
    (hselected : replayedRow? rows guardResult = some row) :
    IsPlan Core.act (Core.Retraced · env) core (Decision.commit
      (applied entry event (env.item "event_id") row guardResult view info)).actions := by
  cases happlied : applied entry event (env.item "event_id") row guardResult view info with
  | error raised => trivial
  | ok unit => exact ⟨.advance hevent hid hentry hview hrows hselected happlied, trivial⟩

theorem retraced_admitDecision (hcore : core.Grounded) (hnew : core.Newcomer env) {halted : Bool}
    {active : Nat} (hresult : (admitDecision core.config halted active env).result = .ok ()) :
    IsPlan Core.act (Core.Retraced · env) core
      (admitDecision core.config halted active env).actions := by
  have hid := (validate_nonempty hnew.valid).1
  revert hresult
  rw [admitDecision, if_neg (by simp [hnew.nonempty])]
  rcases admissionDecide env core.config halted active with raised | ⟨permitted, reason⟩
  · rintro ⟨⟩
  rcases hrows : core.config.rows (.str "created") (.str "request.received") with
    raised | _ | _ | ⟨first, rest⟩
  · rintro ⟨⟩
  · rintro ⟨⟩
  · rintro ⟨⟩
  dsimp only
  generalize hrow : (if permitted then first else (first :: rest).getLast (cons_ne_nil _ _)) =
    row
  have hselected : replayedRow? (first :: rest) permitted = some row := by
    rw [replayedRow?_cons, hrow]
  rcases happlied : applied (Coordinator.admittedEntry env core.config) (.str "request.received")
    (env.item "event_id") row permitted core.config
    (some [("declared_type", (Coordinator.admittedEntry env core.config).declaredType),
      ("reason", .str reason)]) with raised | unit
  · rintro ⟨⟩
  have hadmission : core.Retraced env (.commit unit) := .admission hnew hrows hselected happlied
  dsimp only
  split
  swap
  · exact fun _ ↦ ⟨hadmission, trivial⟩
  refine fun _ ↦ ⟨hadmission, ?_⟩
  -- The entry that is routed is the one just committed, pinned to the current snapshot.
  obtain ⟨hrequest, -, hversion⟩ := applied_fixed happlied
  have hentry : (core.act (.commit unit)).ledger.get? (env.item "request_id") =
      some unit.entry := by
    rw [Core.act, hrequest]
    exact get?_insert_self _ _ _
  have hview : (core.act (.commit unit)).configs.at? unit.entry.configVersion =
      some core.config := by
    rw [hversion]
    exact hcore.anchored.current
  have hchain : row.chain ∉ reservedEvents := by
    refine (hcore.tables _ _ hcore.anchored.current).2 _ hrows row ?_
    rw [← hrow]
    split
    · exact mem_cons_self
    · exact getLast_mem _
  unfold routeDecision
  rcases hroute : core.config.rows unit.entry.lifecycleState row.chain with
    raised | _ | _ | ⟨first, rest⟩
  · trivial
  · trivial
  · trivial
  · exact retraced_commit _ hchain hid hentry hview hroute (replayedRow?_cons _ _ _)

theorem retraced_applyDecision (hcore : core.Grounded) {entry : RequestState}
    (hevent : env.item "event_name" ∉ reservedEvents)
    (hid : (env.item "event_id").nonemptyStr = true)
    (hentry : core.ledger.get? (env.item "request_id") = some entry) :
    IsPlan Core.act (Core.Retraced · env) core
      (applyDecision (pinnedView core.configs core.config entry) entry (env.item "event_name")
        (env.item "event_id")).actions := by
  obtain ⟨view, hview⟩ := hcore.anchored.pinned _ _ hentry
  rw [show pinnedView core.configs core.config entry = view by rw [pinnedView, hview]; rfl]
  unfold applyDecision
  rcases hrows : view.rows entry.lifecycleState (env.item "event_name") with raised | _ | rows
  · trivial
  · trivial
  dsimp only
  rcases hpicked : pickRow rows entry view with raised | _ | ⟨row, permitted⟩
  · trivial
  · trivial
  dsimp only
  cases happlied : applied entry (env.item "event_name") (env.item "event_id") row permitted view
      none with
  | error raised => trivial
  | ok unit =>
    have hrunnable := (exists_applied_iff _ _ _ _ _ _ _).mp ⟨unit, happlied⟩
    have hselected := ((hcore.tables _ _ hview).1 _ _ _ hrows).agree hpicked hrunnable
    exact ⟨.advance hevent hid hentry hview hrows hselected happlied, trivial⟩

/-- The decision on an envelope is a plan that replay retraces. Assumes: it raises nothing, the
envelope is not named like a cleanup, and the tables it installs are consistent. -/
theorem Core.retraced_decide (hcore : core.Grounded) {halted : Bool}
    (hresult : (core.decide halted env).result = .ok ())
    (hname : env.item "event_name" ≠ .str "__cleanup__")
    (hinstalls : ∀ view, core.Installs env view → ConsistentTable view ∧ ChainsRecomputed view) :
    IsPlan act (Retraced · env) core (core.decide halted env).actions := by
  revert hresult
  have hevent (henv : PerRequest env) : env.item "event_name" ∉ reservedEvents := by
    simp only [reservedEvents, cons_append, nil_append, mem_cons, not_or]
    exact ⟨henv.1, hname, henv.2⟩
  apply decide_cases (motive := fun decision ↦ decision.result = .ok () →
    IsPlan act (Retraced · env) core decision.actions)
  case quiet => exact fun _ _ ↦ trivial
  case configure => exact fun view hview _ ↦ ⟨.configure (hinstalls view hview), trivial⟩
  case session =>
    exact fun _ hsession _ ↦ isPlan_sessionDecision (.mark hsession) fun _ _ _ _ _ _ ↦ .clean
  case absorb => exact fun entry _ henv _ _ _ ↦ ⟨.absorb (hevent henv), trivial⟩
  case apply =>
    exact fun entry hvalid henv hentry _ ↦
      retraced_applyDecision hcore (hevent henv) (validate_nonempty hvalid).1 hentry
  case newcomer => exact fun hnew _ ↦ retraced_admitDecision hcore hnew

end Decisions

/-- An envelope whose effects are in its records: it is handled without an exception, it is not
named like a cleanup, and under a snapshot that it installs picking and replay agree as well. -/
structure Coordinator.Orderly (coord : Coordinator) (env : Json) : Prop where
  survives : Survives coord env
  name : env.item "event_name" ≠ .str "__cleanup__"
  installs : ∀ view, coord.core.Installs env view → RowsAgree view ∧ ChainsRecomputed view

theorem Coordinator.replays_retraced (fresh : Coordinator) (actions : List Action)
    (hcore : core.Grounded) (hplan : IsPlan Core.act (Core.Retraced · env) core actions) :
    fresh.Replays core (core.perform actions) ∧ (core.perform actions).Grounded := by
  induction actions generalizing core with
  | nil => exact ⟨.refl fresh core, hcore⟩
  | cons action rest ih =>
    obtain ⟨hretraced, hrest⟩ := hplan
    obtain ⟨hreplays, hgrounded⟩ := ih (hcore.act hretraced) hrest
    obtain ⟨record, hrecord⟩ := hretraced.exists_record
    have hlog : (core.act action).log = core.log ++ [record] := by
      rw [log_act, hrecord]
      rfl
    exact ⟨.trans ⟨[record], hlog, .single (accepts_retraced hcore hretraced hrecord fresh)⟩
      hreplays, hgrounded⟩

theorem Coordinator.replays_orderly (fresh : Coordinator) {coord : Coordinator}
    (hcoord : coord.core.Grounded) {envs : List Json} (horderly : coord.Throughout Orderly envs) :
    fresh.Replays coord.core (coord.run envs).core := by
  induction envs generalizing coord with
  | nil => exact .refl fresh _
  | cons env rest ih =>
    obtain ⟨hfirst, hrest⟩ := throughout_cons_iff.mp horderly
    have hresult := (core_handle coord env).2.symm.trans ((handle_returns_iff coord env).mpr
      hfirst.survives)
    have hplan := retraced_decide hcoord hresult hfirst.name fun view hinstalls ↦
      ⟨(rowsAgree_iff view).mp (hfirst.installs view hinstalls).1,
        (hfirst.installs view hinstalls).2⟩
    obtain ⟨hreplays, hgrounded⟩ := replays_retraced fresh _ hcoord hplan
    have hnext : coord.core.perform (coord.core.decide coord.halted env).actions =
        (coord.step env).core := (core_step coord env).symm
    rw [hnext] at hreplays hgrounded
    exact hreplays.trans (ih hgrounded hrest)

theorem Core.grounded_init {view : ConfigView} (htable : ConsistentTable view)
    (hchains : ChainsRecomputed view) : (Core.init view).Grounded := by
  refine ⟨anchored_init view, fun version other hother ↦ ?_, fun version other hother ↦ ?_⟩
  all_goals
    rw [at?_init] at hother
    split at hother <;> cases hother
  · assumption
  · exact ⟨htable, hchains⟩

/-- Recovery by a coordinator that holds the snapshots of a new one, from the log of a run of
orderly envelopes, returns true and rebuilds the run. -/
theorem Coordinator.recovers_of_orderly {view : ConfigView} (htable : ConsistentTable view)
    (hchains : ChainsRecomputed view) (accepts : Nat → Bool) (clock : Nat → Json) {envs : List Json}
    (horderly : (init { accepts := accepts } clock view).Throughout Orderly envs)
    {reader : Coordinator} (hconfigs : reader.configs = (Core.init view).configs)
    (hconfig : reader.config = view) :
    reader.Recovers ((init { accepts := accepts } clock view).run envs) := by
  have hstart : (init { accepts := accepts } clock view).core = Core.init view :=
    core_init _ _ _ rfl
  obtain ⟨records, hlog, hreads⟩ := replays_orderly { reader with halted := false }
    (hstart ▸ grounded_init htable hchains) horderly
  rw [hstart] at hlog hreads
  have hloaded : ({ reader with halted := false } : Coordinator).loaded (Core.init view) =
      { reader with ledger := .empty, log := [], halted := false } := by
    simp only [loaded, hconfigs, hconfig]
    rfl
  rw [hloaded] at hreads
  have hrecovered : reader.recover ((init { accepts := accepts } clock view).run envs).core.log none
      = ⟨({ reader with halted := false } : Coordinator).loaded
        ((init { accepts := accepts } clock view).run envs).core, .ok true⟩ := by
    rw [hlog]
    exact replay_eq_iff.mpr hreads
  unfold Recovers
  rw [← core_log, hrecovered]
  exact ⟨rfl, rfl, rfl, rfl⟩

/-- Under the table of a snapshot the row picked live is always the row that replay selects, and
recovery never deviates on a log written from that snapshot on, by a coordinator that has handled
orderly envelopes. -/
def SelectionsAgree : Prop :=
  RowsAgree view ∧ (ChainsRecomputed view → ∀ accepts clock envs,
    (Coordinator.init { accepts := accepts } clock view).Throughout Coordinator.Orderly envs →
      ∀ reader : Coordinator, reader.configs = (Core.init view).configs → reader.config = view →
        reader.Recovers ((Coordinator.init { accepts := accepts } clock view).run envs))

/-- Live and replayed selection agree under a table if and only if it is consistent. -/
theorem selectionsAgree_iff : SelectionsAgree view ↔ ConsistentTable view := by
  refine ⟨fun hagree ↦ (rowsAgree_iff view).mp hagree.1, fun htable ↦
    ⟨(rowsAgree_iff view).mpr htable, fun hchains accepts clock envs horderly reader hconfigs
        hconfig ↦
      ?_⟩⟩
  exact recovers_of_orderly htable hchains accepts clock horderly hconfigs hconfig

def threeRowView : ConfigView where
  data := snapshot [("transitions", .obj (literalTransitions ++ [("scheduled|request.cancelled",
    .arr [ .obj [("when", .str "gate:completion"), ("next", .str "completed"), ("emit", .arr [])],
    .obj [("when", .str "replans_remaining"), ("next", .str "cancelled"),
      ("emit", .arr [.str "request.cancelled"])],
    .obj [("when", .null), ("next", .str "failed"), ("emit", .arr [.str "request.failed"])]])]))]
  valid := by decide +kernel

/-- A scheduled request is cancelled by the row in the middle. -/
def cancelledRun : List Json :=
  [Envelope.inbound "e1" "request.received" "r1" [("declared_type", .str "type.alpha")],
    Envelope.inbound "e2" "request.cancelled" "r1" []]

/-- Replay takes the last row instead, and recovery from the log of the run reports a deviation. -/
theorem not_selectionsAgree_threeRow : ¬SelectionsAgree threeRowView ∧
      ((Coordinator.init { accepts := fun _ ↦ true } (fun _ ↦ .int 0) threeRowView).recover
        ((Coordinator.init { accepts := fun _ ↦ true } (fun _ ↦ .int 0) threeRowView).run
          cancelledRun).log none).result = .ok false := by
  refine ⟨fun hagree ↦ ?_, by decide +kernel⟩
  have hsplit : ∃ rows row unit,
      threeRowView.rows (.str "scheduled") (.str "request.cancelled") = .ok (some rows) ∧
        pickRow rows { requestId := .str "r1", lifecycleState := .str "scheduled" } threeRowView =
          .ok (some (row, false)) ∧
        applied { requestId := .str "r1", lifecycleState := .str "scheduled" }
          (.str "request.cancelled") (.str "e2") row false threeRowView none = .ok unit ∧
        replayedRow? rows unit.record.guardResult ≠ some row := by
    refine ⟨_, _, _, rfl, rfl, rfl, ?_⟩
    decide +kernel
  obtain ⟨rows, row, unit, hrows, hpicked, happlied, hother⟩ := hsplit
  exact hother (hagree.1 { requestId := .str "r1", lifecycleState := .str "scheduled" } _ _ rows row
    false unit hrows hpicked happlied)

end AbsoluteZero.Kernel

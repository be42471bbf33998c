import AbsoluteZero.Foundations.Journal
import AbsoluteZero.Kernel.Legality

/-!
# Replay

The replay loop of `recover` is a second interpreter of the transition table: a recovering
coordinator accepts the record of every legal action of the core it has loaded
(`Core.accepts_act`).

Replay tells records apart by their event before it looks for a verdict, so the record of a dropped
duplicate named `__cleanup__` evicts a live entry (`Core.Misfiles`); nothing else is lost.
-/

namespace AbsoluteZero.Kernel

open Foundations List Kernel.Core

namespace Coordinator

/-! ### The replay loop as a reader -/

def Accepts (published : Option (List (Json × Nat))) (coord : Coordinator) (record : Record)
    (next : Coordinator) : Prop :=
  coord.replayRecord record published = ⟨next, .ok true⟩

variable {published : Option (List (Json × Nat))}

/-- The replay loop ends with success if and only if it accepts the records one by one. -/
theorem replay_eq_iff {coord final : Coordinator} {records : List Record} :
    coord.replay published records = ⟨final, .ok true⟩ ↔
      Reads (Accepts published) coord records final := by
  induction records generalizing coord with
  | nil =>
    constructor
    · intro hreplay
      cases hreplay
      exact .nil _
    · intro hreads
      cases hreads
      rfl
  | cons record rest ih =>
    rw [reads_cons_iff, replay]
    constructor
    · intro hreplay
      split at hreplay
      · next replayed hrecord => exact ⟨replayed, hrecord, ih.mp hreplay⟩
      · next hstopped => exact absurd hreplay (hstopped final)
    · rintro ⟨next, hrecord, hrest⟩
      rw [hrecord]
      exact ih.mpr hrest

/-- Replay goes on from where a reading of the first records leads. -/
theorem replay_append {coord middle : Coordinator}
    {before : List Record} (hreads : Reads (Accepts published) coord before middle)
    (rest : List Record) : coord.replay published (before ++ rest) =
      middle.replay published rest := by
  induction hreads with
  | nil => rfl
  | cons hstep _ ih =>
    rw [cons_append, replay, hstep]
    exact ih

theorem recover_append {fresh middle : Coordinator} {before : List Record}
    (hbefore : fresh.recover before published = ⟨middle, .ok true⟩) (rest : List Record) :
    fresh.recover (before ++ rest) published = middle.replay published rest :=
  replay_append (replay_eq_iff.mp hbefore) rest

def loaded (fresh : Coordinator) (core : Core) : Coordinator :=
  { fresh with
    ledger := core.ledger, log := core.log, configs := core.configs, config := core.config }

end Coordinator

def Action.Recorded : Action → Prop
  | .strand _ => False
  | .absorb _ env => env.item "event_name" ≠ .str "__cleanup__"
  | _ => True

theorem Action.Recorded.exists_record {action : Action} (haction : action.Recorded)
    (config : ConfigView) : ∃ record, action.record? config = some record := by
  cases action <;> first | exact ⟨_, rfl⟩ | exact haction.elim

/-- The rules looked up for an enabled rule contain it. -/
theorem exists_rulesAt {rule : Rule} {entry : RequestState} {config : ConfigView}
    (henabled : rule.Enabled entry config) :
    ∃ rules, rulesAt rule.source rule.event = some rules ∧ rule ∈ rules := by
  cases rule
  case cancel source =>
    change source.terminal = false at henabled
    cases source <;> first | exact absurd henabled (by decide) | exact ⟨_, rfl, by simp⟩
  case settle source =>
    change source.terminal = true at henabled
    cases source <;> first | exact absurd henabled (by decide) | exact ⟨_, rfl, by simp⟩
  all_goals exact ⟨_, rfl, by simp⟩

/-- An info dict that lists nothing reads as no info dict. -/
theorem doActions_info (entry : RequestState) (actions : List Json) (event : Json)
    (info : Option (List (String × Json))) : entry.doActions actions event (match info with
      | none | some [] => none
      | some fields => some fields) = entry.doActions actions event info := by
  rcases info with _ | (_ | ⟨field, fields⟩) <;> rfl

theorem ConfigView.ofData_data (view : ConfigView) : ofData view.data = .ok view := by
  unfold ofData
  split
  · rfl
  · next reason hinvalid =>
    rw [view.valid] at hinvalid
    cases hinvalid

variable (coord : Coordinator)

/-- A record that replay handles by no special case. -/
structure Record.IsTransition (record : Record) : Prop where
  config : record.event ≠ .str "config.changed"
  session : record.event ∉ sessionEvents
  cleanup : record.event ≠ .str "__cleanup__"
  verdict : record.verdict = none

/-- The entry from which the record of a transition is recomputed: the entry of its request, or a
new one at an admission. -/
def Coordinator.subject? (record : Record) : Option RequestState :=
  match coord.ledger.get? record.requestId with
  | some entry => some entry
  | none =>
    if record.event = .str "request.received" then some (replayedEntry record) else none

def Coordinator.opened (record : Record) : Coordinator :=
  match coord.ledger.get? record.requestId with
  | some _ => coord
  | none =>
    { coord with ledger := coord.ledger.insert record.requestId (replayedEntry record) }

/-- The record of a transition is recomputed from the entry of its request under the snapshot it
names; without the one or the other it deviates. -/
theorem Coordinator.replayRecord_of_transition {record : Record}
    (hrecord : record.IsTransition) (published : Option (List (Json × Nat))) :
    coord.replayRecord record published =
      match coord.configs.at? record.configVersion, coord.subject? record with
      | some view, some entry => (coord.opened record).replayTransition record entry view published
      | _, _ => coord.replayDeviation record := by
  simp only [replayRecord, if_neg hrecord.config, if_neg hrecord.session, if_neg hrecord.cleanup,
    hrecord.verdict]
  cases hview : coord.configs.at? record.configVersion with
  | none => rfl
  | some view =>
    cases hentry : coord.ledger.get? record.requestId with
    | some entry =>
      simp only [subject?, opened, hentry]
      rfl
    | none =>
      have hcreate : coord.ledger.create (replayedEntry record) =
          .ok (coord.ledger.insert record.requestId (replayedEntry record)) := by
        simp only [Ledger.create, replayedEntry, hentry]
      simp only [subject?, opened, hentry]
      by_cases hreceived : record.event = .str "request.received" <;> simp [hreceived, hcreate]

/-! ### Transitions by the row that replay takes -/

def replayedRow? (rows : List Row) (guardResult : Bool) : Option Row :=
  if guardResult then rows.head? else rows.getLast?

theorem replayedRow?_cons (first : Row) (rest : List Row) (guardResult : Bool) :
    replayedRow? (first :: rest) guardResult =
      some (if guardResult then first else (first :: rest).getLast (List.cons_ne_nil _ _)) := by
  cases guardResult
  · exact getLast?_eq_getLast_of_ne_nil (cons_ne_nil first rest)
  · rfl

/-- The events that replay does not recompute. -/
def reservedEvents : List Json := [.str "config.changed", .str "__cleanup__"] ++ sessionEvents

section Applied

variable {info : Option (List (String × Json))} {entry : RequestState} {guardResult : Bool}
  {event eventId : Json} {rows : List Row} {row : Row} {unit : Applied} {view : ConfigView}
  {env : Json}

theorem exists_cons_of_replayedRow?
    (hselected : replayedRow? rows guardResult = some row) : ∃ first rest, rows = first :: rest ∧
      (if guardResult then first else (first :: rest).getLast (List.cons_ne_nil _ _)) = row := by
  rcases rows with _ | ⟨first, rest⟩
  · cases guardResult <;> cases hselected
  · rw [replayedRow?_cons] at hselected
    exact ⟨first, rest, rfl, Option.some.inj hselected⟩

/-- The record of a transition by the row that replay takes is recomputed from it, and its replay is
the transition. -/
theorem Coordinator.replayTransition_applied (coord : Coordinator)
    (hrows : view.rows entry.lifecycleState event = .ok (some rows))
    (hselected : replayedRow? rows guardResult = some row) (hid : eventId.nonemptyStr = true)
    (happlied : applied entry event eventId row guardResult view info = .ok unit) :
    coord.replayTransition unit.record entry view none = ⟨{ coord with
          ledger := coord.ledger.insert entry.requestId unit.entry
          log := coord.log ++ [unit.record] }, .ok true⟩ := by
  obtain ⟨first, rest, rfl, hrow⟩ := exists_cons_of_replayedRow? hselected
  obtain ⟨emits, actions, hemits, hactions, rfl⟩ := applied_eq_ok happlied
  generalize hrecord : transitionRecord entry event eventId row guardResult view emits
    (info.map truthyInfo) = record
  have hevent : record.event = event := hrecord ▸ rfl
  have hguard : record.guardResult = guardResult := hrecord ▸ rfl
  have hagree : ¬(entry.lifecycleState ≠ record.priorState ∨
      record.sequence ≠ entry.transitionSequence + 1) := by
    subst hrecord
    exact fun hor ↦ hor.elim (· rfl) (· rfl)
  have hexpected : expectedRecord entry record row view emits = record := by
    subst hrecord
    rfl
  unfold replayTransition
  rw [hevent, hguard, hrows]
  simp only [if_neg hagree, hrow, hemits, hexpected, hactions]
  rw [if_neg (not_not_intro rfl)]
  have hacted : entry.doActions actions event record.info =
      entry.doActions actions event (info.map truthyInfo) := by
    subst hrecord
    exact doActions_info _ _ _ _
  have hsequence := (doActions_fixed entry actions event (info.map truthyInfo)).2.2
  simp only [hacted, RequestState.advance, hsequence, if_neg (Json.ne_null_of_nonemptyStr hid)]
  subst hrecord
  rfl

theorem replayedEntry_applied {reason : String}
    (happlied : applied (Coordinator.admittedEntry env view) (.str "request.received")
      (env.item "event_id") row guardResult view
      (some [("declared_type", (Coordinator.admittedEntry env view).declaredType),
        ("reason", .str reason)]) = .ok unit) :
    Coordinator.replayedEntry unit.record = Coordinator.admittedEntry env view := by
  obtain ⟨emits, actions, -, -, rfl⟩ := applied_eq_ok happlied
  unfold Coordinator.replayedEntry
  simp only [transitionRecord, Coordinator.admittedEntry, Option.map_some]
  generalize ((env.item "payload").getD "declared_type" (.str "")).pyStr = declared
  by_cases hdeclared : declared = "" <;> by_cases hreason : reason = "" <;>
    simp [truthyInfo, infoGet, Json.truthy, OrderedDict.find_cons, hdeclared, hreason]

theorem isTransition_applied (hevent : event ∉ reservedEvents)
    (happlied : applied entry event eventId row guardResult view info = .ok unit) :
    unit.record.IsTransition ∧ unit.record.event = event ∧
      unit.record.configVersion = view.version := by
  simp only [reservedEvents, cons_append, nil_append, mem_cons, not_or] at hevent
  obtain ⟨hconfig, hcleanup, hsession⟩ := hevent
  obtain ⟨emits, actions, -, -, rfl⟩ := applied_eq_ok happlied
  exact ⟨⟨hconfig, hsession, hcleanup, rfl⟩, rfl, rfl⟩

end Applied

/-- Replay takes the row of an enabled rule for the guard result that the rule records. -/
theorem exists_replayed {config : ConfigView} (hconfig : config.ShippedTable) {rule : Rule}
    {entry : RequestState} (hsource : entry.lifecycleState = rule.source.state)
    (henabled : rule.Enabled entry config) :
    ∃ rows, config.rows entry.lifecycleState (.str rule.event) = .ok (some rows) ∧
      replayedRow? rows (!rule.blocks) = some rule.row := by
  obtain ⟨rules, hrules, hmem⟩ := exists_rulesAt henabled
  obtain ⟨first, rest, rfl, hselected⟩ := selected_of_mem hrules hmem
  refine ⟨(first :: rest).map Rule.row, ?_, (replayedRow?_cons _ _ _).trans
    (congrArg some hselected)⟩
  rw [hsource, rows_of_shipped hconfig, hrules]
  rfl

variable {core : Core} {env : Json}

section Committed

variable {info : Option (List (String × Json))} {entry : RequestState} {guardResult : Bool}
  {event eventId : Json} {rows : List Row} {row : Row} {unit : Applied} {view : ConfigView}
  {reason : String} (fresh : Coordinator)

/-- Loaded with a core, the replay loop accepts an admission by the row that it takes. -/
theorem Core.accepts_admission (hnew : core.Newcomer env)
    (hcurrent : core.configs.at? core.config.version = some core.config)
    (hrows : core.config.rows (.str "created") (.str "request.received") = .ok (some rows))
    (hselected : replayedRow? rows guardResult = some row)
    (happlied : applied (Coordinator.admittedEntry env core.config) (.str "request.received")
      (env.item "event_id") row guardResult core.config
      (some [("declared_type", (Coordinator.admittedEntry env core.config).declaredType),
        ("reason", .str reason)]) = .ok unit) :
    Coordinator.Accepts none (fresh.loaded core) unit.record
      (fresh.loaded (core.act (.commit unit))) := by
  unfold Coordinator.Accepts
  obtain ⟨htransition, hevent, hversion⟩ := isTransition_applied (by decide) happlied
  have hid := (validate_nonempty hnew.valid).1
  have hrequest : unit.record.requestId = env.item "request_id" := (applied_fixed happlied).1
  have hfresh : (fresh.loaded core).ledger.get? unit.record.requestId = none := by
    rw [hrequest]
    exact hnew.fresh
  have hview : (fresh.loaded core).configs.at? unit.record.configVersion = some core.config := by
    rw [hversion]
    exact hcurrent
  rw [Coordinator.replayRecord_of_transition (fresh.loaded core) htransition]
  simp only [hview, Coordinator.subject?, Coordinator.opened, hfresh, if_pos hevent,
    replayedEntry_applied happlied]
  refine (Coordinator.replayTransition_applied _ hrows hselected hid happlied).trans ?_
  -- The entry made for the record is overwritten by its transition.
  have hinsert : (core.ledger.insert (env.item "request_id")
      (Coordinator.admittedEntry env core.config)).insert (env.item "request_id") unit.entry =
        core.ledger.insert (env.item "request_id") unit.entry :=
    OrderedDict.insert_insert _ _ _ _
  rw [Core.act, hrequest]
  exact congrArg (fun ledger : Ledger ↦ Outcome.mk ({ fresh.loaded core with
    ledger := ledger, log := core.log ++ [unit.record] }) (.ok true)) hinsert

/-- The same of a transition of an entry, under the snapshot that the record names. -/
theorem Core.accepts_advance (hevent : event ∉ reservedEvents) (hid : eventId.nonemptyStr = true)
    (hentry : core.ledger.get? entry.requestId = some entry)
    (hview : core.configs.at? view.version = some view)
    (hrows : view.rows entry.lifecycleState event = .ok (some rows))
    (hselected : replayedRow? rows guardResult = some row)
    (happlied : applied entry event eventId row guardResult view info = .ok unit) :
    Coordinator.Accepts none (fresh.loaded core) unit.record
      (fresh.loaded (core.act (.commit unit))) := by
  unfold Coordinator.Accepts
  obtain ⟨htransition, -, hversion⟩ := isTransition_applied hevent happlied
  have hrequest : unit.record.requestId = entry.requestId := (applied_fixed happlied).1
  have hfound : (fresh.loaded core).ledger.get? unit.record.requestId = some entry := by
    rw [hrequest]
    exact hentry
  have hnamed : (fresh.loaded core).configs.at? unit.record.configVersion = some view := by
    rw [hversion]
    exact hview
  rw [Coordinator.replayRecord_of_transition (fresh.loaded core) htransition]
  simp only [hnamed, Coordinator.subject?, Coordinator.opened, hfound]
  refine (Coordinator.replayTransition_applied _ hrows hselected hid happlied).trans ?_
  rw [Core.act, hrequest]
  rfl

end Committed

/-- Loaded with a core, the replay loop accepts the record of a legal action and is then loaded with
the core after it. -/
theorem Core.accepts_act (hcore : core.Sound) {action : Action}
    (hlegal : core.Legal env action) (haction : action.Recorded) {record : Record}
    (hrecord : action.record? core.config = some record) (fresh : Coordinator) :
    Coordinator.Accepts none (fresh.loaded core) record (fresh.loaded (core.act action)) := by
  unfold Coordinator.Accepts
  cases hlegal with
  | @configure view hinstalls =>
    cases hrecord
    simp only [Coordinator.replayRecord, Coordinator.configRecord, if_true, Option.getD_some,
      ConfigView.ofData_data]
    rfl
  | mark hname =>
    cases hrecord
    have hchange : env.item "event_name" ≠ .str "config.changed" := fun hconfig ↦ by
      rw [hconfig] at hname
      revert hname
      decide
    exact (if_neg hchange).trans (if_pos hname)
  | absorb hentry hid hname hconfig hsession =>
    cases hrecord
    exact (if_neg hconfig).trans ((if_neg hsession).trans (if_neg haction))
  | strand => cases hrecord
  | @admission rule reason hnew hrule hid =>
    cases hrecord
    have hsource : (Coordinator.admittedEntry env core.config).lifecycleState =
        rule.source.state := by
      rcases hrule with rfl | rfl <;> rfl
    have hreceived : rule.event = "request.received" := by rcases hrule with rfl | rfl <;> rfl
    have henabled : rule.Enabled (Coordinator.admittedEntry env core.config) core.config := by
      rcases hrule with rfl | rfl <;> trivial
    obtain ⟨rows, hrows, hselected⟩ := exists_replayed hcore.shippedTable hsource henabled
    have happlied := applied_rule rule (Coordinator.admittedEntry env core.config)
      (env.item "event_id") core.config
      (some [("declared_type", (Coordinator.admittedEntry env core.config).declaredType),
        ("reason", .str reason)])
    rw [hreceived] at hrows happlied
    exact accepts_admission fresh hnew hcore.current hrows hselected happlied
  | @advance entry rule info hconfig hentry hsource henabled hid =>
    cases hrecord
    have hsound := hcore.entries _ _ hentry
    obtain ⟨view, hview⟩ := hsound.pinned
    have hpinned : core.pinned entry = view := by
      rw [pinned, pinnedView, hview]
      rfl
    have hcached : core.configs.at? view.version = some view := by
      rw [← hview]
      simp only [ConfigCache.at?, hcore.keyed _ _ hview]
    rw [hpinned] at henabled ⊢
    obtain ⟨rows, hrows, hselected⟩ := exists_replayed (hcore.shipped _ _ hview) hsource henabled
    refine accepts_advance fresh ?_ hid (by rw [hsound.id]; exact hentry) hcached hrows hselected
      (applied_rule rule entry (env.item "event_id") view info)
    cases rule <;> simp [Rule.event, reservedEvents, sessionEvents]
  | clean hname hentry hterminal =>
    cases hrecord
    rfl

/-! ### Decisions -/

theorem recorded_applyDecision (config : ConfigView) (entry : RequestState) (event eventId : Json) :
    ∀ action ∈ (applyDecision config entry event eventId).actions, action.Recorded := by
  unfold applyDecision
  split
  · simp
  · simp
  · split
    · simp
    · simp
    · next row guardResult hpick =>
      cases applied entry event eventId row guardResult config none <;>
        simp [Decision.commit, Action.Recorded]

theorem recorded_sessionDecision (ledger : Ledger) (name : Json) :
    ∀ action ∈ (sessionDecision ledger name).actions, action.Recorded := by
  intro action haction
  rcases mem_cons.mp haction with rfl | hclean
  · trivial
  · split at hclean
    · obtain ⟨item, -, rfl⟩ := mem_map.mp hclean
      trivial
    · cases hclean

/-- An admission whose decision raises: the entry it made is left without a record. -/
def Core.Strands (core : Core) (halted : Bool) (env : Json) : Prop :=
  core.Newcomer env ∧
    ∃ raised, admissionDecide env core.config halted core.ledger.activeCount = .error raised

/-- A duplicate that is dropped although it is named like a cleanup. -/
structure Core.Misfiles (core : Core) (env : Json) : Prop where
  valid : Envelope.validate env core.config.inboundEvents = .ok ()
  name : env.item "event_name" = .str "__cleanup__"
  duplicate : ∃ entry, core.ledger.get? (env.item "request_id") = some entry ∧
    env.item "event_id" = entry.lastAppliedEventId

/-- A misfiled duplicate is dropped. -/
theorem Core.Misfiles.step_eq (hcore : core.Sound) (hmisfiles : core.Misfiles env) (halted : Bool) :
    ∃ entry, core.ledger.get? (env.item "request_id") = some entry ∧
      core.step (halted, env) = core.act (.absorb entry env) := by
  obtain ⟨hvalid, hname, entry, hentry, hid⟩ := hmisfiles
  refine ⟨entry, hentry, ?_⟩
  have hdecision : core.decide halted env = { actions := [.absorb entry env] } := by
    have hhashable := Json.hashable_of_nonemptyStr (hcore.entries _ _ hentry).nonempty
    simp only [decide, requestDecision, hvalid, hname, hentry, hhashable, if_pos hid]
    rfl
  rw [Core.step, hdecision]
  rfl

/-- An envelope whose effects are all in its records. -/
structure Core.Traces (core : Core) (halted : Bool) (env : Json) : Prop where
  strands : ¬ core.Strands halted env
  misfiles : ¬ core.Misfiles env

theorem Core.recorded_decide (hcore : core.Sound) {halted : Bool}
    (htraces : core.Traces halted env) :
    ∀ action ∈ (core.decide halted env).actions, action.Recorded := by
  unfold decide
  cases hvalid : Envelope.validate env core.config.inboundEvents with
  | error reason => simp
  | ok valid =>
    dsimp only
    split
    · unfold configDecision
      split <;> simp [Action.Recorded]
    split
    · exact recorded_sessionDecision _ _
    unfold requestDecision
    split
    · simp
    cases hentry : core.ledger.get? (env.item "request_id") with
    | some entry =>
      dsimp only
      split
      · next hid =>
        refine forall_mem_singleton.mpr fun hname ↦ ?_
        exact htraces.misfiles ⟨hvalid, hname, entry, hentry, hid⟩
      · split
        · simp
        · exact recorded_applyDecision _ _ _ _
    | none =>
      dsimp only
      split
      · next hname =>
        by_cases hnonempty : (env.item "request_id").nonemptyStr = true
        · rw [admitDecision_of_shipped hcore.shippedTable _ _ hnonempty]
          rcases hdecided : admissionDecide env core.config halted core.ledger.activeCount with
            raised | ⟨_ | _, reason⟩
          · exact absurd ⟨⟨hvalid, hname, hnonempty, hentry⟩, raised, hdecided⟩ htraces.strands
          · simp [Action.Recorded]
          · simp [Action.Recorded]
        · simp [admitDecision, hnonempty]
      · split <;> simp

theorem Core.not_strands_of_ok (hcore : core.Sound) {halted : Bool}
    (hresult : (core.decide halted env).result = .ok ()) : ¬ core.Strands halted env := by
  rintro ⟨hnew, raised, hdecided⟩
  rw [hnew.decide_eq, admitDecision_of_shipped hcore.shippedTable _ _ hnew.nonempty,
    hdecided] at hresult
  cases hresult

namespace Coordinator

/-- The records by which the log of a core grew to that of another replay from the one to the
other. -/
def Replays (fresh : Coordinator) (core next : Core) : Prop :=
  ∃ records, next.log = core.log ++ records ∧
    Reads (Accepts none) (fresh.loaded core) records (fresh.loaded next)

theorem Replays.refl (fresh : Coordinator) (core : Core) : fresh.Replays core core :=
  ⟨[], (append_nil _).symm, .nil _⟩

theorem Replays.trans {fresh : Coordinator} {core next final : Core}
    (hfirst : fresh.Replays core next) (hsecond : fresh.Replays next final) :
    fresh.Replays core final := by
  obtain ⟨first, hlog, hreads⟩ := hfirst
  obtain ⟨second, hlog', hreads'⟩ := hsecond
  exact ⟨first ++ second, by rw [hlog', hlog, append_assoc], hreads.append hreads'⟩

theorem replays_perform (fresh : Coordinator) (hships : ShipsTable env)
    (actions : List Action) {core : Core} (hcore : core.Sound) (hfollows : core.Follows env actions)
    (hrecorded : ∀ action ∈ actions, action.Recorded) :
    fresh.Replays core (core.perform actions) := by
  induction actions generalizing core with
  | nil => exact .refl fresh core
  | cons action rest ih =>
    have hreplays := ih (hcore.act hships hfollows.1) hfollows.2 fun other hother ↦
      hrecorded other (mem_cons_of_mem _ hother)
    have haction := hrecorded action mem_cons_self
    obtain ⟨record, hrecord⟩ := haction.exists_record core.config
    have hlog : (core.act action).log = core.log ++ [record] := by
      rw [log_act, hrecord]
      rfl
    exact .trans ⟨[record], hlog, .single
      (accepts_act hcore hfollows.1 haction hrecord fresh)⟩ hreplays

/-! ### Runs -/

/-- What holds of every envelope of a run and the coordinator it finds. -/
def Throughout (Holds : Coordinator → Json → Prop) (coord : Coordinator)
    (envs : List Json) : Prop :=
  ∀ before env, before ++ [env] <+: envs → Holds (coord.run before) env

theorem throughout_nil (Holds : Coordinator → Json → Prop) (coord : Coordinator) :
    Throughout Holds coord [] := fun before env hbefore ↦ by simp at hbefore

variable {coord : Coordinator}

theorem throughout_cons_iff {Holds : Coordinator → Json → Prop} {rest : List Json} :
    Throughout Holds coord (env :: rest) ↔ Holds coord env ∧
      Throughout Holds (coord.step env) rest := by
  constructor
  · exact fun hholds ↦ ⟨hholds [] env (prefix_append [env] rest),
      fun before other hbefore ↦ hholds (env :: before) other
        ((prefix_cons_inj env).mpr hbefore)⟩
  · rintro ⟨hfirst, hrest⟩ before other hbefore
    cases before with
    | nil =>
      rw [nil_append, cons_prefix_cons] at hbefore
      rw [hbefore.1]
      exact hfirst
    | cons first before =>
      rw [cons_append, cons_prefix_cons] at hbefore
      rw [hbefore.1]
      exact hrest before other hbefore.2

theorem Throughout.mono {Holds : Coordinator → Json → Prop}
    {envs before : List Json} (hholds : Throughout Holds coord envs) (hbefore : before <+: envs) :
    Throughout Holds coord before :=
  fun earlier env hearlier ↦ hholds earlier env (hearlier.trans hbefore)

/-- Every call of `handle` in a run returns. -/
def Returns (envs : List Json) : Prop :=
  coord.Throughout (fun found env ↦ (found.handle env).result = .ok ()) envs

/-- No envelope of a run is a duplicate named like a cleanup. -/
def MisfilesNone (envs : List Json) : Prop :=
  coord.Throughout (fun found env ↦ ¬ found.core.Misfiles env) envs

/-- The effects of a run are all in its log. -/
def Traces (coord : Coordinator) (envs : List Json) : Prop :=
  coord.Throughout (fun found env ↦ found.core.Traces found.halted env) envs

variable {envs : List Json}

theorem replays_run (fresh : Coordinator) (hcoord : coord.core.Sound)
    (hships : ∀ env ∈ envs, ShipsTable env) (htraces : coord.Traces envs) :
    fresh.Replays coord.core (coord.run envs).core := by
  induction envs generalizing coord with
  | nil => exact .refl fresh _
  | cons env rest ih =>
    obtain ⟨hfirst, hrest⟩ := throughout_cons_iff.mp htraces
    have henv := hships env mem_cons_self
    have hstep := replays_perform fresh henv _ hcoord
      (decide_follows hcoord coord.halted env) (recorded_decide hcoord hfirst)
    have hnext : coord.core.perform (coord.core.decide coord.halted env).actions =
        (coord.step env).core := (core_step coord env).symm
    have hsound : (coord.step env).core.Sound := by
      rw [core_step]
      exact hcoord.step henv coord.halted
    rw [hnext] at hstep
    exact hstep.trans (ih hsound (fun other hother ↦ hships other (mem_cons_of_mem _ hother)) hrest)

/-- A run whose calls return, and that misfiles no duplicate, has all its effects in its log. -/
theorem traces_of_returns (hcoord : coord.core.Sound)
    (hships : ∀ env ∈ envs, ShipsTable env) (hreturns : coord.Returns envs)
    (hmisfiles : coord.MisfilesNone envs) : coord.Traces envs := by
  induction envs generalizing coord with
  | nil => exact throughout_nil _ coord
  | cons env rest ih =>
    obtain ⟨hreturn, hreturns⟩ := throughout_cons_iff.mp hreturns
    obtain ⟨hmisfile, hmisfiles⟩ := throughout_cons_iff.mp hmisfiles
    have hresult := (core_handle coord env).2.symm.trans hreturn
    refine throughout_cons_iff.mpr ⟨⟨not_strands_of_ok hcoord hresult, hmisfile⟩, ih ?_
      (fun other hother ↦ hships other (mem_cons_of_mem _ hother)) hreturns hmisfiles⟩
    rw [core_step]
    exact hcoord.step (hships env mem_cons_self) coord.halted

theorem recover_of_replays {bus : Bus} {clock : Nat → Json} {view : ConfigView} {next : Core}
    (hreplays : (init bus clock view).Replays (Core.init view) next) :
    (init bus clock view).recover next.log none =
      ⟨(init bus clock view).loaded next, .ok true⟩ := by
  obtain ⟨records, hlog, hreads⟩ := hreplays
  rw [hlog]
  exact replay_eq_iff.mpr hreads

/-- Recovery from the log of a coordinator returns true and rebuilds its ledger, its current
snapshot and its log. -/
def Recovers (fresh live : Coordinator) : Prop :=
  (fresh.recover live.log none).result = .ok true ∧
    (fresh.recover live.log none).state.ledger = live.ledger ∧
    (fresh.recover live.log none).state.config = live.config ∧
    (fresh.recover live.log none).state.log = live.log

/-- No coordinator recovers both before and after a misfiled duplicate: replay evicts the entry of
its request. -/
theorem not_recovers_of_misfiles {fresh live : Coordinator} (hlive : live.core.Sound)
    (hmisfiles : live.core.Misfiles env) (hbefore : fresh.Recovers live) :
    ¬ fresh.Recovers (live.step env) := by
  rintro ⟨-, hledger, -⟩
  obtain ⟨entry, hentry, hstep⟩ := hmisfiles.step_eq hlive live.halted
  rw [← core_step] at hstep
  have hlog : (live.step env).log = live.log ++ [noopRecord entry env "duplicate"] :=
    congrArg Core.log hstep
  have hkept : (live.step env).ledger = live.ledger := congrArg Core.ledger hstep
  obtain ⟨hresult, hrebuilt, -⟩ := hbefore
  have hrecovered : fresh.recover live.log none =
      ⟨(fresh.recover live.log none).state, .ok true⟩ := by
    rw [← hresult]
  have hreplayed (found : Coordinator) :
      found.replayRecord (noopRecord entry env "duplicate") none =
        ⟨({ found with ledger := found.ledger.evict entry.requestId }).keepRecord
          (noopRecord entry env "duplicate"), .ok true⟩ := by
    have hevent : (noopRecord entry env "duplicate").event = .str "__cleanup__" := hmisfiles.name
    rw [replayRecord, hevent]
    rfl
  have hevicted : (fresh.recover (live.step env).log none).state.ledger =
      live.ledger.evict entry.requestId := by
    rw [hlog, recover_append hrecovered, ← hrebuilt, replay, hreplayed]
    rfl
  have hid := (hlive.entries _ _ hentry).id
  have hnone : (live.ledger.evict entry.requestId).get? (env.item "request_id") = none := by
    rw [hid]
    exact OrderedDict.get?_erase_self _ _
  rw [← hevicted, hledger, hkept] at hnone
  exact absurd (hnone.symm.trans hentry) (by simp)

/-- Under the shipped table, a new coordinator on the same initial snapshot recovers a run without
exceptions exactly, from its log after any of its envelopes, if and only if no envelope of the run
is misfiled. -/
theorem recover_exact_iff (accepts accepts' : Nat → Bool) (clock clock' : Nat → Json)
    {view : ConfigView} (hview : view.ShippedTable) (hships : ∀ env ∈ envs, ShipsTable env)
    (hreturns : (init { accepts := accepts } clock view).Returns envs) :
    (∀ before, before <+: envs → (init { accepts := accepts' } clock' view).Recovers
        ((init { accepts := accepts } clock view).run before)) ↔
      (init { accepts := accepts } clock view).MisfilesNone envs := by
  have hstart : (init { accepts := accepts } clock view).core = Core.init view :=
    core_init _ _ _ rfl
  have hsound : (init { accepts := accepts } clock view).core.Sound :=
    hstart ▸ sound_init hview
  constructor
  · intro hrecovers before env hbefore hmisfiles
    have hearlier : before <+: envs := (prefix_append before [env]).trans hbefore
    have hnext := hrecovers (before ++ [env]) hbefore
    rw [run_append] at hnext
    refine not_recovers_of_misfiles ?_ hmisfiles (hrecovers before hearlier) hnext
    exact sound_run rfl clock hview fun other hother ↦ hships other (hearlier.subset hother)
  · intro hmisfiles before hbefore
    have hreplays := replays_run (init { accepts := accepts' } clock' view) hsound
      (fun env henv ↦ hships env (hbefore.subset henv)) ((traces_of_returns hsound hships hreturns
        hmisfiles).mono hbefore)
    have hrecovered := recover_of_replays hreplays
    change Outcome.result _ = _ ∧ _
    rw [← core_log, hrecovered]
    exact ⟨rfl, rfl, rfl, rfl⟩

end Coordinator

/-- A rejected admission, a routing failure, and a request that is replanned, completed on a
verdict that arrives twice, cleaned up and admitted again. -/
def eventfulRun : List Json :=
  [Envelope.inbound "a1" "request.received" "r1" [],
    Envelope.inbound "b1" "request.received" "r2" [("declared_type", .str "type.gamma")],
    Envelope.inbound "c1" "request.received" "r3" [("declared_type", .str "type.alpha")],
    Envelope.inbound "c2" "plan.created" "r3" [], Envelope.inbound "c3" "task.failed" "r3" [],
    Envelope.inbound "c4" "plan.created" "r3" [], Envelope.inbound "c5" "task.completed" "r3" [],
    Envelope.inbound "c6" "verify.passed" "r3" [], Envelope.inbound "c6" "verify.passed" "r3" [],
    Envelope.inbound "b2" "request.cancelled" "r2" [], Envelope.system "s1" "session.sleep" [],
    Envelope.inbound "c7" "request.received" "r3" [("declared_type", .str "type.beta")]]

theorem eventfulRun_returns : Coordinator.selftest.Returns eventfulRun := by
  simp only [Coordinator.Returns, eventfulRun, Coordinator.throughout_cons_iff,
    Coordinator.throughout_nil, and_true]
  decide +kernel

theorem eventfulRun_misfilesNone : Coordinator.selftest.MisfilesNone eventfulRun :=
  fun before env hbefore hmisfiles ↦ by
    have hname : ∀ env ∈ eventfulRun, env.item "event_name" ≠ .str "__cleanup__" := by
      decide +kernel
    exact hname env (hbefore.subset (by simp)) hmisfiles.name

theorem recover_exact_eventful :
    Coordinator.selftest.Recovers (Coordinator.selftest.run eventfulRun) :=
  (Coordinator.recover_exact_iff (fun _ ↦ true) (fun _ ↦ true) (fun _ ↦ .int 0) (fun _ ↦ .int 0)
    defaultView_shippedTable (shipsTable_of_forall_ne (by decide +kernel))
    eventfulRun_returns).mpr eventfulRun_misfilesNone eventfulRun (prefix_refl _)

/-- A snapshot whose vocabulary contains the name of the cleanup records, and a request whose
admission is delivered once more under that name. -/
def misfiledRun : List Json :=
  [Envelope.system "e1" "config.changed" [("snapshot", snapshot [("version", .int 2),
      ("inbound_events", .arr [.str "request.received", .str "__cleanup__"])])],
    Envelope.inbound "e2" "request.received" "r1" [("declared_type", .str "type.alpha")],
    Envelope.inbound "e2" "__cleanup__" "r1" []]

/-- The request is scheduled, and recovery from the log returns true without it. -/
theorem misfiledRun_not_recovered :
    (∀ env ∈ misfiledRun, ShipsTable env) ∧ Coordinator.selftest.Returns misfiledRun ∧
      ¬ Coordinator.selftest.Recovers (Coordinator.selftest.run misfiledRun) := by
  refine ⟨?_, ?_, fun hrecovers ↦ ?_⟩
  · have htable : ∀ env ∈ misfiledRun, env.item "event_name" = .str "config.changed" →
        ((env.item "payload").item "snapshot").item "transitions" = .obj transitions := by
      decide +kernel
    exact fun env henv hname ↦ shipsTable_of_transitions (htable env henv hname) hname
  · simp only [Coordinator.Returns, misfiledRun, Coordinator.throughout_cons_iff,
      Coordinator.throughout_nil, and_true]
    decide +kernel
  · have hread := congrArg (fun ledger : Ledger ↦ (ledger.get? (.str "r1")).isSome) hrecovers.2.1
    revert hread
    decide +kernel

end AbsoluteZero.Kernel

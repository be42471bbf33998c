import AbsoluteZero.Kernel.Replay

/-!
# Tampered logs

Replay recomputes the record of a transition, so in an accepted log the sequence number, the prior
state, the next state and the emitted events are determined. The guard result, the event and its id,
the info and the version are carried over, so a log may be accepted that no run produces.
-/

namespace AbsoluteZero.Kernel

open Foundations

/-! ### Determined records -/

def Record.selected (record : Record) (first : Row) (rest : List Row) : Row :=
  if record.guardResult then first else (first :: rest).getLast (List.cons_ne_nil _ _)

/-- The record has what a row gives for an entry under a snapshot. -/
structure Record.DeterminedBy (record : Record) (entry : RequestState) (view : ConfigView)
    (row : Row) : Prop where
  priorState : record.priorState = entry.lifecycleState
  sequence : record.sequence = entry.transitionSequence + 1
  nextState : record.nextState.canonical = row.next.canonical
  emittedEvents : ∃ emits, row.emit.iterate = .ok emits ∧
    record.emittedEvents.map Json.canonical = emits.map Json.canonical
  configVersion : record.configVersion.canonical = view.version.canonical

/-- The record is what the table gives for its request in the state rebuilt so far, up to its guard
result. -/
def Coordinator.Determines (coord : Coordinator) (record : Record) : Prop :=
  ∃ view entry first rest,
    coord.configs.at? record.configVersion = some view ∧ coord.subject? record = some entry ∧
      view.rows entry.lifecycleState record.event = .ok (some (first :: rest)) ∧
      record.DeterminedBy entry view (record.selected first rest)

/-- A record with the same request, event, guard result and snapshot version, but with another
sequence number, prior state, next state or emission list. -/
structure Record.Alters (altered record : Record) : Prop where
  requestId : altered.requestId = record.requestId
  event : altered.event = record.event
  guardResult : altered.guardResult = record.guardResult
  configVersion : altered.configVersion = record.configVersion
  verdict : altered.verdict = record.verdict
  changes : altered.sequence ≠ record.sequence ∨ altered.priorState ≠ record.priorState ∨
    altered.nextState.canonical ≠ record.nextState.canonical ∨
    altered.emittedEvents.map Json.canonical ≠ record.emittedEvents.map Json.canonical

namespace Coordinator

theorem replayDeviation_ne (coord : Coordinator) (record : Record) (next : Coordinator) :
    coord.replayDeviation record ≠ ⟨next, .ok true⟩ := by
  intro hdeviation
  cases congrArg Outcome.result hdeviation

/-- Publishing the emissions of a row leaves the ledger and the snapshots. -/
theorem publishRow_frame (coord : Coordinator) (entry : RequestState) (row : Row) (decision : Json)
    (config : ConfigView) (info : Option (List (String × Json))) (index : Nat) (names : List Json) :
    (coord.publishRow entry row decision config info index names).ledger = coord.ledger ∧
      (coord.publishRow entry row decision config info index names).configs = coord.configs := by
  have hcore := core_publishRow entry row decision config info names coord index
  exact ⟨congrArg Core.ledger hcore, congrArg Core.configs hcore⟩

/-- The replay of a transition succeeds only on a determined record, and writes an entry in the next
state of the row. -/
theorem determinedBy_of_replayTransition {coord next : Coordinator} {record : Record}
    {entry : RequestState} {view : ConfigView} {published : Option (List (Json × Nat))}
    (hreplay : coord.replayTransition record entry view published = ⟨next, .ok true⟩) :
    ∃ first rest, view.rows entry.lifecycleState record.event = .ok (some (first :: rest)) ∧
      record.DeterminedBy entry view (record.selected first rest) ∧ next.configs = coord.configs ∧
      ∃ replayed, replayed.lifecycleState = (record.selected first rest).next ∧
        next.ledger = coord.ledger.insert record.requestId replayed := by
  unfold replayTransition at hreplay
  split at hreplay
  · cases hreplay
  · exact absurd hreplay (replayDeviation_ne _ _ _)
  · exact absurd hreplay (replayDeviation_ne _ _ _)
  next first rest hrows =>
  split at hreplay
  · exact absurd hreplay (replayDeviation_ne _ _ _)
  next hagree =>
  have hselected : (if record.guardResult then first else
      (first :: rest).getLast (List.cons_ne_nil _ _)) = record.selected first rest := rfl
  simp only [hselected] at hreplay
  split at hreplay
  · cases hreplay
  next emits hemits =>
  split at hreplay
  · exact absurd hreplay (replayDeviation_ne _ _ _)
  next hcanonical =>
  rw [not_not] at hcanonical
  simp only [not_or, not_not] at hagree
  have hdetermined : record.DeterminedBy entry view (record.selected first rest) :=
    ⟨hagree.1.symm, hagree.2, (congrArg Record.nextState hcanonical).symm,
      ⟨emits, hemits, (congrArg Record.emittedEvents hcanonical).symm⟩,
      (congrArg Record.configVersion hcanonical).symm⟩
  refine ⟨first, rest, hrows, hdetermined, ?_⟩
  split at hreplay
  · cases hreplay
  split at hreplay
  · split at hreplay
    · cases hreplay
      exact ⟨rfl, _, rfl, rfl⟩
    · cases hreplay
      obtain ⟨hledger, hconfigs⟩ := publishRow_frame _ _ _ _ _ _ _ _
      exact ⟨hconfigs, _, rfl, hledger⟩
  · cases hreplay
    exact ⟨rfl, _, rfl, rfl⟩

theorem determines_of_accepts {published : Option (List (Json × Nat))} {coord next : Coordinator}
    {record : Record} (hrecord : record.IsTransition)
    (haccepts : Accepts published coord record next) : coord.Determines record := by
  unfold Accepts at haccepts
  rw [replayRecord_of_transition coord hrecord] at haccepts
  split at haccepts
  · next view entry hview hentry =>
    obtain ⟨first, rest, hrows, hdetermined, -⟩ := determinedBy_of_replayTransition haccepts
    exact ⟨view, entry, first, rest, hview, hentry, hrows, hdetermined⟩
  · exact absurd haccepts (replayDeviation_ne _ _ _)

theorem subject_congr (coord : Coordinator) {altered record : Record}
    (hid : altered.requestId = record.requestId) (hevent : altered.event = record.event)
    {entry : RequestState} (hentry : coord.subject? record = some entry) :
    ∃ other, coord.subject? altered = some other ∧ other.lifecycleState = entry.lifecycleState ∧
      other.transitionSequence = entry.transitionSequence := by
  unfold subject? at hentry ⊢
  rw [hid, hevent]
  split at hentry
  · next found hfound =>
    cases hentry
    exact ⟨entry, rfl, rfl, rfl⟩
  · next hnone =>
    by_cases hreceived : record.event = .str "request.received"
    · rw [if_pos hreceived] at hentry ⊢
      cases hentry
      exact ⟨_, rfl, rfl, rfl⟩
    · rw [if_neg hreceived] at hentry
      cases hentry

theorem replayRecord_of_alters {coord : Coordinator} {record altered : Record}
    (hrecord : record.IsTransition) (hdetermines : coord.Determines record)
    (halters : altered.Alters record) (published : Option (List (Json × Nat))) :
    ∃ found : Coordinator, coord.replayRecord altered published =
      found.replayDeviation altered := by
  obtain ⟨view, entry, first, rest, hview, hentry, hrows, hdetermined⟩ := hdetermines
  obtain ⟨other, hother, hstate, hsequence⟩ :=
    coord.subject_congr halters.requestId halters.event hentry
  have haltered : altered.IsTransition :=
    ⟨halters.event ▸ hrecord.config, halters.event ▸ hrecord.session,
      halters.event ▸ hrecord.cleanup, halters.verdict.trans hrecord.verdict⟩
  rw [replayRecord_of_transition coord haltered, halters.configVersion, hview, hother]
  refine ⟨coord.opened altered, ?_⟩
  simp only [replayTransition, hstate, halters.event, hrows]
  split
  · rfl
  next hagree =>
  simp only [not_or, not_not] at hagree
  obtain ⟨emits, hemits, hemitted⟩ := hdetermined.emittedEvents
  have hselected : (if altered.guardResult then first else
      (first :: rest).getLast (List.cons_ne_nil _ _)) = record.selected first rest := by
    rw [halters.guardResult]
    rfl
  simp only [hselected, hemits]
  refine if_pos fun hcanonical ↦ ?_
  have hnext : altered.nextState.canonical = record.nextState.canonical :=
    (congrArg Record.nextState hcanonical).symm.trans hdetermined.nextState.symm
  have hemittedEvents : altered.emittedEvents.map Json.canonical =
      record.emittedEvents.map Json.canonical :=
    (congrArg Record.emittedEvents hcanonical).symm.trans hemitted.symm
  rcases halters.changes with hchanged | hchanged | hchanged | hchanged
  · exact hchanged (hagree.2.trans (by rw [hsequence, hdetermined.sequence]))
  · exact hchanged (hagree.1.symm.trans hdetermined.priorState.symm)
  · exact hchanged hnext
  · exact hchanged hemittedEvents

theorem steady_halted : Steady fun coord ↦ coord.halted = true where
  frame hfirst _ _ hhalted := hhalted ▸ hfirst
  safePublish {coord} topic {message} _ hcoord := by
    have hattempt : (coord.attempt topic message).1.halted = true := hcoord
    unfold Coordinator.safePublish
    split
    · next published heq => rwa [heq] at hattempt
    · next published heq =>
      rw [heq] at hattempt
      rw [if_pos hattempt]
      exact hattempt

theorem halted_replayDeviation (coord : Coordinator) (record : Record) :
    (coord.replayDeviation record).state.halted = true :=
  steady_halted.fault _ _ rfl

end Coordinator

/-! ### Logs under the shipped table -/

/-- A record that, if it changes the configuration, ships the transition table. -/
def Record.ShipsTable (record : Record) : Prop :=
  record.event = .str "config.changed" → ∀ view,
    ConfigView.ofData (record.snapshot.getD .null) = .ok view → view.ShippedTable

namespace Coordinator

/-- The snapshots carry the shipped table and the entries are in its phases. -/
structure OnTable (coord : Coordinator) : Prop where
  shipped : ∀ version view, coord.configs.at? version = some view → view.ShippedTable
  phase : ∀ requestId entry, coord.ledger.get? requestId = some entry →
    ∃ phase : Phase, entry.lifecycleState = phase.state

variable {coord : Coordinator} {record : Record}

/-- The rule of a determined record: it leaves the logged state, enters the next one, and its guard,
if it has one, is logged as permitting. -/
theorem OnTable.exists_rule (hcoord : coord.OnTable)
    {entry : RequestState} (hentry : coord.subject? record = some entry) {view : ConfigView}
    (hview : coord.configs.at? record.configVersion = some view) {first : Row} {rest : List Row}
    (hrows : view.rows entry.lifecycleState record.event = .ok (some (first :: rest))) :
    ∃ rule : Rule, record.selected first rest = rule.row ∧ entry.lifecycleState = rule.source.state
      ∧ record.event = .str rule.event ∧ (rule.guardName ≠ .null → record.guardResult = true) := by
  obtain ⟨phase, hphase⟩ : ∃ phase : Phase, entry.lifecycleState = phase.state := by
    unfold subject? at hentry
    split at hentry
    · next found hfound =>
      cases hentry
      exact hcoord.phase _ _ hfound
    · split at hentry
      · cases hentry
        exact ⟨.created, rfl⟩
      · cases hentry
  obtain ⟨text, htext⟩ : ∃ text, record.event = .str text := by
    rw [hphase] at hrows
    cases hevent : record.event <;>
      first | exact ⟨_, rfl⟩ | (rw [hevent] at hrows; cases hrows)
  rw [hphase, htext, rows_of_shipped (hcoord.shipped _ _ hview)] at hrows
  obtain ⟨rules, hrules, hmap⟩ := Option.map_eq_some_iff.mp (Except.ok.inj hrows)
  have hrule (rule : Rule) (hmem : rule ∈ rules) :
      entry.lifecycleState = rule.source.state ∧ record.event = .str rule.event := by
    obtain ⟨hsource, hevent⟩ := source_event_of_mem hrules hmem
    rw [hsource, hevent]
    exact ⟨hphase, htext⟩
  cases rulesShape hrules with
  | @single rule hguard =>
    cases hmap
    refine ⟨rule, ?_, (hrule rule (by simp)).1, (hrule rule (by simp)).2, fun hne ↦
      absurd hguard hne⟩
    unfold Record.selected
    split <;> rfl
  | @guarded permits falls hguard hpermits hfallback hblocks =>
    cases hmap
    cases hresult : record.guardResult with
    | true =>
      refine ⟨permits, ?_, (hrule permits (by simp)).1, (hrule permits (by simp)).2, fun _ ↦ rfl⟩
      rw [Record.selected, hresult]
      rfl
    | false =>
      refine ⟨falls, ?_, (hrule falls (by simp)).1, (hrule falls (by simp)).2,
        fun hne ↦ absurd hfallback hne⟩
      rw [Record.selected, hresult]
      rfl

/-- A written entry in a phase keeps the entries on the table. -/
theorem OnTable.insert (hcoord : coord.OnTable) (requestId : Json)
    {entry : RequestState} (hentry : ∃ phase : Phase, entry.lifecycleState = phase.state) :
    ∀ other found, (coord.ledger.insert requestId entry).get? other = some found →
      ∃ phase : Phase, found.lifecycleState = phase.state := by
  intro other found hfound
  rw [OrderedDict.get?_insert] at hfound
  split at hfound
  · cases hfound
    exact hentry
  · exact hcoord.phase other found hfound

theorem OnTable.opened (hcoord : coord.OnTable) (record : Record) :
    (coord.opened record).OnTable := by
  unfold Coordinator.opened
  split
  · exact hcoord
  · exact ⟨hcoord.shipped, hcoord.insert _ ⟨.created, rfl⟩⟩

/-- An accepted record keeps the snapshots and the entries on the table. -/
theorem OnTable.accepts {published : Option (List (Json × Nat))} {coord next : Coordinator}
    (hcoord : coord.OnTable) (hships : record.ShipsTable)
    (haccepts : Accepts published coord record next) : next.OnTable := by
  unfold Accepts at haccepts
  by_cases hconfig : record.event = .str "config.changed"
  · rw [replayRecord, if_pos hconfig] at haccepts
    split at haccepts
    · exact absurd haccepts (replayDeviation_ne _ _ _)
    · next view hview =>
      cases haccepts
      exact ⟨ConfigCache.of_at?_put hcoord.shipped fun _ _ ↦ hships hconfig view hview,
        hcoord.phase⟩
  by_cases hsession : record.event ∈ sessionEvents
  · rw [replayRecord, if_neg hconfig, if_pos hsession] at haccepts
    cases haccepts
    exact ⟨hcoord.shipped, hcoord.phase⟩
  by_cases hcleanup : record.event = .str "__cleanup__"
  · rw [replayRecord, if_neg hconfig, if_neg hsession, if_pos hcleanup] at haccepts
    cases haccepts
    refine ⟨hcoord.shipped, fun requestId entry hentry ↦ ?_⟩
    change (coord.ledger.erase record.requestId).get? requestId = some entry at hentry
    exact hcoord.phase requestId entry (OrderedDict.get?_of_erase hentry).2
  cases hverdict : record.verdict with
  | some verdict =>
    rw [replayRecord, if_neg hconfig, if_neg hsession, if_neg hcleanup, hverdict] at haccepts
    cases haccepts
    exact ⟨hcoord.shipped, hcoord.phase⟩
  | none =>
    rw [replayRecord_of_transition coord ⟨hconfig, hsession, hcleanup, hverdict⟩] at haccepts
    split at haccepts
    · next view entry hview hentry =>
      obtain ⟨first, rest, hrows, -, hconfigs, replayed, hstate, hledger⟩ :=
        determinedBy_of_replayTransition haccepts
      obtain ⟨rule, hselected, -⟩ := hcoord.exists_rule hentry hview hrows
      have hopened := hcoord.opened record
      refine ⟨hconfigs ▸ hopened.shipped, ?_⟩
      rw [hledger]
      refine hopened.insert _ ⟨rule.target, ?_⟩
      rw [hstate, hselected]
      rfl
    · exact absurd haccepts (replayDeviation_ne _ _ _)

/-- A determined record that enters `completed` is a permitted completion or a late verdict. -/
theorem OnTable.completes (hcoord : coord.OnTable)
    (hdetermines : coord.Determines record) (hnext : record.nextState = .str "completed") :
    record.priorState = .str "completed" ∨
      (record.priorState = .str "executing" ∧ record.event = .str "task.completed" ∧
        record.guardResult = true) ∨
      (record.priorState = .str "verifying" ∧ record.event = .str "verify.passed") := by
  obtain ⟨view, entry, first, rest, hview, hentry, hrows, hdetermined⟩ := hdetermines
  obtain ⟨rule, hselected, hsource, hevent, hguard⟩ := hcoord.exists_rule hentry hview hrows
  have htarget : rule.target = .completed := by
    have hcanonical := hdetermined.nextState
    rw [hselected, hnext] at hcanonical
    exact Phase.state_injective (Json.canonical_eq_str hcanonical.symm)
  rw [hdetermined.priorState, hsource, hevent]
  cases rule
  case complete => exact Or.inr (Or.inl ⟨rfl, rfl, hguard (by decide)⟩)
  case passLate => exact Or.inr (Or.inr ⟨rfl, rfl⟩)
  case settle source =>
    cases htarget
    exact Or.inl rfl
  all_goals cases htarget

/-- A log that a new coordinator accepts determines, at each record of a transition, its sequence
number, prior state, next state and emitted events: any alteration of these is refused with
admission halted. If all snapshots carry the shipped table, the records that enter `completed` are
task completions logged as permitted and late verdicts. -/
theorem accepted_determined (accepts : Nat → Bool) (clock : Nat → Json) {view : ConfigView}
    (hview : view.ShippedTable) (published : Option (List (Json × Nat))) {records : List Record}
    (haccepted : ((init { accepts := accepts } clock view).recover records published).result =
      .ok true) :
    let fresh := init { accepts := accepts } clock view
    ∀ before record after, records = before ++ record :: after → record.IsTransition →
      (fresh.recover before published).state.Determines record ∧
      (∀ altered : Record, altered.Alters record →
        (fresh.recover (before ++ altered :: after) published).result = .ok false ∧
          (fresh.recover (before ++ altered :: after) published).state.halted = true) ∧
      ((∀ other ∈ records, other.ShipsTable) → record.nextState = .str "completed" →
        record.priorState = .str "completed" ∨
          (record.priorState = .str "executing" ∧ record.event = .str "task.completed" ∧
            record.guardResult = true) ∨
          (record.priorState = .str "verifying" ∧ record.event = .str "verify.passed")) := by
  intro fresh before record after hrecords hrecord
  have hreads : Reads (Accepts published) { fresh with ledger := .empty, log := [], halted := false
      } records (fresh.recover records published).state := by
    rw [← replay_eq_iff, ← haccepted]
    rfl
  rw [hrecords, reads_append_iff] at hreads
  obtain ⟨middle, hbefore, hrest⟩ := hreads
  obtain ⟨next, haccepts, -⟩ := reads_cons_iff.mp hrest
  have hdetermines := determines_of_accepts hrecord haccepts
  have hrecovered : fresh.recover before published = ⟨middle, .ok true⟩ := replay_eq_iff.mpr hbefore
  refine ⟨by rw [hrecovered]; exact hdetermines, fun altered halters ↦ ?_, fun hships hnext ↦ ?_⟩
  · obtain ⟨found, hdeviates⟩ := replayRecord_of_alters hrecord hdetermines halters published
    have hrefused : fresh.recover (before ++ altered :: after) published =
        found.replayDeviation altered := by
      rw [recover_append hrecovered, replay, hdeviates]
      rfl
    rw [hrefused]
    exact ⟨rfl, halted_replayDeviation found altered⟩
  · have hstart : OnTable { fresh with ledger := .empty, log := [], halted := false } :=
      ⟨(Core.sound_init hview).shipped, fun requestId entry hentry ↦ by cases hentry⟩
    have hmiddle : middle.OnTable := hbefore.keeps hstart fun state other next hmem hother hstate ↦
      hstate.accepts (hships other (hrecords ▸ List.mem_append_left _ hmem)) hother
    exact hmiddle.completes hdetermines hnext

end Coordinator

def executingRun : List Json :=
  [Envelope.inbound "e1" "request.received" "r1" [("declared_type", .str "type.alpha")],
    Envelope.inbound "e2" "plan.created" "r1" []]

/-- A completion of the request without a verdict, logged as permitted. -/
def forgedCompletion : Record where
  requestId := .str "r1"
  eventId := some (.str "e3")
  sequence := 4
  priorState := .str "executing"
  event := .str "task.completed"
  guardResult := true
  nextState := .str "completed"
  configVersion := .int 1
  emittedEvents := [.str "request.completed", .str "gate.enforced"]

/-- Every alteration of a transition of the request in execution is refused. -/
theorem accepted_determined_executing :
    let log := (Coordinator.selftest.run executingRun).log
    ∀ before record after, log = before ++ record :: after → record.IsTransition →
      ∀ altered : Record, altered.Alters record →
        (Coordinator.selftest.recover (before ++ altered :: after) none).result = .ok false := by
  intro log before record after hlog hrecord altered halters
  have haccepted : (Coordinator.selftest.recover log none).result = .ok true := by decide +kernel
  exact ((Coordinator.accepted_determined (fun _ ↦ true) (fun _ ↦ .int 0) defaultView_shippedTable
    none haccepted before record after hlog hrecord).2.1 altered halters).1

/-- The genuine log with another event id and info at the plan is accepted, though the event id is
that of the request, which no run takes twice. So is the log that goes on with the forged
completion, which completes the request without a verdict. -/
theorem forgedLog_accepted :
    let log := (Coordinator.selftest.run executingRun).log
    let altered := log.map fun record ↦
      if record.event = .str "plan.created" then
        { record with eventId := some (.str "e1"), info := some [("reason", .str "")] }
      else record
    let recovered := Coordinator.selftest.recover (log ++ [forgedCompletion]) none
    (altered ≠ log ∧ (Coordinator.selftest.recover altered none).result = .ok true) ∧
    recovered.result = .ok true ∧
      (recovered.state.ledger.get? (.str "r1")).map RequestState.lifecycleState =
        some (.str "completed") ∧
      ∀ record ∈ log ++ [forgedCompletion], record.event ≠ .str "verify.passed" := by
  decide +kernel

end AbsoluteZero.Kernel

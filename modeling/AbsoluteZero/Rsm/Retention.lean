import AbsoluteZero.Rsm.Replay

/-!
# Materialization and eviction

What a call can do to the standing of a request is one of five moves (`Moves`), and eviction starts
from persistence alone, once the retention window has elapsed since the mark. There is exactly one
record for an active, terminal or persisted id and none for any other, whatever the calls are
(`World.materialization`).
-/

namespace AbsoluteZero.Rsm

open Foundations

/-- The order of the materialization states. -/
def Materialization.rank : Materialization → Nat
  | .absent => 0
  | .active => 1
  | .terminal => 2
  | .persisted => 3
  | .retained => 4
  | .evicted => 5

/-- What a call can do to the standing of the request that it names. -/
inductive Moves : Standing → Operation → Standing → Prop
  | stays {before after : Standing} {operation : Operation} (hstate : after.state = before.state)
      (hsince : after.since? = before.since?) : Moves before operation after
  | born {operation : Operation} (record : RequestRecord) :
      Moves .absent operation (.active record)
  | ends {operation : Operation} (record next : RequestRecord) :
      Moves (.active record) operation (.terminal next)
  | persists (requestId : String) (record : RequestRecord) (clock : Rat) :
      Moves (.terminal record) (.persistTerminal requestId true true clock)
        (.persisted record clock)
  | evicts (requestId : String) (record : RequestRecord) (since clock retentionWindow : Rat)
      (helapsed : retentionWindow ≤ clock - since) :
      Moves (.persisted record since) (.evictGate requestId clock retentionWindow) .evicted

theorem moves_of_received {floatSum : FloatSum} {event : Event} {before after : Standing}
    (hreceive : before.receive floatSum event = some (.ok after)) :
    Moves before (.process event) after := by
  generalize hresult : Except.ok after = result at hreceive
  cases receives_of_receive hreceive with
  | born =>
    cases hfields : birthReducer event <;> rw [hfields] at hresult <;> cases hresult
    exact .born _
  | @ends record reduced =>
    cases reduced <;> cases hresult
    exact .ends _ _
  | @goes record reduced | @late record reduced | @kept record since reduced =>
    cases reduced <;> cases hresult
    exact .stays rfl rfl

theorem moves_of_perform (floatSum : FloatSum) (request : Request) (operation : Operation) :
    Moves request.standing operation (request.perform floatSum operation).standing := by
  cases operation with
  | process event =>
    rcases request.process_cases floatSum event with ⟨hsame, -⟩ | ⟨standing, -, -, hreceive,
      happlied⟩
    · rw [Request.perform, hsame]
      exact .stays rfl rfl
    · rw [Request.perform, happlied]
      exact moves_of_received hreceive
  | persistTerminal requestId indexTaken snapshotTaken clock =>
    change Moves _ _ (request.standing.persist indexTaken snapshotTaken clock)
    cases request.standing with
    | terminal record =>
      cases indexTaken with
      | false => exact .stays rfl rfl
      | true =>
        cases snapshotTaken with
        | false => exact .stays rfl rfl
        | true => exact .persists requestId record clock
    | absent | active | persisted | evicted => exact .stays rfl rfl
  | evictGate requestId clock retentionWindow =>
    change Moves _ _ (request.standing.evict clock retentionWindow)
    cases request.standing with
    | persisted record since =>
      by_cases helapsed : retentionWindow ≤ clock - since
      · rw [Standing.evict, if_pos helapsed]
        exact .evicts requestId record since clock retentionWindow helapsed
      · rw [Standing.evict, if_neg helapsed]
        exact .stays rfl rfl
    | absent | active | terminal | evicted => exact .stays rfl rfl
  | seed requestId record =>
    change Moves _ _ (request.standing.plant record)
    cases request.standing with
    | absent => exact .born record
    | active | terminal | persisted | evicted => exact .stays rfl rfl
  | writeCheckpoint | maybeCheckpoint | reapplyJournalIndex => exact .stays rfl rfl

theorem Moves.forward {before after : Standing} {operation : Operation}
    (hmoves : Moves before operation after) : before.state.rank ≤ after.state.rank := by
  cases hmoves with
  | stays hstate _ => rw [hstate]
  | born | ends | persists | evicts => simp [Standing.state, Materialization.rank]

namespace World

/-- The standing of a request after some calls on an empty world. -/
def standingAfter (floatSum : FloatSum) (requestId : String) (operations : List Operation) :
    Standing :=
  (Request.new.run floatSum (operations.filter fun operation ↦ operation.target =
    requestId)).standing

variable {floatSum : FloatSum} {requestId : String}

theorem holds_after (floatSum : FloatSum) (requestId : String) (operations : List Operation) :
    (empty.run floatSum operations).ingest.store.Holds requestId
      (standingAfter floatSum requestId operations) :=
  (@represents_run empty _ Ingest.represents_empty floatSum operations).store requestId

/-- One more call moves the standing of the request that it names, and no other. -/
theorem standingAfter_concat (operations : List Operation) (operation : Operation) :
    operation.target = requestId ∧ Moves (standingAfter floatSum requestId operations) operation
        (standingAfter floatSum requestId (operations ++ [operation])) ∨
      operation.target ≠ requestId ∧ standingAfter floatSum requestId (operations ++ [operation]) =
        standingAfter floatSum requestId operations := by
  unfold standingAfter
  rw [List.filter_append, Request.run_append]
  by_cases htarget : operation.target = requestId
  · rw [List.filter_cons_of_pos (by simpa using htarget)]
    exact .inl ⟨htarget, moves_of_perform floatSum _ operation⟩
  · rw [List.filter_cons_of_neg (by simpa using htarget)]
    exact .inr ⟨htarget, rfl⟩

/-- Along any further calls the standing goes forward. -/
theorem forward_run (before later : List Operation) :
    (standingAfter floatSum requestId before).state.rank ≤
      (standingAfter floatSum requestId (before ++ later)).state.rank := by
  induction later using List.reverseRecOn with
  | nil => rw [List.append_nil]
  | append_singleton later operation ih =>
    rw [← List.append_assoc]
    rcases standingAfter_concat (before ++ later) operation with ⟨-, hmoves⟩ | ⟨-, hsame⟩
    · exact ih.trans hmoves.forward
    · rw [hsame]
      exact ih

/-- A persisted request was marked by a `persist_terminal` of which storage took both documents. -/
theorem exists_persistTerminal {record : RequestRecord} {since : Rat} {operations : List Operation}
    (hpersisted : standingAfter floatSum requestId operations = .persisted record since) :
    ∃ earlier later old, operations =
        earlier ++ .persistTerminal requestId true true since :: later ∧
      standingAfter floatSum requestId earlier = .terminal old := by
  induction operations using List.reverseRecOn generalizing record with
  | nil => cases hpersisted
  | append_singleton operations operation ih =>
    have hextend : ∀ old, standingAfter floatSum requestId operations = .persisted old since →
        ∃ earlier later old, operations ++ [operation] =
            earlier ++ .persistTerminal requestId true true since :: later ∧
          standingAfter floatSum requestId earlier = .terminal old := by
      intro old hold
      obtain ⟨earlier, later, terminal, rfl, hterminal⟩ := ih hold
      exact ⟨earlier, later ++ [operation], terminal, by simp, hterminal⟩
    rcases standingAfter_concat operations operation with ⟨htarget, hmoves⟩ | ⟨-, hsame⟩
    · rw [hpersisted] at hmoves
      generalize hbefore : standingAfter floatSum requestId operations = before at hmoves hextend
      cases hmoves with
      | stays hstate hsince =>
        cases before with
        | persisted old moment =>
          obtain rfl : since = moment := Option.some.inj hsince
          exact hextend old rfl
        | absent | active | terminal | evicted => cases hstate
      | persists other record clock =>
        obtain rfl : other = requestId := htarget
        exact ⟨operations, [], record, rfl, hbefore⟩
    · rw [hsame] at hpersisted
      exact hextend record hpersisted

/-- The records that the store holds under an id, in all its maps. -/
def recordsOf (store : Store) (requestId : String) : List RequestRecord :=
  (store.active.get? requestId).toList ++ (store.retained.get? requestId).toList

theorem journalKey_ne_terminalKey (requestId : String) :
    journalKey requestId ≠ terminalKey requestId := by
  intro heq
  have hlength := congrArg String.length heq
  unfold journalKey terminalKey at hlength
  rw [String.length_append, String.length_append] at hlength
  have hjournal : "rsm/journal/".length = 12 := rfl
  have hterminal : "rsm/terminal/".length = 13 := rfl
  omega

/-- Storage holds the journal index of a request and the snapshot of its record. -/
def Documented (world : World) (requestId : String) : Prop :=
  world.storage.get? (journalKey requestId) =
      some (.journalIndex requestId (world.ingest.journal.entries requestId)) ∧
    ∃ record, world.ingest.store.get? requestId = some record ∧
      world.storage.get? (terminalKey requestId) = some (.terminalSnapshot record)

/-- A terminal request is documented after a `persist_terminal` whose writes storage takes. -/
theorem documented_of_persistTerminal {old : RequestRecord} {earlier : List Operation}
    (hterminal : standingAfter floatSum requestId earlier = .terminal old) (clock : Rat) :
    (empty.run floatSum (earlier ++ [.persistTerminal requestId true true clock])).Documented
      requestId := by
  have hrep := @represents_run empty _ Ingest.represents_empty floatSum earlier
  obtain ⟨store, hmark, hpersist⟩ := persistTerminal_taken hrep hterminal clock
  obtain ⟨store', hmark', hstore⟩ := hrep.store.markPersisted hterminal clock
  obtain rfl : store = store' := Except.ok.inj (hmark.symm.trans hmark')
  rw [run_append, run_cons, run_nil]
  change World.Documented ((empty.run floatSum earlier).persistTerminal requestId true true clock).2
    requestId
  rw [hpersist]
  refine ⟨?_, old, ?_, ?_⟩
  · rw [OrderedDict.get?_insert, if_neg (journalKey_ne_terminalKey requestId).symm,
      OrderedDict.get?_insert_self]
  · have hget := (hstore requestId).get?
    rwa [Function.update_self] at hget
  · exact OrderedDict.get?_insert_self _ _ _

/-- Whatever calls are made, and whatever storage takes and the clock tells: the state of every id
only moves forward; there is one record for an active, terminal or persisted id and none for any
other; an id that becomes evicted was persisted before by a call of which storage took the journal
index and the terminal snapshot, and the retention window has elapsed since its moment; and an
evicted id stays evicted and without a record. -/
theorem materialization (floatSum : FloatSum) (requestId : String) :
    (∀ before later : List Operation,
      ((empty.run floatSum before).ingest.store.stateOf requestId).rank ≤
        ((empty.run floatSum (before ++ later)).ingest.store.stateOf requestId).rank) ∧
    (∀ operations : List Operation,
      let store := (empty.run floatSum operations).ingest.store
      (recordsOf store requestId).length =
        if store.stateOf requestId = .active ∨ store.stateOf requestId = .terminal ∨
          store.stateOf requestId = .persisted then 1 else 0) ∧
    (∀ (before : List Operation) (operation : Operation),
      (empty.run floatSum before).ingest.store.stateOf requestId ≠ .evicted →
      (empty.run floatSum (before ++ [operation])).ingest.store.stateOf requestId = .evicted →
      ∃ clock retentionWindow earlier moment later,
        operation = .evictGate requestId clock retentionWindow ∧
        before = earlier ++ .persistTerminal requestId true true moment :: later ∧
        (empty.run floatSum (earlier ++ [.persistTerminal requestId true true moment])).Documented
          requestId ∧
        retentionWindow ≤ clock - moment) ∧
    (∀ before later : List Operation,
      (empty.run floatSum before).ingest.store.stateOf requestId = .evicted →
      let store := (empty.run floatSum (before ++ later)).ingest.store
      store.stateOf requestId = .evicted ∧ store.get? requestId = none) := by
  have hstateOf : ∀ operations, (empty.run floatSum operations).ingest.store.stateOf requestId =
      (standingAfter floatSum requestId operations).state :=
    fun operations ↦ (holds_after floatSum requestId operations).stateOf
  have hevictedOf : ∀ standing : Standing, standing.state = .evicted → standing = .evicted := by
    intro standing hstanding
    cases standing <;> first | rfl | cases hstanding
  refine ⟨fun before later ↦ ?_, fun operations ↦ ?_, fun before operation hbefore hafter ↦ ?_,
    fun before later hevicted ↦ ?_⟩
  · rw [hstateOf, hstateOf]
    exact forward_run before later
  · intro store
    have hstore : store.Holds requestId (standingAfter floatSum requestId operations) :=
      holds_after floatSum requestId operations
    unfold recordsOf
    rw [hstore.record, hstore.retained, hstore.stateOf]
    cases standingAfter floatSum requestId operations <;> rfl
  · rw [hstateOf] at hbefore hafter
    have hevicted := hevictedOf _ hafter
    rcases standingAfter_concat before operation with ⟨htarget, hmoves⟩ | ⟨-, hsame⟩
    · rw [hevicted] at hmoves
      generalize hstanding : standingAfter floatSum requestId before = standing at hmoves hbefore
      cases hmoves with
      | stays hstate _ => exact absurd hstate.symm hbefore
      | evicts other record since clock retentionWindow helapsed =>
        obtain rfl : other = requestId := htarget
        obtain ⟨earlier, later, old, rfl, hterminal⟩ := exists_persistTerminal hstanding
        exact ⟨clock, retentionWindow, earlier, since, later, rfl, rfl,
          documented_of_persistTerminal hterminal since, helapsed⟩
    · rw [hsame] at hevicted
      exact absurd (congrArg Standing.state hevicted) hbefore
  · intro store
    rw [hstateOf] at hevicted
    have hforward := @forward_run floatSum requestId before later
    have hstore : store.Holds requestId (standingAfter floatSum requestId (before ++ later)) :=
      holds_after floatSum requestId (before ++ later)
    rw [hevicted] at hforward
    have hlast : standingAfter floatSum requestId (before ++ later) = .evicted := by
      cases hstanding : standingAfter floatSum requestId (before ++ later) with
      | evicted => rfl
      | absent | active | terminal | persisted =>
        rw [hstanding] at hforward
        simp [Standing.state, Materialization.rank] at hforward
    rw [hstore.stateOf, hstore.get?, hlast]
    exact ⟨rfl, rfl⟩

end World

end AbsoluteZero.Rsm

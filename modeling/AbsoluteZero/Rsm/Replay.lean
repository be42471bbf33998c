import AbsoluteZero.Foundations.Journal
import AbsoluteZero.Rsm.ExactlyOnce

/-!
# Replay of a journal

What is left of the live fold of a request is a reading in which every event is applied
(`Request.Applies`), and it alone leads from a new request to the live one up to the mark of
persistence (`Request.follows_run`). The recovery fold goes through the same pipeline
(`World.rebuilt_eq_live`).
-/

namespace AbsoluteZero.Rsm

open Foundations List Option Function

def Operation.event? : Operation → Option Event
  | .process event => some event
  | _ => none

/-! ### Persistence changes nothing else -/

def Standing.unpersisted : Standing → Standing
  | .persisted record _ => .terminal record
  | standing => standing

namespace Standing

@[simp] theorem record?_unpersisted (standing : Standing) :
    standing.unpersisted.record? = standing.record? := by
  cases standing <;> rfl

theorem receive_unpersisted (floatSum : FloatSum) (event : Event) (standing : Standing) :
    standing.unpersisted.receive floatSum event =
      (standing.receive floatSum event).map fun result ↦ result.map unpersisted := by
  cases standing with
  | absent =>
    change receive floatSum event .absent = _
    by_cases hbirth : event.family = birthFamily
    · simp only [receive, if_pos hbirth, map_some]
      cases birthReducer event <;> rfl
    · simp only [receive, if_neg hbirth, map_none]
  | active record =>
    simp only [receive, Option.map_map]
    refine congrArg (fun map ↦ Option.map map _) (funext fun next ↦ ?_)
    cases next with
    | error error => rfl
    | ok next => by_cases hterminal : event.family ∈ terminalFamilies <;>
        simp only [Except.map, Function.comp, hterminal, if_true, if_false, unpersisted]
  | terminal record | persisted record since =>
    change receive floatSum event (.terminal record) = _
    by_cases hlate : lateTolerant event = true
    · simp only [receive, if_pos hlate, Option.map_map]
      refine congrArg (fun map ↦ Option.map map _) (funext fun next ↦ ?_)
      cases next <;> rfl
    · simp only [receive, if_neg hlate, map_none]
  | evicted => rfl

end Standing

namespace Request

/-- The request without the mark of persistence. -/
def unpersisted (request : Request) : Request :=
  { request with standing := request.standing.unpersisted }

/-- The event is applied, and leads from one request to the other. -/
def Applies (floatSum : FloatSum) (request : Request) (event : Event) (next : Request) : Prop :=
  request.process floatSum event = (.ok .applied, next)

theorem Applies.unpersisted {floatSum : FloatSum} {request next : Request} {event : Event}
    (happlies : request.Applies floatSum event next) :
    request.unpersisted.Applies floatSum event next.unpersisted := by
  rcases request.process_cases floatSum event with ⟨-, hnot⟩ | ⟨standing, henvelope, hnew, hreceive,
    hprocess⟩
  · exact absurd (congrArg Prod.fst happlies) hnot
  · obtain rfl : next = request.applied event standing := by
      have heq := happlies.symm.trans hprocess
      exact congrArg Prod.snd heq
    refine process_of_received henvelope hnew ?_
    change request.standing.unpersisted.receive floatSum event = _
    rw [Standing.receive_unpersisted, hreceive]
    rfl

def appliedEvents (floatSum : FloatSum) : Request → List Operation → List Event
  | _, [] => []
  | request, operation :: rest =>
    (operation.event?.filter fun event ↦
      (request.process floatSum event).1 = .ok .applied).toList ++
        appliedEvents floatSum (request.perform floatSum operation) rest

theorem perform_evicted {floatSum : FloatSum} {request : Request}
    (hevicted : request.standing = .evicted) (operation : Operation) :
    (request.perform floatSum operation).standing = .evicted := by
  cases operation with
  | process event =>
    rcases request.process_cases floatSum event with ⟨hsame, -⟩ | ⟨standing, -, -, hreceive, -⟩
    · rw [perform, hsame, hevicted]
    · rw [hevicted] at hreceive
      cases hreceive
  | persistTerminal | evictGate | seed =>
    unfold perform
    rw [hevicted]
    rfl
  | writeCheckpoint | maybeCheckpoint | reapplyJournalIndex => exact hevicted

theorem run_evicted {floatSum : FloatSum} {request : Request}
    (hevicted : request.standing = .evicted) (operations : List Operation) :
    (request.run floatSum operations).standing = .evicted := by
  induction operations generalizing request with
  | nil => exact hevicted
  | cons operation rest ih => exact ih (perform_evicted hevicted operation)

end Request

/-- The call plants no record. -/
def Operation.Plain : Operation → Prop
  | .seed _ _ => False
  | _ => True

namespace Request

theorem unpersisted_persist (standing : Standing) (indexTaken snapshotTaken : Bool) (clock : Rat) :
    (standing.persist indexTaken snapshotTaken clock).unpersisted = standing.unpersisted := by
  cases standing with
  | terminal record => cases indexTaken <;> cases snapshotTaken <;> rfl
  | absent | active | persisted | evicted => rfl

/-- The gate evicts a request or leaves it. -/
theorem evict_cases (standing : Standing) (clock retentionWindow : Rat) :
    standing.evict clock retentionWindow = .evicted ∨
      standing.evict clock retentionWindow = standing := by
  cases standing with
  | persisted record since =>
    by_cases helapsed : retentionWindow ≤ clock - since
    · exact .inl (if_pos helapsed)
    · exact .inr (if_neg helapsed)
  | absent | active | terminal | evicted => exact .inr rfl

/-- Assumes: no call plants a record, and the request is not evicted in the end. Its applied events
alone lead to it, up to the mark of persistence. -/
theorem follows_run {floatSum : FloatSum} {request : Request} {operations : List Operation}
    (hplain : ∀ operation ∈ operations, operation.Plain)
    (hlive : (request.run floatSum operations).standing ≠ .evicted) :
    Reads (Applies floatSum) request.unpersisted (request.appliedEvents floatSum operations)
      (request.run floatSum operations).unpersisted := by
  induction operations generalizing request with
  | nil => exact .nil _
  | cons operation rest ih =>
    have hrest := @ih (request.perform floatSum operation)
      (fun other hother ↦ hplain other (mem_cons_of_mem _ hother)) hlive
    cases operation with
    | process event =>
      rcases request.process_cases floatSum event with ⟨hsame, hnot⟩ | ⟨standing, -, -, -, happlied⟩
      · have hperform : request.perform floatSum (.process event) = request := hsame
        simpa [appliedEvents, Operation.event?, Option.filter, hnot, run, hperform] using hrest
      · have hperform : request.perform floatSum (.process event) =
            request.applied event standing := congrArg Prod.snd happlied
        rw [hperform] at hrest
        have hstep : request.Applies floatSum event (request.applied event standing) := happlied
        have hevent : (request.process floatSum event).1 = .ok .applied :=
          congrArg Prod.fst happlied
        simpa [appliedEvents, Operation.event?, Option.filter, hevent, run, hperform]
          using Reads.cons hstep.unpersisted hrest
    | persistTerminal requestId indexTaken snapshotTaken clock =>
      have hperform : (request.perform floatSum
          (.persistTerminal requestId indexTaken snapshotTaken clock)).unpersisted =
          request.unpersisted :=
        congrArg (Request.mk · request.entries) (unpersisted_persist request.standing _ _ _)
      rw [hperform] at hrest
      exact hrest
    | evictGate requestId clock retentionWindow =>
      rcases evict_cases request.standing clock retentionWindow with hevicted | hsame
      · exact absurd (@run_evicted floatSum (request.perform floatSum
          (.evictGate requestId clock retentionWindow)) hevicted rest) hlive
      · have hperform : request.perform floatSum (.evictGate requestId clock retentionWindow) =
            request := congrArg (Request.mk · request.entries) hsame
        simpa [appliedEvents, Operation.event?, Option.filter, run, hperform] using hrest
    | seed requestId record => exact absurd (hplain _ mem_cons_self) id
    | writeCheckpoint | maybeCheckpoint | reapplyJournalIndex => exact hrest

theorem ids_of_reads {floatSum : FloatSum} {start final : Request} {events : List Event}
    (hreads : Reads (Applies floatSum) start events final) :
    final.ids = start.ids ++ events.map Event.eventId := by
  induction hreads with
  | nil => simp
  | @cons request next final event rest hstep _ ih =>
    rcases request.process_cases floatSum event with ⟨-, hnot⟩ | ⟨standing, -, -, -, happlied⟩
    · exact absurd (congrArg Prod.fst hstep) hnot
    · obtain rfl : next = request.applied event standing :=
        congrArg Prod.snd (hstep.symm.trans happlied)
      rw [ih]
      unfold ids applied
      simp

end Request

/-- Assumes: the event source resolves the events of a reading, which are all of one request. The
fold over their ids goes through, and leads the request along the reading. -/
theorem replayEvents_of_reads {floatSum : FloatSum} {eventSource : String → Option Event}
    {requestId : String} {start final : Request} {events : List Event}
    (hreads : Reads (Request.Applies floatSum) start events final)
    (hrequest : ∀ event ∈ events, event.requestId = requestId)
    (hsource : ∀ event ∈ events, eventSource event.eventId = some event)
    {ingest : Ingest} {requests : String → Request} (hrep : ingest.Represents requests)
    (hstart : requests requestId = start) (last : Option String) :
    ∃ after, replayEvents floatSum eventSource (events.map Event.eventId) ingest last =
        .ok (after, if events = [] then last else some requestId) ∧
      after.Represents (Function.update requests requestId final) := by
  induction hreads generalizing ingest requests last with
  | nil state =>
    refine ⟨ingest, rfl, ?_⟩
    rwa [← hstart, update_eq_self]
  | @cons request next final event rest hstep _ ih =>
    have hid : event.requestId = requestId := hrequest event mem_cons_self
    obtain ⟨houtcome, hnext⟩ := hrep.process floatSum event
    rw [hid, hstart] at houtcome hnext
    rw [hstep] at houtcome hnext
    obtain ⟨after, hreplay, hafter⟩ := ih
      (fun other hother ↦ hrequest other (mem_cons_of_mem _ hother))
      (fun other hother ↦ hsource other (mem_cons_of_mem _ hother)) hnext
      (update_self requestId next requests) (some requestId)
    refine ⟨after, ?_, ?_⟩
    · rw [map_cons, replayEvents, hsource event mem_cons_self]
      simp only [houtcome, hid, hreplay, ite_self, reduceCtorEq, if_false]
    · rwa [update_idem] at hafter

namespace World

/-- The events that were applied to a request along the calls. -/
def appliedEvents (floatSum : FloatSum) (requestId : String) : World → List Operation → List Event
  | _, [] => []
  | world, operation :: rest =>
    (operation.event?.filter fun event ↦
      event.requestId = requestId ∧ world.ingest.outcome floatSum event = .ok .applied).toList ++
        appliedEvents floatSum requestId (world.perform floatSum operation) rest

/-- The events applied to a request are told by the calls that name it. -/
theorem appliedEvents_eq {world : World} {requests : String → Request}
    (hrep : world.ingest.Represents requests) (floatSum : FloatSum) (requestId : String)
    (operations : List Operation) : world.appliedEvents floatSum requestId operations =
      (requests requestId).appliedEvents floatSum
        (operations.filter fun operation ↦ operation.target = requestId) := by
  induction operations generalizing world requests with
  | nil => rfl
  | cons operation rest ih =>
    rw [appliedEvents, ih (represents_perform hrep floatSum operation)]
    by_cases htarget : operation.target = requestId
    · subst htarget
      rw [filter_cons_of_pos (by simp), update_self]
      cases operation with
      | process event =>
        by_cases happlied : ((requests event.requestId).process floatSum event).1 = .ok .applied <;>
          simp [Request.appliedEvents, (hrep.process floatSum event).1, Operation.target,
            Operation.event?, Option.filter, Request.perform, happlied]
      | persistTerminal | evictGate | seed | writeCheckpoint | maybeCheckpoint
      | reapplyJournalIndex => rfl
    · rw [filter_cons_of_neg (by simpa using htarget), update_of_ne (Ne.symm htarget)]
      cases operation with
      | process event =>
        have hother : event.requestId ≠ requestId := htarget
        simp [hother, Operation.event?, Option.filter]
      | persistTerminal | evictGate | seed | writeCheckpoint | maybeCheckpoint
      | reapplyJournalIndex => rfl

theorem requestId_of_mem_appliedEvents {floatSum : FloatSum} {requestId : String} {world : World}
    {operations : List Operation} {event : Event}
    (hevent : event ∈ world.appliedEvents floatSum requestId operations) :
    event.requestId = requestId := by
  induction operations generalizing world with
  | nil => cases hevent
  | cons operation rest ih =>
    rcases mem_append.mp hevent with hhead | hrest
    · obtain ⟨-, happlied⟩ := filter_eq_some_iff.mp (mem_toList.mp hhead)
      exact (of_decide_eq_true happlied).1
    · exact ih hrest

/-- Along calls that plant no record, a request that is not evicted in the end is reached by its
applied events, up to the mark of persistence, and its journal has their ids. -/
theorem reads_appliedEvents (floatSum : FloatSum) {operations : List Operation}
    (hplain : ∀ operation ∈ operations, operation.Plain) (requestId : String)
    (hlive : (empty.run floatSum operations).ingest.store.stateOf requestId ≠ .evicted) :
    ∃ final, Reads (Request.Applies floatSum) .new
        (empty.appliedEvents floatSum requestId operations) final ∧
      (empty.run floatSum operations).ingest.store.get? requestId = final.standing.record? ∧
      (empty.run floatSum operations).ingest.journal.entries requestId = final.entries := by
  have hrun := @represents_run empty _ Ingest.represents_empty floatSum operations
  rw [hrun.stateOf] at hlive
  refine ⟨(Request.new.run floatSum
    (operations.filter fun operation ↦ operation.target = requestId)).unpersisted, ?_, ?_, ?_⟩
  · rw [appliedEvents_eq Ingest.represents_empty]
    refine @Request.follows_run floatSum .new _ (fun operation hoperation ↦
      hplain operation (mem_of_mem_filter hoperation)) fun hevicted ↦ ?_
    exact hlive (congrArg Standing.state hevicted)
  · rw [hrun.get?]
    exact (Standing.record?_unpersisted _).symm
  · exact hrun.entries requestId

/-- Assumes: no call plants a record, the request is not evicted in the end, and the event source
resolves the id of each event applied to it to that event. The replay of the journal's event ids
rebuilds the record of the request and its journal. -/
theorem rebuilt_eq_live (floatSum : FloatSum) (operations : List Operation)
    (hplain : ∀ operation ∈ operations, operation.Plain) (requestId : String)
    (hlive : (empty.run floatSum operations).ingest.store.stateOf requestId ≠ .evicted)
    (eventSource : String → Option Event)
    (hsource : ∀ event ∈ empty.appliedEvents floatSum requestId operations,
      eventSource event.eventId = some event) :
    let live := (empty.run floatSum operations).ingest
    ∃ store journal,
      replayJournal floatSum ((live.journal.entries requestId).map JournalEntry.eventId) eventSource
          .empty .empty = .ok (store, journal, live.store.get? requestId) ∧
        journal.entries requestId = live.journal.entries requestId := by
  intro live
  obtain ⟨final, hreads, hrecord, hentries⟩ :=
    reads_appliedEvents floatSum hplain requestId hlive
  have hids : (live.journal.entries requestId).map JournalEntry.eventId =
      (empty.appliedEvents floatSum requestId operations).map Event.eventId := by
    have hfinal := Request.ids_of_reads hreads
    rw [show live.journal.entries requestId = final.entries from hentries]
    exact hfinal
  have hempty : (⟨.empty, .empty, ⟨0, 0, 0, 0⟩⟩ : Ingest).Represents fun _ ↦ .new :=
    Ingest.represents_empty
  obtain ⟨after, hreplay, hafter⟩ := replayEvents_of_reads hreads
    (fun _ hevent ↦ requestId_of_mem_appliedEvents hevent) hsource hempty rfl none
  have hget : after.store.get? requestId = live.store.get? requestId := by
    rw [hafter.get?, update_self]
    exact hrecord.symm
  refine ⟨after.store, after.journal, ?_, ?_⟩
  · unfold replayJournal
    rw [hids, hreplay]
    change Except.ok (after.store, after.journal, _) = _
    by_cases hnone : empty.appliedEvents floatSum requestId operations = []
    · rw [hnone] at hreads
      rw [if_pos hnone]
      cases hreads
      rw [show live.store.get? requestId = none from hrecord]
      rfl
    · rw [if_neg hnone, bind_some, hget]
  · rw [hafter.entries, update_self]
    exact hentries.symm

/-- The life of a request up to its persistence, with a copy of its birth on the way, a late event
and an event of another request. -/
theorem rebuilt_eq_live_sample :
    let operations : List Operation :=
      [.process sampleBirth, .process sampleBirth, .process { sampleEnd with requestId := "r2" },
        .process sampleEnd, .persistTerminal "r1" true true 100, .evictGate "r1" 120 50]
    let live := (empty.run noFloats operations).ingest
    ∃ store journal,
      replayJournal noFloats ((live.journal.entries "r1").map JournalEntry.eventId)
          (fun eventId ↦ if eventId = "e0" then some sampleBirth else some sampleEnd)
          .empty .empty = .ok (store, journal, live.store.get? "r1") ∧
        journal.entries "r1" = live.journal.entries "r1" :=
  rebuilt_eq_live noFloats _ (by simp [Operation.Plain]) "r1" (by decide +kernel) _
    (by decide +kernel)

end World

end AbsoluteZero.Rsm

import AbsoluteZero.Rsm.Store

/-!
# The pipeline and its persistence

`Ingest.process` takes one event through the envelope check, dedup, the row of the transition table,
the reducer, the store and the journal; the optional telemetry is left out. A `ReducerFault` is an
answer; every other exception leaves `process`.

The documents of a request are JSON text in storage. `World` is a pipeline next to its storage, and
`Operation` a call of an entry point with the answers of its surroundings.
-/

namespace AbsoluteZero.Rsm

open Foundations

/-! ### The pipeline -/

structure Counters where
  applied : Nat
  dedupDrop : Nat
  fault : Nat
  unregistered : Nat

structure Ingest where
  store : Store
  journal : Journal
  counters : Counters

/-- `not request_id or not event_id or not family`. -/
def Event.malformedEnvelope (event : Event) : Prop :=
  event.requestId = "" ∨ event.eventId = "" ∨ event.family = ""

instance (event : Event) : Decidable event.malformedEnvelope :=
  inferInstanceAs (Decidable (_ ∨ _ ∨ _))

/-- What became of an event. -/
inductive Outcome
  | applied
  | dropped
  | faulted
  | unregistered
  deriving DecidableEq

/-- What leaves the `try` block of `process`. -/
inductive ProcessError
  | fault (reason : String)
  | raised (error : PyError)
  | refused (refusal : Refusal)
  | keyError (key : String)
  deriving DecidableEq

def ProcessError.ofReducer : ReducerError → ProcessError
  | .fault reason => .fault reason
  | .raised error => .raised error

/-- The store after the row of an event: what `process` does inside its `try` block. -/
def Store.perform (floatSum : FloatSum) (store : Store) (action : Action) (event : Event) :
    Except ProcessError Store := do
  if action = .create then
    let identityFields ← (birthReducer event).mapError .ofReducer
    (store.create event.requestId identityFields).mapError .refused
  else
    match OrderedDict.find event.family (registry floatSum) with
    | none => throw (.keyError event.family)
    | some reducer =>
      match store.get? event.requestId with
      -- a reducer that is handed `None` fails at the first attribute it reads
      | none => throw (.raised .attributeError)
      | some current => do
        let newRecord ← (reducer current event).mapError .ofReducer
        if action = .applyTerminal then
          (store.applyTerminal event.requestId newRecord).mapError .refused
        else
          (store.apply event.requestId newRecord).mapError .refused

namespace Ingest

/-- `Ingest(store, journal)`. -/
def new (store : Store) (journal : Journal) : Ingest := ⟨store, journal, ⟨0, 0, 0, 0⟩⟩

/-- `Ingest(Store(), Journal())`. -/
def empty : Ingest := ⟨.empty, .empty, ⟨0, 0, 0, 0⟩⟩

def countFault (ingest : Ingest) : Ingest :=
  { ingest with counters.fault := ingest.counters.fault + 1 }

def countDrop (ingest : Ingest) : Ingest :=
  { ingest with counters.dedupDrop := ingest.counters.dedupDrop + 1 }

def countUnregistered (ingest : Ingest) : Ingest :=
  { ingest with counters.unregistered := ingest.counters.unregistered + 1 }

def countApplied (ingest : Ingest) : Ingest :=
  { ingest with counters.applied := ingest.counters.applied + 1 }

variable (floatSum : FloatSum) (ingest : Ingest)

/-- `process`: what it answers or raises, and the pipeline it leaves. -/
def process (event : Event) :
    Except ProcessError Outcome × Ingest :=
  if event.malformedEnvelope then (.ok .faulted, ingest.countFault)
  else if ingest.journal.has event.requestId event.eventId then
    (.ok .dropped, ingest.countDrop)
  else
    let row := lookup (ingest.store.stateOf event.requestId) event.family false false
    if row.action = .unregistered then (.ok .unregistered, ingest.countUnregistered)
    else if row.action = .fault then (.ok .faulted, ingest.countFault)
    else
      match ingest.store.perform floatSum row.action event with
      | .error (.fault _) => (.ok .faulted, ingest.countFault)
      | .error error => (.error error, ingest)
      | .ok store =>
        match ingest.journal.append event.requestId event.eventId 1 with
        | .error refusal => (.error (.refused refusal), { ingest with store := store })
        | .ok journal => (.ok .applied, { ingest with store := store, journal := journal
          }.countApplied)

def after (event : Event) : Ingest :=
  (ingest.process floatSum event).2

/-- What `process` answers or raises. -/
def outcome (event : Event) : Except ProcessError Outcome :=
  (ingest.process floatSum event).1

def feed (events : List Event) : Ingest :=
  events.foldl (after floatSum) ingest

/-- What `process` answers to one event after another. -/
def outcomes (floatSum : FloatSum) : Ingest → List Event → List (Except ProcessError Outcome)
  | _, [] => []
  | ingest, event :: rest =>
    ingest.outcome floatSum event :: (ingest.after floatSum event).outcomes floatSum rest

end Ingest

/-- What stops a replay: an id that the event source does not resolve, or an exception of
`process`. -/
inductive ReplayError
  | unresolved (eventId : String)
  | process (error : ProcessError)
  deriving DecidableEq

/-- The loop of `replay_journal`: the pipeline, and the request of the last event. -/
def replayEvents (floatSum : FloatSum) (eventSource : String → Option Event) :
    List String → Ingest → Option String → Except ReplayError (Ingest × Option String)
  | [], ingest, requestId => .ok (ingest, requestId)
  | eventId :: rest, ingest, _ =>
    match eventSource eventId with
    | none => .error (.unresolved eventId)
    | some event =>
      match ingest.outcome floatSum event with
      | .error error => .error (.process error)
      | .ok _ => replayEvents floatSum eventSource rest (ingest.after floatSum event)
          (some event.requestId)

/-- `replay_journal`: the rebuilt store and journal, and the record of the request. -/
def replayJournal (floatSum : FloatSum) (eventIds : List String)
    (eventSource : String → Option Event) (seedStore : Store) (seedJournal : Journal) :
    Except ReplayError (Store × Journal × Option RequestRecord) := do
  let (ingest, requestId) ← replayEvents floatSum eventSource eventIds
    { store := seedStore, journal := seedJournal, counters := ⟨0, 0, 0, 0⟩ } none
  return (ingest.store, ingest.journal, requestId.bind ingest.store.get?)

/-- `_dict_to_record(json.loads(json.dumps(_record_to_dict(record))))`. -/
def RequestRecord.throughJson (record : RequestRecord) : RequestRecord :=
  { record with
    work :=
      { record.work with
        tasks := record.work.tasks.throughJson
        execs := record.work.execs.throughJson }
    context := record.context.throughJson
    verification := record.verification.throughJson }

structure Checkpoint where
  requestId : String
  seq : Int
  journalPrefix : List JournalEntry
  record : RequestRecord

/-- What storage holds under a key. -/
inductive Document
  | journalIndex (requestId : String) (entries : List JournalEntry)
  | terminalSnapshot (record : RequestRecord)
  | checkpoint (document : Checkpoint)
  | checkpointIndex (latestSeq : Int)

abbrev Storage := OrderedDict String Document

def journalKey (requestId : String) : String := "rsm/journal/" ++ requestId

def terminalKey (requestId : String) : String := "rsm/terminal/" ++ requestId

def checkpointKey (requestId : String) (seq : Int) : String :=
  "rsm/checkpoint/" ++ requestId ++ "/" ++ toString seq

def checkpointIndexKey (requestId : String) : String := "rsm/checkpoint_index/" ++ requestId

/-- What the functions of persistence raise. -/
inductive PersistenceError
  | refused (refusal : Refusal)
  | unavailable
  | keyError (key : String)
  | attributeError
  | replay (error : ReplayError)
  deriving DecidableEq

def readDocument (storage : Storage) (key : String) : Except PersistenceError Document :=
  match storage.get? key with
  | some document => .ok document
  | none => .error (.keyError key)

/-! ### The world -/

structure World where
  ingest : Ingest
  storage : Storage

namespace World

def empty : World := ⟨.empty, .empty⟩

def write (world : World) (key : String) (document : Document) (taken : Bool) :
    Except PersistenceError Unit × World :=
  if taken then (.ok ⟨⟩, { world with storage := world.storage.insert key document })
  else (.error .unavailable, world)

variable (world : World) (requestId : String)

/-- `write_journal_index`, and `reapply_journal_index`, which is the same call. -/
def writeJournalIndex (taken : Bool) :
    Except PersistenceError Unit × World :=
  world.write (journalKey requestId)
    (.journalIndex requestId (world.ingest.journal.entries requestId)) taken

def writeTerminalSnapshot (taken : Bool) :
    Except PersistenceError Unit × World :=
  match world.ingest.store.get? requestId with
  | none => (.error .attributeError, world)
  | some record => world.write (terminalKey requestId) (.terminalSnapshot record) taken

/-- `persist_terminal`, with the writes that storage takes and the reading of the clock. -/
def persistTerminal (indexTaken snapshotTaken : Bool)
    (clock : Rat) : Except PersistenceError Unit × World :=
  if world.ingest.store.stateOf requestId ≠ .terminal then
    (.error (.refused ⟨"persistence.not_terminal:" ++ requestId⟩), world)
  else
    match world.writeJournalIndex requestId indexTaken with
    | (.error error, world) => (.error error, world)
    | (.ok _, world) =>
      match world.writeTerminalSnapshot requestId snapshotTaken with
      | (.error error, world) => (.error error, world)
      | (.ok _, world) =>
        match world.ingest.store.markPersisted requestId clock with
        | .error refusal => (.error (.refused refusal), world)
        | .ok store => (.ok ⟨⟩, { world with ingest.store := store })

/-- The document that `write_checkpoint` writes. -/
def checkpointOf : Except PersistenceError Checkpoint :=
  match world.ingest.store.get? requestId with
  | none => .error .attributeError
  | some record =>
    let entries := world.ingest.journal.entries requestId
    .ok
      { requestId := requestId
        seq := match entries.getLast? with
          | some entry => entry.seq
          | none => -1
        journalPrefix := entries
        record := record }

/-- `write_checkpoint`: the document, then the index of the latest one. -/
def writeCheckpoint (taken indexTaken : Bool) :
    Except PersistenceError Checkpoint × World :=
  match world.checkpointOf requestId with
  | .error error => (.error error, world)
  | .ok document =>
    match world.write (checkpointKey requestId document.seq) (.checkpoint document) taken with
    | (.error error, world) => (.error error, world)
    | (.ok _, world) =>
      match world.write (checkpointIndexKey requestId) (.checkpointIndex document.seq)
        indexTaken with
      | (.error error, world) => (.error error, world)
      | (.ok _, world) => (.ok document, world)

def maybeCheckpoint (checkpointN : Int)
    (taken indexTaken : Bool) : Except PersistenceError (Option Checkpoint) × World :=
  let count : Int := (world.ingest.journal.entries requestId).length
  if count = 0 ∨ checkpointN ≤ 0 ∨ count % checkpointN ≠ 0 then (.ok none, world)
  else
    match world.writeCheckpoint requestId taken indexTaken with
    | (.error error, world) => (.error error, world)
    | (.ok document, world) => (.ok (some document), world)

end World

/-- `read_checkpoint`: the latest checkpoint, or the one of a sequence number. -/
def readCheckpoint (storage : Storage) (requestId : String) (seq : Option Int) :
    Except PersistenceError Checkpoint := do
  let seq ← match seq with
    | some seq => pure seq
    | none =>
      match ← readDocument storage (checkpointIndexKey requestId) with
      | .checkpointIndex latestSeq => pure latestSeq
      | _ => throw (.keyError "latest_seq")
  match ← readDocument storage (checkpointKey requestId seq) with
  | .checkpoint document => return { document with record := document.record.throughJson }
  | _ => throw (.keyError "record")

/-- The journal that replays the entries of a prefix. -/
def journalOfPrefix (requestId : String) :
    List JournalEntry → Journal → Except PersistenceError Journal
  | [], journal => .ok journal
  | entry :: rest, journal =>
    match journal.append requestId entry.eventId entry.reducerVersion with
    | .error refusal => .error (.refused refusal)
    | .ok journal => journalOfPrefix requestId rest journal

def replayFromCheckpoint (floatSum : FloatSum) (storage : Storage) (requestId : String)
    (tailEventIds : List String) (eventSource : String → Option Event) (seq : Option Int) :
    Except PersistenceError (Store × Journal × Option RequestRecord) := do
  let document ← readCheckpoint storage requestId seq
  let store ← (Store.empty.seed requestId document.record).mapError .refused
  let journal ← journalOfPrefix requestId document.journalPrefix .empty
  (replayJournal floatSum tailEventIds eventSource store journal).mapError .replay

/-- A call of an entry point, with the answers of its surroundings. -/
inductive Operation
  | process (event : Event)
  | persistTerminal (requestId : String) (indexTaken snapshotTaken : Bool) (clock : Rat)
  | evictGate (requestId : String) (clock retentionWindow : Rat)
  | seed (requestId : String) (record : RequestRecord)
  | writeCheckpoint (requestId : String) (taken indexTaken : Bool)
  | maybeCheckpoint (requestId : String) (checkpointN : Int) (taken indexTaken : Bool)
  | reapplyJournalIndex (requestId : String) (taken : Bool)

namespace World

variable (floatSum : FloatSum) (world : World)

/-- The world after a call, whether it returns or raises. -/
def perform : Operation → World
  | .process event => { world with ingest := world.ingest.after floatSum event }
  | .persistTerminal requestId indexTaken snapshotTaken clock =>
    (world.persistTerminal requestId indexTaken snapshotTaken clock).2
  | .evictGate requestId clock retentionWindow =>
    { world with ingest.store := (world.ingest.store.evictGate requestId clock retentionWindow).1 }
  | .seed requestId record =>
    match world.ingest.store.seed requestId record with
    | .error _ => world
    | .ok store => { world with ingest.store := store }
  | .writeCheckpoint requestId taken indexTaken =>
    (world.writeCheckpoint requestId taken indexTaken).2
  | .maybeCheckpoint requestId checkpointN taken indexTaken =>
    (world.maybeCheckpoint requestId checkpointN taken indexTaken).2
  | .reapplyJournalIndex requestId taken => (world.writeJournalIndex requestId taken).2

/-- One call after another; a caller goes on after a call that raised. -/
def run (operations : List Operation) : World :=
  operations.foldl (perform floatSum) world

@[simp] theorem run_nil : world.run floatSum [] = world := rfl

@[simp] theorem run_cons (operation : Operation) (rest : List Operation) :
    world.run floatSum (operation :: rest) = (world.perform floatSum operation).run floatSum rest :=
  rfl

theorem run_append (first second : List Operation) :
    world.run floatSum (first ++ second) = (world.run floatSum first).run floatSum second :=
  List.foldl_append

end World

end AbsoluteZero.Rsm

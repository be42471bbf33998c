import AbsoluteZero.Rsm.Reducers
import Mathlib.Data.Finset.Basic

/-!
# Transition table, store and journal

The three tables that `ingest` works on: the transition table of materialization states and event
families, the store with its five maps, and the per-request journal of applied event ids. A method
of the store or of the journal returns the changed object or raises, and none changes anything
before it raises.
-/

namespace AbsoluteZero.Rsm

open Foundations

inductive Materialization
  | absent
  | active
  | terminal
  | persisted
  | retained
  | evicted
  deriving DecidableEq

def Materialization.terminalLike : Materialization → Bool
  | .terminal | .persisted | .retained => true
  | .absent | .active | .evicted => false

def terminalFamilies : List String :=
  ["request.completed", "request.failed", "request.rejected", "request.cancelled"]

def lateTolerantFamilies : List String := ["cost.recorded"]

def contributingFamilies : List String :=
  ["intent.classified", "plan.created", "plan.revised", "plan.validated", "plan.rejected",
    "task.scheduled", "task.started", "task.preempted", "task.completed", "task.failed",
    "exec.started", "exec.completed", "exec.timeout", "exec.failed", "context.assembled",
    "verify.requested", "verify.passed", "verify.failed", "storage.committed",
    "storage.rejected", "fault.recorded"]

def registeredFamilies : List String :=
  birthFamily :: (contributingFamilies ++ terminalFamilies ++ lateTolerantFamilies)

/-- The actions of a row. -/
inductive Action
  | create
  | apply
  | applyTerminal
  | fault
  | drop
  | unregistered
  deriving DecidableEq

structure Row where
  action : Action
  nextState : Materialization

def lookup (state : Materialization) (family : String) (duplicate malformed : Bool) : Row :=
  if duplicate ∧ (state = .active ∨ state.terminalLike) then ⟨.drop, state⟩
  else if family ∉ registeredFamilies then ⟨.unregistered, state⟩
  else
    match state with
    | .evicted => ⟨.fault, .evicted⟩
    | .absent =>
      if family ≠ birthFamily then ⟨.fault, .absent⟩
      else if malformed then ⟨.fault, .absent⟩ else ⟨.create, .active⟩
    | .active =>
      if family = birthFamily then ⟨.fault, .active⟩
      else if malformed then ⟨.fault, .active⟩
      else if family ∈ terminalFamilies then ⟨.applyTerminal, .terminal⟩
      else ⟨.apply, .active⟩
    | .terminal | .persisted | .retained =>
      if family = birthFamily then ⟨.fault, state⟩
      else if family ∈ lateTolerantFamilies then
        if malformed then ⟨.fault, state⟩ else ⟨.apply, state⟩
      else ⟨.fault, state⟩

/-! ### The store -/

/-- The `ValueError` that a method raises, with its text. -/
structure Refusal where
  text : String
  deriving DecidableEq

/-- `Store`. The clock that dates the persisted ids tells a rational number. -/
structure Store where
  active : OrderedDict String RequestRecord
  retained : OrderedDict String RequestRecord
  state : OrderedDict String Materialization
  evictedIds : Finset String
  persistedAt : OrderedDict String Rat

namespace Store

def empty : Store where
  active := .empty
  retained := .empty
  state := .empty
  evictedIds := ∅
  persistedAt := .empty

variable (store : Store) (requestId : String)

def stateOf : Materialization :=
  if requestId ∈ store.evictedIds then .evicted else (store.state.get? requestId).getD .absent

/-- `get`: the record, none for an absent or evicted id. -/
def get? (store : Store) (requestId : String) : Option RequestRecord :=
  (store.active.get? requestId).or (store.retained.get? requestId)

def create (identityFields : Block) : Except Refusal Store :=
  if store.stateOf requestId ≠ .absent then .error ⟨"store.duplicate_create:" ++ requestId⟩
  else .ok
    { store with
      active := store.active.insert requestId (birth requestId identityFields)
      state := store.state.insert requestId .active }

def apply (newRecord : RequestRecord) : Except Refusal Store :=
  if (store.active.get? requestId).isSome then
    .ok { store with active := store.active.insert requestId newRecord }
  else if (store.retained.get? requestId).isSome then
    .ok { store with retained := store.retained.insert requestId newRecord }
  else .error ⟨"store.not_found:" ++ requestId⟩

def applyTerminal (newRecord : RequestRecord) :
    Except Refusal Store :=
  if store.stateOf requestId ≠ .active then .error ⟨"store.not_active:" ++ requestId⟩
  else .ok
    { store with
      active := store.active.insert requestId newRecord
      state := store.state.insert requestId .terminal }

/-- `mark_persisted`, with the reading of the clock. -/
def markPersisted (clock : Rat) : Except Refusal Store :=
  if store.stateOf requestId ≠ .terminal then .error ⟨"store.not_terminal:" ++ requestId⟩
  else .ok
    { store with
      state := store.state.insert requestId .persisted
      persistedAt := store.persistedAt.insert requestId clock }

def markEvicted : Store where
  active := store.active.erase requestId
  retained := store.retained.erase requestId
  state := store.state.erase requestId
  persistedAt := store.persistedAt.erase requestId
  evictedIds := insert requestId store.evictedIds

def seed (record : RequestRecord) : Except Refusal Store :=
  if store.stateOf requestId ≠ .absent then .error ⟨"store.seed_conflict:" ++ requestId⟩
  else .ok
    { store with
      active := store.active.insert requestId record
      state := store.state.insert requestId .active }

def evictionAllowed (terminal persisted retentionElapsed : Bool) : Bool :=
  terminal && persisted && retentionElapsed

/-- `evict_gate`, with the reading of the clock: the store, and whether the id was evicted. -/
def evictGate (clock retentionWindow : Rat) : Store × Bool :=
  let terminal := (store.stateOf requestId).terminalLike
  let persistedAt := store.persistedAt.get? requestId
  let persisted := persistedAt.isSome
  let retentionElapsed := persistedAt.any fun moment ↦ decide (retentionWindow ≤ clock - moment)
  if evictionAllowed terminal persisted retentionElapsed then (store.markEvicted requestId, true)
  else (store, false)

end Store

structure JournalEntry where
  eventId : String
  seq : Nat
  reducerVersion : Nat

/-- `Journal`: the entries and the ids of each request. -/
structure Journal where
  entriesOf : OrderedDict String (List JournalEntry)
  idsOf : OrderedDict String (Finset String)

namespace Journal

def empty : Journal := ⟨.empty, .empty⟩

variable (journal : Journal) (requestId eventId : String)

def has : Bool :=
  eventId ∈ (journal.idsOf.get? requestId).getD ∅

def entries (journal : Journal) (requestId : String) : List JournalEntry :=
  (journal.entriesOf.get? requestId).getD []

def appended (reducerVersion : Nat) : Journal where
  entriesOf := journal.entriesOf.insert requestId
    (journal.entries requestId ++
      [⟨eventId, (journal.entries requestId).length, reducerVersion⟩])
  idsOf := journal.idsOf.insert requestId
    (insert eventId ((journal.idsOf.get? requestId).getD ∅))

def append (reducerVersion : Nat) :
    Except Refusal Journal :=
  if journal.has requestId eventId then .error ⟨"journal.duplicate_append:" ++ eventId⟩
  else .ok (journal.appended requestId eventId reducerVersion)

end Journal

end AbsoluteZero.Rsm

import AbsoluteZero.Storage.Isolation
import AbsoluteZero.Foundations.SeparatedText

/-!
# Journals over a handle

Entries and checkpoints are files under padded sequence numbers, each written once; the next number
is found by counting the keys below the journal's directory when it is opened. `Archive` is a store
with the journals opened on it by name; opening a name again replaces the journal.
-/

namespace AbsoluteZero.Storage

open Foundations

/-! ### Journals -/

/-- `Journal`: its name and `_next_seq`. The handle is passed to each call. -/
structure Journal where
  name : String
  nextSeq : Nat
  deriving DecidableEq

/-- What a call on a journal raises. -/
inductive JournalError
  | storage (error : StorageError)
  | badCheckpointSeq (text : String)
  | notANumber (text : String)
  deriving DecidableEq

abbrev JournalCall := Call Disk JournalError

/-- The two directories of a handle: `journal` and `checkpoint`. -/
inductive Shelf
  | journal
  | checkpoint
  deriving DecidableEq

def Shelf.text : Shelf → String
  | .journal => "journal"
  | .checkpoint => "checkpoint"

/-- `"%s/journal/%s" % (handle.name, name)`, and the same for checkpoints. -/
def shelfKey (handle : String) (shelf : Shelf) (name : String) : String :=
  handle ++ "/" ++ shelf.text ++ "/" ++ name

/-- `_ENTRY_KEY` and `_CHECK_KEY`. -/
def numberKey (handle : String) (shelf : Shelf) (name : String) (seq : Nat) : String :=
  shelfKey handle shelf name ++ "/" ++ SeparatedText.padded 12 seq

/-- `Journal(handle, name)`. -/
def Journal.open (host : Host) (handle name : String) : JournalCall Journal := do
  let listed ← (handleKeys host handle (some (shelfKey handle .journal name))).raising
    JournalError.storage
  pure ⟨name, listed.length⟩

namespace Journal

variable (host : Host) (handle : String) (journal : Journal)

/-- `handle.write_once` under a number of the journal. -/
def writeNumber (faults : Faults) (shelf : Shelf) (seq : Nat) (data : Bytes) :
    JournalCall Unit := do
  let _ ← (guarded host handle (numberKey handle shelf journal.name seq)
    (writeOnce host faults (numberKey handle shelf journal.name seq) data)).raising
      JournalError.storage

/-- `append`. The journal's next number is one more afterwards. -/
def append (faults : Faults) (data : Bytes) : JournalCall Nat := do
  journal.writeNumber host handle faults .journal journal.nextSeq data
  pure journal.nextSeq

/-- `handle.read`. -/
def readKey (key : String) : JournalCall Bytes :=
  (guarded host handle key (read host key)).raising JournalError.storage

/-- `entries`, from a number on. -/
def entries (first : Nat) : JournalCall (List Bytes) :=
  ((List.range journal.nextSeq).drop first).mapM fun seq ↦
    readKey host handle (numberKey handle .journal journal.name seq)

def checkpoint (faults : Faults) (seq : Nat) (data : Bytes) : JournalCall Unit :=
  if journal.nextSeq ≤ seq then
    throw (.badCheckpointSeq ("journal.bad_checkpoint_seq:" ++ toString seq))
  else journal.writeNumber host handle faults .checkpoint seq data

/-- `newest.rsplit("/", 1)[1]`. -/
def lastPart (key : String) : String := (components key).getLastD ""

def latestCheckpoint : JournalCall (Option (Nat × Bytes)) := do
  let listed ← (handleKeys host handle (some (shelfKey handle .checkpoint journal.name))).raising
    JournalError.storage
  match listed.getLast? with
  | none => pure none
  | some newest => do
    match SeparatedText.number? (lastPart newest) with
    | none => throw (.notANumber newest)
    | some seq => do
      let data ← readKey host handle newest
      pure (some (seq, data))

def reconstruct : JournalCall (Option Bytes × List Bytes) := do
  let latest ← journal.latestCheckpoint host handle
  match latest with
  | none => do
    let tail ← journal.entries host handle 0
    pure (none, tail)
  | some (seq, snap) => do
    let tail ← journal.entries host handle (seq + 1)
    pure (some snap, tail)

end Journal

/-! ### Runs -/

/-- What a call on a journal did that returned. -/
inductive JournalEvent
  | appended (name : String) (seq : Nat) (data : Bytes)
  | checkpointed (name : String) (seq : Nat) (data : Bytes)

/-- A store with the journals opened on it, and what their calls did. -/
structure Archive where
  disk : Disk
  journals : OrderedDict String Journal
  events : List JournalEvent

inductive JournalOperation
  | reopen (name : String)
  | append (faults : Faults) (name : String) (data : Bytes)
  | checkpoint (faults : Faults) (name : String) (seq : Nat) (data : Bytes)

def JournalOperation.name : JournalOperation → String
  | .reopen name | .append _ name _ | .checkpoint _ name _ _ => name

namespace Archive

/-- No journal is opened yet. -/
def start (disk : Disk) : Archive := ⟨disk, .empty, []⟩

def call {Result : Type} (archive : Archive) (body : JournalCall Result)
    (kept : Archive → Result → Archive) : Archive :=
  match body.outcome archive.disk with
  | .ok result => kept { archive with disk := body.after archive.disk } result
  | .error _ => { archive with disk := body.after archive.disk }

def perform (host : Host) (handle : String) (archive : Archive) : JournalOperation → Archive
  | .reopen name => archive.call (Journal.open host handle name) fun archive journal ↦
    { archive with journals := archive.journals.insert name journal }
  | .append faults name data =>
    match archive.journals.get? name with
    | none => archive
    | some journal => archive.call (journal.append host handle faults data) fun archive seq ↦
      { archive with
        journals := archive.journals.insert name { journal with nextSeq := seq + 1 }
        events := archive.events ++ [.appended name seq data] }
  | .checkpoint faults name seq data =>
    match archive.journals.get? name with
    | none => archive
    | some journal => archive.call (journal.checkpoint host handle faults seq data)
      fun archive _ ↦ { archive with events := archive.events ++ [.checkpointed name seq data] }

def run (host : Host) (handle : String) (archive : Archive)
    (operations : List JournalOperation) : Archive :=
  operations.foldl (perform host handle) archive

/-- What was appended to the journal of a name, with the numbers that were returned. -/
def appended (archive : Archive) (name : String) : List (Nat × Bytes) :=
  archive.events.filterMap fun event ↦
    match event with
    | .appended other seq data => if other = name then some (seq, data) else none
    | .checkpointed _ _ _ => none

def checkpoints (archive : Archive) (name : String) : List (Nat × Bytes) :=
  archive.events.filterMap fun event ↦
    match event with
    | .checkpointed other seq data => if other = name then some (seq, data) else none
    | .appended _ _ _ => none

/-- The law of the journal of a name: its entries are what was appended, under the numbers from zero
on; every checkpoint is there; and folding what `reconstruct` gives is folding all entries, when
every checkpoint is the fold of the entries up to its number. -/
structure Lawful (host : Host) (handle : String) (archive : Archive) (name : String)
    (journal : Journal) : Prop where
  numbers : (archive.appended name).map Prod.fst = List.range (archive.appended name).length
  entries : (journal.entries host handle 0).outcome archive.disk =
    .ok ((archive.appended name).map Prod.snd)
  checkpoints : ∀ seq data, (seq, data) ∈ archive.checkpoints name →
    (Journal.readKey host handle (numberKey handle .checkpoint name seq)).outcome archive.disk =
      .ok data
  reconstruct : ∀ (State : Type) (step : State → Bytes → State) (initial : State)
    (restore : Bytes → State),
    (∀ seq data, (seq, data) ∈ archive.checkpoints name → restore data =
      (((archive.appended name).map Prod.snd).take (seq + 1)).foldl step initial) →
    ∃ snap tail, (journal.reconstruct host handle).outcome archive.disk = .ok (snap, tail) ∧
      tail.foldl step (snap.elim initial restore) =
        ((archive.appended name).map Prod.snd).foldl step initial

end Archive

end AbsoluteZero.Storage

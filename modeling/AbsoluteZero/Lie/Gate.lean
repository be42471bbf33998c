import AbsoluteZero.Foundations.SeparatedText
import AbsoluteZero.Lie.Records

/-!
# The admission gate and the curation overlay

`Gate.admitRecord` answers a redelivered attestation from its index, checks the provenance and the
facets of a record, writes its bytes to storage and only then gives it a position. A second record
under one identity is taken for a redelivery too. `answers n` is what storage answers to its `n`-th
write.
-/

namespace AbsoluteZero.Lie

open Foundations

/-- What storage answers to a write; any other answer is none that its callers know. -/
inductive WriteOutcome
  | committed
  | rejected
  | unknown
  deriving DecidableEq

/-- A blob store: how it answers each write, the number of writes so far, and what it holds. -/
structure Storage where
  answers : Nat → WriteOutcome
  writes : Nat := 0
  blobs : OrderedDict String String := .empty

namespace Storage

def answer (storage : Storage) : WriteOutcome := storage.answers storage.writes

def write (storage : Storage) (key data : String) : Storage :=
  { storage with
    writes := storage.writes + 1
    blobs := if storage.answer = .committed then storage.blobs.insert key data else storage.blobs }

theorem get?_write (storage : Storage) (key data other : String) :
    (storage.write key data).blobs.get? other =
      if storage.answer = .committed ∧ key = other then some data else
        storage.blobs.get? other := by
  unfold write
  by_cases hanswer : storage.answer = .committed
  · simp [hanswer, OrderedDict.get?_insert]
  · simp [hanswer]

end Storage

/-! ### The ledger -/

/-- The entries of the ledger in the order of their positions, counted from one; no identity occurs
twice. -/
structure Ledger where
  entries : List Record
  unique : (entries.map Record.identity).Nodup

namespace Ledger

def empty : Ledger := ⟨[], List.nodup_nil⟩

variable (ledger : Ledger)

def currentPosition : Nat := ledger.entries.length

def byPosition (position : Nat) : Option Record :=
  if position = 0 then none else ledger.entries[position - 1]?

def Holds (identity : String) : Prop :=
  identity ∈ ledger.entries.map Record.identity

instance (ledger : Ledger) (identity : String) : Decidable (ledger.Holds identity) :=
  inferInstanceAs (Decidable (_ ∈ _))

/-- `by_identity(identity).position`. -/
def positionOf (identity : String) : Nat :=
  (ledger.entries.map Record.identity).idxOf identity + 1

/-- `"lie/ledger/" + identity`. -/
def key (identity : String) : String := "lie/ledger/" ++ identity

theorem nodup_append {entries : List Record} (hunique : (entries.map Record.identity).Nodup)
    {record : Record} (hnew : record.identity ∉ entries.map Record.identity) :
    ((entries ++ [record]).map Record.identity).Nodup := by
  rw [List.map_append, List.map_singleton, List.nodup_append]
  refine ⟨hunique, List.nodup_singleton _, fun earlier hearlier later hlater heq ↦ hnew ?_⟩
  rw [← List.mem_singleton.mp hlater, ← heq]
  exact hearlier

/-- How `append` ends: the ledger with a new entry, a duplicate identity, or what storage
answered. -/
inductive Appended
  | appended (ledger : Ledger)
  | duplicate
  | rejected
  | unknown

/-- `append`: the bytes are written before the record gets a position. -/
def append (storage : Storage) (record : Record) : Storage × Appended :=
  if hheld : record.identity ∈ ledger.entries.map Record.identity then (storage, .duplicate)
  else
    (storage.write (key record.identity) record.canonicalBytes,
      match storage.answer with
      | .committed => .appended ⟨ledger.entries ++ [record], nodup_append ledger.unique hheld⟩
      | .rejected => .rejected
      | .unknown => .unknown)

end Ledger

/-! ### The gate -/

structure FacetVocabulary where
  version : Int
  terms : List String

/-- What the gate reports about a refused record. -/
structure Rejection where
  identity : String
  attestationRef : String
  reason : String

structure Gate where
  ledger : Ledger
  vocabulary : FacetVocabulary
  admittedByAttestation : OrderedDict String Nat
  telemetry : List Rejection

/-- `AdmissionResult`, less the identity of the record. -/
inductive AdmissionResult
  | admitted (position : Nat)
  | rejected (reason : String)
  | deduped (position : Nat)
  deriving DecidableEq

namespace Gate

def new (vocabulary : FacetVocabulary) : Gate where
  ledger := .empty
  vocabulary := vocabulary
  admittedByAttestation := .empty
  telemetry := []

def checkProvenance (envelope : Envelope Attestation) : Option String :=
  if envelope.attestation.attestationRef = "" then some "missing_attestation_ref"
  else if envelope.attestation.traceClosed = false then some "trace_not_closed"
  else if envelope.origin.project = "" then some "origin_not_identifiable"
  else none

def checkVocabulary (vocabulary : FacetVocabulary) (envelope : Envelope Attestation) :
    Option String :=
  if vocabulary.version < envelope.attestation.vocabularyVersion then
    some "vocabulary_version_ahead_of_current"
  else
    (envelope.facets.find? fun facet ↦ facet ∉ vocabulary.terms).map ("unknown_facet:" ++ ·)

variable (gate : Gate) (record : Record)

/-- The reason for which a record is refused before anything is written. -/
def refusal? : Option String :=
  (checkProvenance record.envelope).or (checkVocabulary gate.vocabulary record.envelope)

/-- `_reject`. -/
def report (reason : String) : Gate :=
  { gate with
    telemetry := gate.telemetry ++ [⟨record.identity, record.attestationRef, reason⟩] }

/-- `_admitted_by_attestation[attestation_ref] = position`. -/
def index (position : Nat) : Gate :=
  { gate with
    admittedByAttestation := gate.admittedByAttestation.insert record.attestationRef position }

/-- What an attempt leaves behind, and its answer or exception. -/
structure Attempt where
  gate : Gate
  storage : Storage
  result : Except Refusal AdmissionResult

/-- `admit`: the answer for a record, and what it leaves behind. -/
def admitRecord (gate : Gate) (storage : Storage) (record : Record) : Attempt :=
  match gate.admittedByAttestation.get? record.attestationRef with
  | some position => ⟨gate, storage, .ok (.deduped position)⟩
  | none =>
    match gate.refusal? record with
    | some reason => ⟨gate.report record reason, storage, .ok (.rejected reason)⟩
    | none =>
      match gate.ledger.append storage record with
      | (storage, .duplicate) =>
        ⟨gate.index record (gate.ledger.positionOf record.identity), storage,
          .ok (.deduped (gate.ledger.positionOf record.identity))⟩
      | (storage, .rejected) =>
        ⟨gate.report record "storage_rejected", storage, .ok (.rejected "storage_rejected")⟩
      | (storage, .unknown) => ⟨gate, storage, .error .unknownStorageOutcome⟩
      | (storage, .appended ledger) =>
        ⟨({ gate with ledger := ledger }).index record ledger.currentPosition, storage,
          .ok (.admitted ledger.currentPosition)⟩

/-- `adopt_vocabulary`: only a newer version. -/
def adoptVocabulary (gate : Gate) (vocabulary : FacetVocabulary) : Except Refusal Gate :=
  if vocabulary.version ≤ gate.vocabulary.version then
    .error (.vocabularyNotAdvancing gate.vocabulary.version vocabulary.version)
  else .ok { gate with vocabulary := vocabulary }

end Gate

/-! ### The overlay -/

/-- The rulings in the order of their positions, counted from one. -/
structure Overlay where
  entries : List Annotation

namespace Overlay

def empty : Overlay := ⟨[]⟩

def currentPosition (overlay : Overlay) : Nat := overlay.entries.length

/-- `"lie/overlay/" + str(position)`. -/
def key (position : Nat) : String := "lie/overlay/" ++ toString position

/-- `append`: the bytes are written before the ruling gets its position. -/
def append (overlay : Overlay) (storage : Storage) (note : Annotation) :
    Storage × Except Refusal Overlay :=
  (storage.write (key (overlay.currentPosition + 1)) note.bytes,
    match storage.answer with
    | .committed => .ok ⟨overlay.entries ++ [note]⟩
    | .rejected => .error (.overlayAppendRejected (overlay.currentPosition + 1))
    | .unknown => .error .unknownStorageOutcome)

theorem key_inj {first second : Nat} (hkey : key first = key second) : first = second :=
  SeparatedText.toString_inj (String.append_right_inj _ |>.mp hkey)

end Overlay

namespace Ledger

theorem key_inj {first second : String} (hkey : key first = key second) : first = second :=
  String.append_right_inj _ |>.mp hkey

theorem key_ne_overlay (identity : String) (position : Nat) :
    key identity ≠ Overlay.key position := by
  intro hkey
  have hchars := congrArg (fun text : String ↦ text.toList[4]?) hkey
  simp [key, Overlay.key] at hchars

end Ledger

end AbsoluteZero.Lie

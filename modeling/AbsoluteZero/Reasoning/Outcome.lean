import AbsoluteZero.Foundations.Checked
import AbsoluteZero.Reasoning.Artifacts

/-!
# Sealed outcome records

`buildSealedOutcome` refuses a combination of recovery kind, failure class, cancellation origin and
output that the table of the record forbids, so a sealed record carries the proof that it is a
permitted one. A record with a value that `json.dumps` refuses can be sealed, but it has no content
hash.
-/

namespace AbsoluteZero.Reasoning

open Foundations

/-- `RECOVERY_KINDS`. -/
inductive RecoveryKind
  | returned
  | failed
  | expired
  | cancelled
  deriving DecidableEq

instance : ClosedVocabulary RecoveryKind where
  all := [.returned, .failed, .expired, .cancelled]
  text
    | .returned => "RETURNED"
    | .failed => "FAILED"
    | .expired => "EXPIRED"
    | .cancelled => "CANCELLED"

/-- `FAILURE_CLASSES`. -/
inductive FailureClass
  | f1
  | f2
  | f3
  | f4
  | f5
  | f6
  | f7
  | f8
  deriving DecidableEq

instance : ClosedVocabulary FailureClass where
  all := [.f1, .f2, .f3, .f4, .f5, .f6, .f7, .f8]
  text
    | .f1 => "F1"
    | .f2 => "F2"
    | .f3 => "F3"
    | .f4 => "F4"
    | .f5 => "F5"
    | .f6 => "F6"
    | .f7 => "F7"
    | .f8 => "F8"

/-- `CANCELLATION_ORIGINS`. -/
inductive CancellationOrigin
  | user
  | kernel
  | policy
  | workflow
  deriving DecidableEq

instance : ClosedVocabulary CancellationOrigin where
  all := [.user, .kernel, .policy, .workflow]
  text
    | .user => "user"
    | .kernel => "kernel"
    | .policy => "policy"
    | .workflow => "workflow"

/-- A value that may be handed to `json.dumps`: a JSON value, or an object that it refuses. -/
inductive Datum
  | json (value : Json)
  | foreign

def Datum.toJson : Datum → Except PyError Json
  | .json value => .ok value
  | .foreign => .error .typeError

/-- A mapping from the engine. -/
abbrev DatumDict := OrderedDict String Datum

def DatumDict.toJson (dict : DatumDict) : Except PyError Json := do
  let fields ← dict.items.mapM fun item ↦ (item.2.toJson).map fun value ↦ (item.1, value)
  .ok (.obj fields)

/-! ### Records -/

/-- The fields of a record, as they are handed to its builder. -/
structure OutcomeFields where
  requestContentHash : String
  resolutionContentHash : String
  preparationCoordinates : JsonDict
  attemptIndex : Int
  attemptHistoryRefs : List String
  recoveryKind : RecoveryKind
  failureClass : Option FailureClass
  timing : DatumDict
  budgetConsumed : Int
  budgetRemaining : Int
  cancellationOrigin : Option CancellationOrigin
  providerId : Option String
  output : Json
  metadata : DatumDict

/-- `ValueError` and `InconsistentOutcomeError`. -/
inductive OutcomeError
  | value (message : String)
  | inconsistent (message : String)
  deriving DecidableEq

/-- `str` of an absent word. -/
def wordOrNone {Word : Type} [ClosedVocabulary Word] : Option Word → String
  | none => "None"
  | some word => ClosedVocabulary.text word

namespace OutcomeFields

/-- The complaint about the combination of kind, class, origin and output. -/
def combination? (fields : OutcomeFields) : Option OutcomeError :=
  match fields.recoveryKind with
  | .returned =>
    if fields.failureClass.isSome then some (.inconsistent
      ("outcome.returned_with_failure_class:" ++ wordOrNone fields.failureClass))
    else if fields.cancellationOrigin.isSome then
      some (.inconsistent "outcome.returned_with_cancellation_origin")
    else none
  | .failed =>
    if fields.failureClass = none ∨ fields.failureClass = some .f7 then some (.inconsistent
      ("outcome.failed_without_valid_failure_class:" ++ wordOrNone fields.failureClass))
    else if fields.cancellationOrigin.isSome then
      some (.inconsistent "outcome.failed_with_cancellation_origin")
    else if fields.output ≠ .null then some (.inconsistent "outcome.failed_with_output")
    else none
  | .expired =>
    if fields.failureClass ≠ some .f7 then some (.inconsistent
      ("outcome.expired_without_f7:" ++ wordOrNone fields.failureClass))
    else if fields.cancellationOrigin.isSome then
      some (.inconsistent "outcome.expired_with_cancellation_origin")
    else if fields.output ≠ .null then some (.inconsistent "outcome.expired_with_output")
    else none
  | .cancelled =>
    if fields.failureClass.isSome then some (.inconsistent
      ("outcome.cancelled_with_failure_class:" ++ wordOrNone fields.failureClass))
    else if fields.cancellationOrigin = none then some (.inconsistent
      ("outcome.cancelled_without_origin:" ++ wordOrNone fields.cancellationOrigin))
    else if fields.output ≠ .null then some (.inconsistent "outcome.cancelled_with_output")
    else none

def complaint? (fields : OutcomeFields) : Option OutcomeError :=
  if fields.attemptIndex < 1 then
    some (.value ("outcome.bad_attempt_index:" ++ toString fields.attemptIndex))
  else if fields.budgetConsumed < 0 then
    some (.value ("outcome.bad_budget_consumed:" ++ toString fields.budgetConsumed))
  else if fields.budgetRemaining < 0 then
    some (.value ("outcome.bad_budget_remaining:" ++ toString fields.budgetRemaining))
  else fields.combination?

end OutcomeFields

/-- `SealedOutcomeRecord`: fields without a complaint. -/
structure SealedOutcomeRecord extends OutcomeFields where
  legal : toOutcomeFields.complaint? = none

def buildSealedOutcome (fields : OutcomeFields) : Except OutcomeError SealedOutcomeRecord :=
  match hlegal : fields.complaint? with
  | some complaint => .error complaint
  | none => .ok ⟨fields, hlegal⟩

theorem buildSealedOutcome_of_legal {fields : OutcomeFields} (hlegal : fields.complaint? = none) :
    buildSealedOutcome fields = .ok ⟨fields, hlegal⟩ := by
  unfold buildSealedOutcome
  split
  · next complaint hcomplaint =>
    rw [hlegal] at hcomplaint
    cases hcomplaint
  · rfl

namespace SealedOutcomeRecord

/-- `None` for an absent word. -/
def optionalWord {Word : Type} [ClosedVocabulary Word] : Option Word → Json
  | none => .null
  | some word => .str (ClosedVocabulary.text word)

variable (record : SealedOutcomeRecord)

/-- The value whose text is hashed, once timing and metadata are JSON values. -/
def toDictWith (timing metadata : Json) : Json :=
  .obj [("record_version", .int 1), ("request_content_hash", .str record.requestContentHash),
    ("resolution_content_hash", .str record.resolutionContentHash),
    ("preparation_coordinates", record.preparationCoordinates.toJson),
    ("attempt_index", .int record.attemptIndex),
    ("attempt_history_refs", .arr (record.attemptHistoryRefs.map .str)),
    ("recovery_kind", .str (ClosedVocabulary.text record.recoveryKind)),
    ("failure_class", optionalWord record.failureClass), ("timing", timing),
    ("budget_consumed", .int record.budgetConsumed),
    ("budget_remaining", .int record.budgetRemaining),
    ("cancellation_origin", optionalWord record.cancellationOrigin),
    ("provider_id", optionalText record.providerId), ("output", record.output),
    ("metadata", metadata)]

/-- `to_dict`, for a record that is written as text. -/
def toDict : Except PyError Json := do
  let timing ← record.timing.toJson
  let metadata ← record.metadata.toJson
  .ok (record.toDictWith timing metadata)

def canonical : Except PyError String :=
  record.toDict.map JsonText.dumps

def contentHash (platform : Platform) (record : SealedOutcomeRecord) : Except PyError String :=
  record.toDict.map platform.hash

end SealedOutcomeRecord

end AbsoluteZero.Reasoning

import AbsoluteZero.Foundations.Tape
import AbsoluteZero.Reasoning.ExecutionPolicy
import AbsoluteZero.Reasoning.Request

/-!
# The invocation governor

`runAttempts` takes the returns of the engine boundary one after another: it charges what each
reports to the budget, seals a record, and retries, stops, or seals one more record when the budget
is gone. The returns are a tape, and a governor that asks beyond its end is refused as the scripted
engine refuses it.
-/

namespace AbsoluteZero.Reasoning

open Foundations

/-- What leaves `run_attempts` as an exception. -/
inductive RunError
  | refusal (message : String)
  | unknownTimeoutInput (message : String)
  | scriptExhausted (message : String)
  | outcome (error : OutcomeError)
  | raised (error : PyError)
  | recursionError
  deriving DecidableEq

/-- An output: a JSON value or a text, bytes that decode to a text, bytes that do not, with their
`repr`, or an object that `json.dumps` refuses. -/
inductive Output
  | json (value : Json)
  | bytes (text : String)
  | undecodable (repr : String)
  | foreign
  deriving DecidableEq

/-- `_to_jsonable`. -/
def Output.toDatum : Output → Datum
  | .json value => .json value
  | .bytes text => .json (.str text)
  | .undecodable repr => .json (.str repr)
  | .foreign => .foreign

/-- A return of one of the closed four kinds. The consumed amount, the class and the origin are as
the engine wrote them; timing and metadata are mappings. -/
inductive BoundaryReturn
  | returned (consumed : Json) (output : Output) (timing : DatumDict)
  | failed (consumed failureClass : Json) (timing metadata : DatumDict)
  | expired (consumed : Json) (partialOutput : Output) (timing : DatumDict)
  | cancelled (consumed origin : Json) (partialOutput : Output) (timing : DatumDict)

def BoundaryReturn.consumed : BoundaryReturn → Json
  | .returned consumed _ _ => consumed
  | .failed consumed _ _ _ => consumed
  | .expired consumed _ _ => consumed
  | .cancelled consumed _ _ _ => consumed

variable (platform : Platform) (request : ReasoningRequest) (resolution : ProviderResolution)

/-- `_check_initiation`: the reasons against a crossing. -/
def checkInitiation : List String :=
  (if request.constraints.missing = [] then [] else
    ["missing_constraints:" ++ ",".intercalate request.constraints.missing]) ++
  (if resolution.preparationCoordinates.toJson.pyEq request.preparationCoordinates.toJson then []
    else ["coordinates_mismatch"]) ++
  (if resolution.resolvedForRequestHash = request.contentHash platform then [] else
    ["resolution_not_for_request"])

/-- What `_parse_f8` finds. -/
inductive Conformance
  | conforms (fields : List (String × Json))
  | fails (reason : String)

def Output.text : Output → Except String String
  | .json .null => .error "missing_output"
  | .json (.str text) => .ok text
  | .json _ => .error "not_bytes_or_str"
  | .bytes text => .ok text
  | .undecodable _ => .error "undecodable_bytes"
  | .foreign => .error "not_bytes_or_str"

/-- The fields that an output has to have; a request past its initiation names them. -/
def ReasoningRequest.requiredFields (request : ReasoningRequest) : List String :=
  (request.constraints.outputForm.map OutputForm.requiredFields).getD []

/-- Nothing catches the `RecursionError` of `json.loads`. -/
def parseF8 (platform : Platform) (request : ReasoningRequest) (output : Output) :
    Except RunError Conformance :=
  match output.text with
  | .error reason => .ok (.fails reason)
  | .ok text =>
    if platform.overflows text then .error .recursionError
    else
      match JsonText.loads platform.reader text with
      | none => .ok (.fails "unparseable")
      | some (.obj fields) =>
        let missing := request.requiredFields.filter fun field ↦
          (OrderedDict.find field fields).isNone
        if missing = [] then .ok (.conforms fields)
        else .ok (.fails ("missing_fields:" ++ ",".intercalate missing))
      | some _ => .ok (.fails "not_an_object")

/-- What `_apply_consumption` charges, whether that overdraws, and the total afterwards. -/
structure Charge where
  actual : Int
  overdraft : Bool
  total : Int

def applyConsumption (ceiling total : Int) (consumed : Json) : Except RunError Charge :=
  let bad : Except RunError Charge := .error (.refusal
    ("invocation.bad_consumed:" ++ consumed.repr))
  match consumed with
  | .int amount =>
    if amount < 0 then bad
    else if ceiling < total + amount then .ok ⟨max (ceiling - total) 0, true, ceiling⟩
    else .ok ⟨amount, false, total + amount⟩
  | _ => bad

/-- What a return is sealed as, and the class for which it may be retried. -/
structure Verdict where
  recoveryKind : RecoveryKind
  failureClass : Option FailureClass
  cancellationOrigin : Option CancellationOrigin
  timing : DatumDict
  output : Json
  metadata : DatumDict
  charge : Charge
  retryClass : Option FailureClass

/-- The signals pending at the crossing, and how the race with the return ended. -/
def race (signalIds : List String) (resolution : String) : Datum :=
  .json (.obj [("pending_signal_ids", .arr (signalIds.map .str)),
    ("resolution", .str resolution)])

def withRace (signalIds : List String) (resolution : String) (metadata : DatumDict) : DatumDict :=
  if signalIds = [] then metadata else metadata.insert "race" (race signalIds resolution)

def partialMetadata (output : Output) : DatumDict :=
  if output = .json .null then .empty else OrderedDict.empty.insert "partial_output" output.toDatum

/-- The record of a crossing that overdraws the budget, with the class that was reported. -/
def overdraftVerdict (charge : Charge) (reported : Option FailureClass) : Verdict where
  recoveryKind := .failed
  failureClass := some .f3
  cancellationOrigin := none
  timing := .empty
  output := .null
  metadata :=
    let reason : DatumDict := OrderedDict.empty.insert "reason" (.json (.str "boundary_overdraft"))
    match reported with
    | none => reason
    | some failureClass =>
      reason.insert "reported_class" (.json (.str (ClosedVocabulary.text failureClass)))
  charge := charge
  retryClass := none

/-- The failure class of a failed return, `F7` excepted. -/
def readReportedClass (failureClass : Json) : Except RunError FailureClass :=
  let bad : Except RunError FailureClass :=
    .error (.refusal ("invocation.bad_failure_class:" ++ failureClass.pyStr))
  match failureClass with
  | .str text =>
    match (ClosedVocabulary.read text : Option FailureClass) with
    | none => bad
    | some .f7 => bad
    | some failureClass => .ok failureClass
  | _ => bad

def readOrigin (origin : Json) : Except RunError CancellationOrigin :=
  let bad : Except RunError CancellationOrigin :=
    .error (.refusal ("invocation.bad_cancellation_origin:" ++ origin.pyStr))
  match origin with
  | .str text =>
    match (ClosedVocabulary.read text : Option CancellationOrigin) with
    | none => bad
    | some origin => .ok origin
  | _ => bad

def returnedVerdict (signalIds : List String) (charge : Charge) (output : Output)
    (timing : DatumDict) : Conformance → Verdict
  | .conforms fields => ⟨.returned, none, none, timing, .obj fields,
      withRace signalIds "returned_first" .empty, charge, none⟩
  | .fails reason => ⟨.failed, some .f8, none, timing, .null,
      withRace signalIds "returned_first" ((OrderedDict.empty.insert "conformance_reason"
        (.json (.str reason))).insert "nonconforming_output" output.toDatum), charge, some .f8⟩

def judge (platform : Platform) (request : ReasoningRequest) (signalIds : List String)
    (total : Int) : BoundaryReturn → Except RunError Verdict
  | .returned consumed output timing => do
    let charge ← applyConsumption request.budget.ceiling total consumed
    if charge.overdraft then .ok (overdraftVerdict charge none)
    else (parseF8 platform request output).map (returnedVerdict signalIds charge output timing)
  | .failed consumed failureClass timing metadata => do
    let failureClass ← readReportedClass failureClass
    let charge ← applyConsumption request.budget.ceiling total consumed
    .ok (if charge.overdraft then overdraftVerdict charge (some failureClass)
      else ⟨.failed, some failureClass, none, timing, .null, metadata, charge, some failureClass⟩)
  | .expired consumed partialOutput timing => do
    let charge ← applyConsumption request.budget.ceiling total consumed
    .ok (if charge.overdraft then overdraftVerdict charge none
      else ⟨.expired, some .f7, none, timing, .null, partialMetadata partialOutput, charge,
        some .f7⟩)
  | .cancelled consumed origin partialOutput timing => do
    let origin ← readOrigin origin
    let charge ← applyConsumption request.budget.ceiling total consumed
    .ok ⟨.cancelled, none, some origin, timing, .null,
      withRace signalIds "cancelled_first" (partialMetadata partialOutput), charge, none⟩

/-! ### The loop -/

/-- What `_retry_disposition` answers. -/
inductive Disposition
  | retry
  | exhaustedBudget
  | terminal

variable (policy : ExecutionPolicyView)

def retryDisposition (failureClass : FailureClass)
    (attemptIndex total ceiling : Int) : Disposition :=
  if failureClass ∈ policy.retryableClasses ∧ attemptIndex < policy.attemptCeiling then
    if total < ceiling then .retry else .exhaustedBudget
  else .terminal

/-- The variables of the loop: the records sealed so far and what they consumed; the next attempt
has the number behind theirs. -/
structure LoopState where
  records : List SealedOutcomeRecord
  total : Int

def LoopState.attemptIndex (state : LoopState) : Int := state.records.length + 1

/-- What a verdict is sealed with, behind the records sealed so far and their hashes. -/
def outcomeFields (records : List SealedOutcomeRecord) (refs : List String)
    (verdict : Verdict) : OutcomeFields where
  requestContentHash := request.contentHash platform
  resolutionContentHash := resolution.contentHash platform
  preparationCoordinates := request.preparationCoordinates
  attemptIndex := records.length + 1
  attemptHistoryRefs := refs
  recoveryKind := verdict.recoveryKind
  failureClass := verdict.failureClass
  timing := verdict.timing
  budgetConsumed := verdict.charge.actual
  budgetRemaining := request.budget.ceiling - verdict.charge.total
  cancellationOrigin := verdict.cancellationOrigin
  providerId := some resolution.providerId
  output := verdict.output
  metadata := verdict.metadata

/-- `_seal`. -/
def sealRecord (records : List SealedOutcomeRecord) (verdict : Verdict) :
    Except RunError SealedOutcomeRecord := do
  let refs ← (records.mapM (SealedOutcomeRecord.contentHash platform)).mapError .raised
  (buildSealedOutcome
    (outcomeFields platform request resolution records refs verdict)).mapError .outcome

/-- What `_seal_exhaustion` seals: nothing consumed, and nothing left. -/
def exhaustionVerdict (ceiling : Int) : Verdict where
  recoveryKind := .failed
  failureClass := some .f3
  cancellationOrigin := none
  timing := .empty
  output := .null
  metadata := OrderedDict.empty.insert "reason" (.json (.str "budget_exhausted_before_retry"))
  charge := ⟨0, false, ceiling⟩
  retryClass := none

def turn (signalIds : List String) (state : LoopState) (entry : BoundaryReturn) :
    Except RunError (Tape.Turn LoopState (List SealedOutcomeRecord)) := do
  let verdict ← judge platform request signalIds state.total entry
  let record ← sealRecord platform request resolution state.records verdict
  let records := state.records ++ [record]
  match verdict.retryClass with
  | none => .ok (.stop records)
  | some failureClass =>
    match retryDisposition policy failureClass state.attemptIndex verdict.charge.total
        request.budget.ceiling with
    | .terminal => .ok (.stop records)
    | .retry => .ok (.next ⟨records, verdict.charge.total⟩)
    | .exhaustedBudget => do
      let last ← sealRecord platform request resolution records
        (exhaustionVerdict request.budget.ceiling)
      .ok (.stop (records ++ [last]))

def scriptExhausted (state : LoopState) : RunError :=
  .scriptExhausted ("engine_boundary.script_exhausted:attempt=" ++ toString state.attemptIndex)

/-- The record of a request that does not cross the boundary. -/
def refusedInitiation (reasons : List String) :
    Except RunError (List SealedOutcomeRecord) := do
  let record ← sealRecord platform request resolution [] ⟨.failed, some .f6, none, .empty, .null,
    OrderedDict.empty.insert "initiation_refusal_reasons" (.json (.arr (reasons.map .str))),
    ⟨0, false, 0⟩, none⟩
  .ok [record]

/-- `run_attempts` over the returns of the boundary: those that were taken, and the records. The
timeout class is derived at every turn from the same three values. -/
def runAttempts (latencyConstraint : String)
    (signalIds : List String) (script : List BoundaryReturn) :
    Tape.Run BoundaryReturn RunError (List SealedOutcomeRecord) :=
  match checkInitiation platform request resolution with
  | reason :: reasons => ⟨[], refusedInitiation platform request resolution (reason :: reasons)⟩
  | [] =>
    match deriveTimeoutClass policy latencyConstraint request.requiredRung with
    | .error message => ⟨[], .error (.unknownTimeoutInput message)⟩
    | .ok _ => Tape.run (turn platform request resolution policy signalIds) scriptExhausted script
        ⟨[], 0⟩

end AbsoluteZero.Reasoning

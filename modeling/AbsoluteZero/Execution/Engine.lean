import AbsoluteZero.Communication.Bus
import AbsoluteZero.Storage.JournalBook
import AbsoluteZero.Foundations.Scalar

/-!
# The execution engine

`Engine` checks a spec, hands out an id, cancels a pending execution and runs one to its end, with a
record in the journal of its id and an event on the bus for every attempt and for the outcome. Which
appends and publishes raise, and what `subprocess.run` does at each attempt, is given to it.
-/

namespace AbsoluteZero.Execution

open Foundations Storage

inductive ExecutionState
  | pending
  | running
  | completed
  | failed
  | timeout
  | cancelled
  deriving DecidableEq

def ExecutionState.text : ExecutionState → String
  | .pending => "pending"
  | .running => "running"
  | .completed => "completed"
  | .failed => "failed"
  | .timeout => "timeout"
  | .cancelled => "cancelled"

def ExecutionState.terminal : ExecutionState → Bool
  | .completed | .failed | .timeout | .cancelled => true
  | .pending | .running => false

/-- What a call raises. -/
inductive EngineError
  | badSpec (text : String)
  | capsUnsupported (text : String)
  | illegalTransition (text : String)
  | unknownHandle
  | spawn (text : String)
  | storage
  | bus
  deriving DecidableEq

/-! ### Specs -/

/-- `isinstance(command, (list, tuple)) and command and all(isinstance(part, str) ...)`. -/
def isCommand : Json → Bool
  | .arr parts => !parts.isEmpty && parts.all fun part ↦
    match part with
    | .str _ => true
    | _ => false
  | _ => false

def isTimeout (value : Json) : Bool :=
  match value.numeric? with
  | some number => 0 < number
  | none => false

/-- An integer that is not negative. -/
def isRetries : Json → Bool
  | .int count => 0 ≤ count
  | _ => false

/-- `spec.get("max_retries", 0)`. -/
def retriesField (spec : Json) : Json := spec.getD "max_retries" (.int 0)

/-- The checks of `submit`. -/
def checkSpec (spec : Json) : Except EngineError Unit :=
  if spec.fields?.isNone then .error (.badSpec ("execution.spec_not_mapping:" ++ spec.repr))
  else if !isCommand (spec.item "command") then
    .error (.badSpec ("execution.bad_command:" ++ (spec.item "command").repr))
  else if !isTimeout (spec.item "timeout_seconds") then
    .error (.badSpec ("execution.bad_timeout:" ++ (spec.item "timeout_seconds").repr))
  else if !isRetries (retriesField spec) then
    .error (.badSpec ("execution.bad_max_retries:" ++ (retriesField spec).repr))
  else if (spec.item "resource_caps").truthy then
    .error (.capsUnsupported
      ("execution.caps_unenforceable:" ++ (spec.item "resource_caps").repr))
  else .ok ()

/-- A spec that `submit` accepts. -/
abbrev Spec := {spec : Json // checkSpec spec = .ok ()}

def Spec.maxRetries (spec : Spec) : Nat :=
  match retriesField spec.1 with
  | .int count => count.toNat
  | _ => 0

/-- What `subprocess.run` does: it returns, or it raises `TimeoutExpired`, `OSError` or something
else. -/
inductive Spawned
  | returned (exitCode : Int) (stdout stderr : Bytes)
  | timedOut (stdout stderr : Option Bytes)
  | osError (text : Bytes)
  | raised (text : String)

/-- An outcome: `state`, `exit_code`, and the outputs where there are any. -/
structure Outcome where
  state : ExecutionState
  exitCode : Option Int
  stdout : Option Bytes
  stderr : Option Bytes
  deriving DecidableEq

/-- `_subprocess_runner`, and what the loop of `run` makes of its outcome. -/
def judge : Spawned → Except EngineError Outcome
  | .returned exitCode stdout stderr =>
    .ok ⟨if exitCode = 0 then .completed else .failed, some exitCode, some stdout, some stderr⟩
  | .timedOut stdout stderr => .ok ⟨.timeout, none, some (stdout.getD []), some (stderr.getD [])⟩
  | .osError text => .ok ⟨.failed, some 127, some [], some text⟩
  | .raised text => .error (.spawn text)

/-- What a run meets: whether the append and the publish of an attempt raise, what the process does
at an attempt, and whether the append and the publish of the outcome raise. -/
structure Environment where
  recording : Nat → Bool
  publishing : Nat → Bool
  spawn : Nat → Spawned
  recordingOutcome : Bool
  publishingOutcome : Bool

/-! ### The engine -/

/-- `ExecutionHandle`, kept under its id. -/
structure ExecutionHandle where
  spec : Spec
  state : ExecutionState
  attempts : Nat
  result : Option Outcome

/-- `Engine`: the journals and the bus, if it has them, the handles, and `_next_id`. -/
structure Engine where
  storage : Option (JournalBook Json)
  bus : Option (List Json)
  handles : OrderedDict String ExecutionHandle
  nextId : Nat

abbrev EngineCall := Call Engine EngineError

/-- `Engine(storage, bus)`. -/
def Engine.new (storage : Option (JournalBook Json)) (bus : Option (List Json)) : Engine :=
  ⟨storage, bus, .empty, 1⟩

/-- `"x-%06d" % number`. -/
def executionId (number : Nat) : String := "x-" ++ SeparatedText.padded 6 number

/-- A document of the journal, as it is read back. -/
def recordDoc (id kind : String) (fields : List (String × Json)) : Json :=
  (Json.obj ([("execution_id", .str id), ("kind", .str kind)] ++ fields)).canonical

def record (fails : Bool) (id kind : String) (fields : List (String × Json)) : EngineCall Unit := do
  let engine ← get
  match engine.storage with
  | none => pure ()
  | some book =>
    if fails then throw .storage
    else set { engine with storage := some (book.append id (recordDoc id kind fields)) }

def Engine.records (engine : Engine) (id : String) : List Json :=
  match engine.storage with
  | none => []
  | some book => book.records id

def eventDoc (id name : String) (attempt : Nat) (request : Json) (fields : List (String × Json)) :
    Json :=
  .obj [("event_id", .str (id ++ ":" ++ toString attempt ++ ":" ++ name)),
    ("event_name", .str name), ("request_id", request), ("timestamp", .int 0),
    ("payload", .obj (("execution_id", .str id) :: fields))]

def emit (fails : Bool) (id name : String) (attempt : Nat) (request : Json)
    (fields : List (String × Json)) : EngineCall Unit := do
  let engine ← get
  match engine.bus with
  | none => pure ()
  | some events =>
    if fails then throw .bus
    else set { engine with bus := some (events ++ [eventDoc id name attempt request fields]) }

def Engine.events (engine : Engine) : List Json := engine.bus.getD []

def update (id : String) (handle : ExecutionHandle) : EngineCall Unit :=
  modify fun engine ↦ { engine with handles := engine.handles.insert id handle }

/-- `submit`, with the id of the handle. -/
def submit (spec : Json) : EngineCall String := do
  let engine ← get
  match hcheck : checkSpec spec with
  | .error error => throw error
  | .ok () => do
    set { engine with
      handles := engine.handles.insert (executionId engine.nextId)
        ⟨⟨spec, hcheck⟩, .pending, 0, none⟩
      nextId := engine.nextId + 1 }
    pure (executionId engine.nextId)

def cancel (fails : Bool) (id : String) : EngineCall Outcome := do
  let engine ← get
  match engine.handles.get? id with
  | none => throw .unknownHandle
  | some handle =>
    if handle.state ≠ .pending then
      throw (.illegalTransition ("execution.cancel_illegal:" ++ handle.state.text))
    else do
      let outcome : Outcome := ⟨.cancelled, none, none, none⟩
      update id { handle with state := .cancelled, result := some outcome }
      record fails id "terminal" [("outcome", .str ExecutionState.cancelled.text)]
      pure outcome

/-- One turn of the loop of `run`. -/
def runAttempt (environment : Environment) (id : String) (handle : ExecutionHandle)
    (attempt : Nat) : EngineCall Outcome := do
  update id { handle with attempts := attempt }
  record (environment.recording attempt) id "attempt" [("attempt", .int attempt)]
  emit (environment.publishing attempt) id "exec.started" attempt (handle.spec.1.item "request_id")
    [("attempt", .int attempt)]
  match judge (environment.spawn attempt) with
  | .error error => throw error
  | .ok outcome => pure outcome

/-- The loop of `run` from an attempt on, with the attempts that remain after it. The last attempt
comes with its outcome. -/
def runAttempts (environment : Environment) (id : String) (handle : ExecutionHandle) :
    (attempt remaining : Nat) → EngineCall (Nat × Outcome)
  | attempt, 0 => do
    let outcome ← runAttempt environment id handle attempt
    pure (attempt, outcome)
  | attempt, remaining + 1 => do
    let outcome ← runAttempt environment id handle attempt
    if outcome.state = .failed then runAttempts environment id handle (attempt + 1) remaining
    else pure (attempt, outcome)

/-- `_EVENT_BY_STATE`. -/
def terminalEvent (state : ExecutionState) : String := "exec." ++ state.text

def exitCodeJson : Option Int → Json
  | none => .null
  | some code => .int code

def outcomeFields (digest : Bytes → String) (outcome : Outcome) (attempts : Nat) :
    List (String × Json) :=
  [("outcome", .str outcome.state.text), ("exit_code", exitCodeJson outcome.exitCode),
    ("attempts", .int attempts), ("stdout_sha256", .str (digest (outcome.stdout.getD []))),
    ("stderr_sha256", .str (digest (outcome.stderr.getD [])))]

def ExecutionHandle.ended (handle : ExecutionHandle) (attempts : Nat) (outcome : Outcome) :
    ExecutionHandle :=
  { handle with state := outcome.state, attempts := attempts, result := some outcome }

/-- The part of `run` after the loop. -/
def conclude (digest : Bytes → String) (environment : Environment) (id : String)
    (handle : ExecutionHandle) (attempts : Nat) (outcome : Outcome) : EngineCall Outcome := do
  update id (handle.ended attempts outcome)
  record environment.recordingOutcome id "terminal" (outcomeFields digest outcome attempts)
  emit environment.publishingOutcome id (terminalEvent outcome.state) attempts
    (handle.spec.1.item "request_id")
    [("exit_code", exitCodeJson outcome.exitCode), ("attempts", .int attempts)]
  pure outcome

def run (digest : Bytes → String) (environment : Environment) (id : String) :
    EngineCall Outcome := do
  let engine ← get
  match engine.handles.get? id with
  | none => throw .unknownHandle
  | some handle =>
    if handle.state ≠ .pending then
      throw (.illegalTransition ("execution.run_illegal:" ++ handle.state.text))
    else do
      update id { handle with state := .running }
      let made ← runAttempts environment id { handle with state := .running } 1
        handle.spec.maxRetries
      conclude digest environment id { handle with state := .running } made.1 made.2

end AbsoluteZero.Execution

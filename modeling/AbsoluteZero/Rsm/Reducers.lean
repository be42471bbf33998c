import AbsoluteZero.Foundations.PyDict

/-!
# The reducer registry

The state of a request in nine blocks; a change makes a record with the next version. A block whose
keys come from payloads is a dict. `work` starts empty, so an empty dict stands for a missing one.

A reducer checks that the fields required by its schema are there; their values are not checked, so
it also raises what Python raises on them. How floats are added is a parameter (`FloatSum`).
-/

namespace AbsoluteZero.Rsm

open Foundations

abbrev Block := OrderedDict String Json

/-- The work block: task and execution entries, and the reference of the storage commit. -/
structure Work where
  tasks : PyDict Block
  execs : PyDict Block
  commitRef : Option Json
  deriving DecidableEq

structure FailureEntry where
  sourceEventId : String
  family : String
  ref : Json
  seq : Nat
  deriving DecidableEq

structure RequestRecord where
  requestId : String
  version : Nat
  identity : Block
  lifecycle : Block
  plan : Block
  work : Work
  context : PyDict Json
  verification : PyDict Block
  budget : Block
  failure : List FailureEntry
  journalMeta : Block
  deriving DecidableEq

/-- `evolve`: a new snapshot with some blocks replaced, under the next version. -/
def RequestRecord.evolve (record : RequestRecord) (update : RequestRecord → RequestRecord) :
    RequestRecord :=
  { update record with
    requestId := record.requestId
    version := record.version + 1 }

/-- `birth`: the version-0 snapshot. -/
def birth (requestId : String) (identityFields : Block) : RequestRecord where
  requestId := requestId
  version := 0
  identity := identityFields
  lifecycle := .empty
  plan := .empty
  work := { tasks := .empty, execs := .empty, commitRef := none }
  context := .empty
  verification := .empty
  budget := .empty
  failure := []
  journalMeta :=
    ((OrderedDict.empty.insert "seq" (.int 0)).insert "last_event_id" .null).insert
      "reducer_version" (.int 1)

/-- The envelope that `ingest` consumes. A missing id or family is the empty text, which is as falsy
as `None`. -/
structure Event where
  eventId : String
  family : String
  requestId : String
  schemaVersion : Json
  payload : Json
  deriving DecidableEq

/-- What a reducer raises: a fault with its reason, or an exception of Python. -/
inductive ReducerError
  | fault (reason : String)
  | raised (error : PyError)

/-- The sum of two numbers of which one is a float, or what adding them raises. -/
abbrev FloatSum := Json → Json → Except PyError Json

abbrev Reducer := RequestRecord → Event → Except ReducerError RequestRecord

/-- A Python operation inside a reducer. -/
def raising {Result : Type} : Except PyError Result → Except ReducerError Result
  | .ok result => .ok result
  | .error error => .error (.raised error)

variable (floatSum : FloatSum)

/-- `first + second`. -/
def plus (first second : Json) : Except PyError Json :=
  match first.int?, second.int? with
  | some a, some b => .ok (.int (a + b))
  | _, _ =>
    match first.number?, second.number? with
    | some _, some _ => floatSum first second
    | _, _ =>
      match first, second with
      | .str a, .str b => .ok (.str (a ++ b))
      | .arr a, .arr b => .ok (.arr (a ++ b))
      | _, _ => .error .typeError

def birthFamily : String := "request.received"

def schemaMismatch : String := "reducer.schema_mismatch"

def malformed : String := "reducer.malformed"

/-- `SCHEMAS`: the required fields of each family at version 1, the only version there is. -/
def schemas : List (String × List String) :=
  [("request.received", ["declared_type", "origin"]),
    ("intent.classified", ["classification_ref"]),
    ("plan.created", ["plan_id", "revision"]),
    ("plan.revised", ["plan_id", "revision"]),
    ("plan.validated", ["verdict_ref"]),
    ("plan.rejected", ["verdict_ref", "reason"]),
    ("task.scheduled", ["task_id", "budget_granted"]),
    ("task.started", ["task_id"]),
    ("task.preempted", ["task_id"]),
    ("task.completed", ["task_id"]),
    ("task.failed", ["task_id", "reason"]),
    ("exec.started", ["exec_id", "task_id"]),
    ("exec.completed", ["exec_id", "outcome_ref"]),
    ("exec.timeout", ["exec_id"]),
    ("exec.failed", ["exec_id", "reason"]),
    ("context.assembled", ["step", "context_package_id"]),
    ("verify.requested", ["gate"]),
    ("verify.passed", ["gate", "verdict_ref"]),
    ("verify.failed", ["gate", "verdict_ref"]),
    ("storage.committed", ["commit_ref"]),
    ("storage.rejected", ["reason"]),
    ("cost.recorded", ["amount"]),
    ("fault.recorded", ["reason"]),
    ("request.completed", []),
    ("request.failed", ["reason"]),
    ("request.rejected", ["reason"]),
    ("request.cancelled", [])]

/-- `SCHEMAS.get(family, {}).get(version)`: the version is hashed, and 1 is found under every key
that equals it. -/
def schemaOf (family : String) (version : Json) : Except PyError (Option (List String)) := do
  let key ← version.dictKey
  return if key = .number 1 then OrderedDict.find family schemas else none

/-- `_validate`: the payload, if the event fits the schema of the family. -/
def validate (family : String) (event : Event) : Except ReducerError Json := do
  match ← raising (schemaOf family event.schemaVersion) with
  | none =>
    throw (.fault (schemaMismatch ++ ":" ++ family ++ ":" ++ event.schemaVersion.pyStr))
  | some schema =>
    match event.payload with
    | .obj fields =>
      let missing := schema.filter fun field ↦ OrderedDict.find field fields = none
      if missing ≠ [] then
        throw (.fault (malformed ++ ":" ++ family ++ ":" ++ ",".intercalate missing))
      else
        return event.payload
    | _ => throw (.fault (malformed ++ ":" ++ family ++ ":no_payload"))

/-- `_failure_entry`, appended to the failure block. -/
def failed (family : String) (event : Event) (ref : Json) (record : RequestRecord) :
    List FailureEntry :=
  record.failure ++
    [{ sourceEventId := event.eventId, family := family, ref := ref
       seq := record.failure.length }]

/-- `entry = dict(dict.get(key, {})); entry.update(fields); dict[key] = entry`. -/
def updateEntry (dict : PyDict Block) (object : Json) (fields : List (String × Json)) :
    Except ReducerError (PyDict Block) := do
  let key ← raising object.dictKey
  let entry := (dict.value? key).getD .empty
  return dict.write key object (fields.foldl (fun entry field ↦ entry.insert field.1 field.2) entry)

def taskState (work : Work) (taskId : Json) (state : String) : Except ReducerError Work := do
  let tasks ← updateEntry work.tasks taskId [("state", .str state)]
  return { work with tasks := tasks }

def execState (work : Work) (execId : Json) (fields : List (String × Json)) :
    Except ReducerError Work := do
  let execs ← updateEntry work.execs execId fields
  return { work with execs := execs }

/-- `budget[meter] = budget.get(meter, 0) + amount`. -/
def charge (budget : Block) (meter : String) (amount : Json) :
    Except ReducerError Block := do
  let total ← raising (plus floatSum ((budget.get? meter).getD (.int 0)) amount)
  return budget.insert meter total

/-- `birth_reducer`: the identity fields of a new record. -/
def birthReducer (event : Event) : Except ReducerError Block := do
  let payload ← validate birthFamily event
  return (OrderedDict.empty.insert "declared_type" (payload.item "declared_type")).insert "origin"
    (payload.item "origin")

def reduceIntentClassified : Reducer := fun record event ↦ do
  let payload ← validate "intent.classified" event
  let plan := record.plan.insert "classification_ref" (payload.item "classification_ref")
  return record.evolve fun record ↦ { record with plan := plan }

def reducePlanWritten (family : String) : Reducer := fun record event ↦ do
  let payload ← validate family event
  let plan := (record.plan.insert "plan_id" (payload.item "plan_id")).insert "revision"
    (payload.item "revision")
  return record.evolve fun record ↦ { record with plan := plan }

def reducePlanCreated : Reducer := reducePlanWritten "plan.created"

def reducePlanRevised : Reducer := reducePlanWritten "plan.revised"

def reducePlanValidated : Reducer := fun record event ↦ do
  let payload ← validate "plan.validated" event
  let plan := (record.plan.insert "status" (.str "validated")).insert "verdict_ref"
    (payload.item "verdict_ref")
  return record.evolve fun record ↦ { record with plan := plan }

def reducePlanRejected : Reducer := fun record event ↦ do
  let payload ← validate "plan.rejected" event
  let plan := (record.plan.insert "status" (.str "rejected")).insert "verdict_ref"
    (payload.item "verdict_ref")
  let failure := failed "plan.rejected" event .null record
  return record.evolve fun record ↦ { record with plan := plan, failure := failure }

/-! ### Work block and budget -/

def reduceTaskScheduled : Reducer := fun record event ↦ do
  let payload ← validate "task.scheduled" event
  let work ← taskState record.work (payload.item "task_id") "scheduled"
  let budget ← charge floatSum record.budget "granted" (payload.item "budget_granted")
  return record.evolve fun record ↦ { record with work := work, budget := budget }

def reduceTaskMoved (family state : String) : Reducer := fun record event ↦ do
  let payload ← validate family event
  let work ← taskState record.work (payload.item "task_id") state
  return record.evolve fun record ↦ { record with work := work }

def reduceTaskStarted : Reducer := reduceTaskMoved "task.started" "started"

def reduceTaskPreempted : Reducer := reduceTaskMoved "task.preempted" "preempted"

def reduceTaskCompleted : Reducer := reduceTaskMoved "task.completed" "completed"

def reduceTaskFailed : Reducer := fun record event ↦ do
  let payload ← validate "task.failed" event
  let work ← taskState record.work (payload.item "task_id") "failed"
  let failure := failed "task.failed" event (payload.item "task_id") record
  return record.evolve fun record ↦ { record with work := work, failure := failure }

def reduceExecStarted : Reducer := fun record event ↦ do
  let payload ← validate "exec.started" event
  let work ← execState record.work (payload.item "exec_id")
    [("state", .str "started"), ("task_id", payload.item "task_id")]
  return record.evolve fun record ↦ { record with work := work }

def reduceExecCompleted : Reducer := fun record event ↦ do
  let payload ← validate "exec.completed" event
  let work ← execState record.work (payload.item "exec_id")
    [("state", .str "completed"), ("outcome_ref", payload.item "outcome_ref")]
  return record.evolve fun record ↦ { record with work := work }

def reduceExecFailing (family state : String) : Reducer := fun record event ↦ do
  let payload ← validate family event
  let work ← execState record.work (payload.item "exec_id") [("state", .str state)]
  let failure := failed family event (payload.item "exec_id") record
  return record.evolve fun record ↦ { record with work := work, failure := failure }

def reduceExecTimeout : Reducer := reduceExecFailing "exec.timeout" "timeout"

def reduceExecFailed : Reducer := reduceExecFailing "exec.failed" "failed"

def reduceContextAssembled : Reducer := fun record event ↦ do
  let payload ← validate "context.assembled" event
  let key ← raising (payload.item "step").dictKey
  let context := record.context.write key (payload.item "step") (payload.item "context_package_id")
  return record.evolve fun record ↦ { record with context := context }

/-! ### Verification block -/

/-- `{"state": state, "verdict_ref": payload["verdict_ref"]}`. -/
def verdictEntry (state : String) (payload : Json) : Block :=
  (OrderedDict.empty.insert "state" (.str state)).insert "verdict_ref" (payload.item "verdict_ref")

def reduceVerifyRequested : Reducer := fun record event ↦ do
  let payload ← validate "verify.requested" event
  let key ← raising (payload.item "gate").dictKey
  let verification := record.verification.write key (payload.item "gate")
    (OrderedDict.empty.insert "state" (.str "requested"))
  return record.evolve fun record ↦ { record with verification := verification }

def reduceVerifyPassed : Reducer := fun record event ↦ do
  let payload ← validate "verify.passed" event
  let key ← raising (payload.item "gate").dictKey
  let verification := record.verification.write key (payload.item "gate")
    (verdictEntry "passed" payload)
  return record.evolve fun record ↦ { record with verification := verification }

def reduceVerifyFailed : Reducer := fun record event ↦ do
  let payload ← validate "verify.failed" event
  let key ← raising (payload.item "gate").dictKey
  let verification := record.verification.write key (payload.item "gate")
    (verdictEntry "failed" payload)
  let failure := failed "verify.failed" event (payload.item "gate") record
  return record.evolve fun record ↦ { record with verification := verification, failure := failure }

def reduceStorageCommitted : Reducer := fun record event ↦ do
  let payload ← validate "storage.committed" event
  let work := { record.work with commitRef := some (payload.item "commit_ref") }
  return record.evolve fun record ↦ { record with work := work }

def reduceStorageRejected : Reducer := fun record event ↦ do
  let _ ← validate "storage.rejected" event
  let work := { record.work with commitRef := some .null }
  let failure := failed "storage.rejected" event .null record
  return record.evolve fun record ↦ { record with work := work, failure := failure }

def reduceCostRecorded : Reducer := fun record event ↦ do
  let payload ← validate "cost.recorded" event
  let budget ← charge floatSum record.budget "consumed" (payload.item "amount")
  return record.evolve fun record ↦ { record with budget := budget }

def reduceFaultRecorded : Reducer := fun record event ↦ do
  let payload ← validate "fault.recorded" event
  let failure := failed "fault.recorded" event (payload.item "reason") record
  return record.evolve fun record ↦ { record with failure := failure }

/-- The lifecycle of an outcome without a reason. -/
def reduceRequestEnded (family state : String) : Reducer := fun record event ↦ do
  let _ ← validate family event
  return record.evolve fun record ↦
    { record with lifecycle := OrderedDict.empty.insert "state" (.str state) }

def reduceRequestCompleted : Reducer := reduceRequestEnded "request.completed" "completed"

def reduceRequestCancelled : Reducer := reduceRequestEnded "request.cancelled" "cancelled"

/-- `{"state": state, "reason": payload["reason"]}`. -/
def reasonedLifecycle (state : String) (payload : Json) : Block :=
  (OrderedDict.empty.insert "state" (.str state)).insert "reason" (payload.item "reason")

def reduceRequestRejected : Reducer := fun record event ↦ do
  let payload ← validate "request.rejected" event
  return record.evolve fun record ↦
    { record with lifecycle := reasonedLifecycle "rejected" payload }

def reduceRequestFailed : Reducer := fun record event ↦ do
  let payload ← validate "request.failed" event
  let failure := failed "request.failed" event .null record
  return record.evolve fun record ↦
    { record with lifecycle := reasonedLifecycle "failed" payload, failure := failure }

def registry : List (String × Reducer) :=
  [("intent.classified", reduceIntentClassified),
    ("plan.created", reducePlanCreated),
    ("plan.revised", reducePlanRevised),
    ("plan.validated", reducePlanValidated),
    ("plan.rejected", reducePlanRejected),
    ("task.scheduled", reduceTaskScheduled floatSum),
    ("task.started", reduceTaskStarted),
    ("task.preempted", reduceTaskPreempted),
    ("task.completed", reduceTaskCompleted),
    ("task.failed", reduceTaskFailed),
    ("exec.started", reduceExecStarted),
    ("exec.completed", reduceExecCompleted),
    ("exec.timeout", reduceExecTimeout),
    ("exec.failed", reduceExecFailed),
    ("context.assembled", reduceContextAssembled),
    ("verify.requested", reduceVerifyRequested),
    ("verify.passed", reduceVerifyPassed),
    ("verify.failed", reduceVerifyFailed),
    ("storage.committed", reduceStorageCommitted),
    ("storage.rejected", reduceStorageRejected),
    ("cost.recorded", reduceCostRecorded floatSum),
    ("fault.recorded", reduceFaultRecorded),
    ("request.completed", reduceRequestCompleted),
    ("request.failed", reduceRequestFailed),
    ("request.rejected", reduceRequestRejected),
    ("request.cancelled", reduceRequestCancelled)]

end AbsoluteZero.Rsm

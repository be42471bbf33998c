import AbsoluteZero.Foundations.Call
import AbsoluteZero.Scheduler.Artifact
import Mathlib.Data.Finset.Basic
import Mathlib.Data.List.Sort

/-!
# The workflow dispatcher

A call of `WorkflowRun` mutates the run, appends one journal record for each change when a storage
is attached and the run is not replaying, and may raise half way. `replay` rebuilds a run from a
journal, and `World.restart` resumes with it.

The bus is left out: what the run emits it never reads. The answers of the binder and the engine are
an argument of the call.
-/

namespace AbsoluteZero.Scheduler

open Foundations

/-! ### State -/

inductive UnitState
  | pending
  | executing
  | succeeded
  | failed
  | notExecuted
  deriving DecidableEq

def UnitState.terminal : UnitState → Bool
  | .succeeded | .failed | .notExecuted => true
  | .pending | .executing => false

def UnitState.text : UnitState → String
  | .pending => "pending"
  | .executing => "executing"
  | .succeeded => "succeeded"
  | .failed => "failed"
  | .notExecuted => "not-executed"

/-- The status of a workflow once it is activated; `stalled` prints as "failed". -/
inductive Status
  | active
  | completed
  | stalled
  | cancelled
  deriving DecidableEq

/-- `str(status)`. -/
def statusText : Option Status → String
  | none => "None"
  | some .active => "active"
  | some .completed => "completed"
  | some .stalled => "failed"
  | some .cancelled => "cancelled"

/-- What a run has done so far: the fields that its journal is about. -/
structure Progress where
  status : Option Status
  unitState : OrderedDict String UnitState
  execOk : Finset String
  selected : OrderedDict String String

inductive Record
  | activated
  | cancelled
  | selected (group unit : String)
  | dispatched (unit : String)
  | execResult (unit : String) (ok : Bool)
  | verdict (unit : String) (passed : Bool)
  | terminal (unit : String) (outcome : UnitState)
  | workflowTerminal (status : Status)
  deriving DecidableEq

/-- A `WorkflowRun`: its progress, the next sequence number of its journal once one is open, and
what is attached to it. -/
structure WorkflowRun where
  workflow : Workflow
  progress : Progress
  nextSeq : Option Nat
  replaying : Bool
  storage : Bool
  collaborators : Bool

/-- A run together with the journal stored under the id of its workflow. -/
structure World where
  run : WorkflowRun
  journal : List Record

inductive CallError
  | refusal (text : String)
  | keyError (key : String)
  | indexError
  | keyExists
  | collaborator
  deriving DecidableEq

abbrev RunCall := Call World CallError

variable (workflow : Workflow)

def Progress.initial : Progress where
  status := none
  unitState := workflow.units.mapValues fun _ ↦ .pending
  execOk := ∅
  selected := .empty

/-- `WorkflowRun(workflow, storage, binder, engine)`. -/
def WorkflowRun.new (storage collaborators : Bool) : WorkflowRun where
  workflow := workflow
  progress := .initial workflow
  nextSeq := none
  replaying := false
  storage := storage
  collaborators := collaborators

/-- `_record`: nothing while replaying or without a storage; otherwise the record is appended at
the next sequence number of the journal, which is opened at the first record. -/
def record (entry : Record) : RunCall Unit := do
  let world ← get
  if world.run.replaying ∨ world.run.storage = false then
    pure ()
  else
    let seq := world.run.nextSeq.getD world.journal.length
    if seq < world.journal.length then
      throw .keyExists
    else
      let run := { world.run with nextSeq := some (seq + 1) }
      set (World.mk run (world.journal ++ [entry]))

def change (next : Progress → Progress) : RunCall Unit :=
  modify fun world ↦ { world with run.progress := next world.run.progress }

/-- `_branch_allows`: the unit is in no group, or selected in its group. -/
def WorkflowRun.branchAllows (run : WorkflowRun) (unit : String) : Bool :=
  match (run.workflow.units.get? unit).bind WorkflowUnit.groupId with
  | none => true
  | some group => run.progress.selected.get? group = some unit

/-- `ready`: in an active workflow, the pending units whose branch is selected and whose
predecessors have all succeeded, in canonical order. -/
def WorkflowRun.ready (run : WorkflowRun) : List String :=
  if run.progress.status = some .active then
    run.workflow.canonicalOrder.filter fun unit ↦
      run.progress.unitState.get? unit = some .pending ∧ run.branchAllows unit ∧
        ∀ predecessor ∈ run.workflow.predecessors unit,
          run.progress.unitState.get? predecessor = some .succeeded
  else []

/-- The status that `_settle` puts an active workflow in, if any: stalled once a unit of a blocking
band failed, completed once every unit is terminal. -/
def WorkflowRun.settled? (run : WorkflowRun) : Option Status :=
  if run.workflow.units.items.any fun item ↦
      item.2.priorityBand.blocking ∧ run.progress.unitState.get? item.1 = some .failed then
    some .stalled
  else if run.workflow.units.items.all fun item ↦
      (run.progress.unitState.get? item.1).any UnitState.terminal then
    some .completed
  else none

/-! ### Calls -/

/-- `self.unit_state[uid]`. -/
def stateOf (unit : String) : RunCall UnitState := do
  let world ← get
  match world.run.progress.unitState.get? unit with
  | some state => pure state
  | none => throw (.keyError unit)

def settle : RunCall Unit := do
  let world ← get
  if world.run.progress.status = some .active then
    match world.run.settled? with
    | some status => do
      change fun progress ↦ { progress with status := some status }
      record (.workflowTerminal status)
    | none => pure ()
  else pure ()

/-- `_terminal`: one terminal outcome for each unit. -/
def terminal (unit : String) (outcome : UnitState) : RunCall Unit := do
  let state ← stateOf unit
  if state.terminal then
    throw (.refusal ("ws.double_terminal:" ++ unit))
  else do
    change fun progress ↦ { progress with unitState := progress.unitState.insert unit outcome }
    record (.terminal unit outcome)
    settle

/-- `select_branch`: a branch is selected once, and the other members are not executed. -/
def selectBranch (group unit : String) : RunCall Unit := do
  let world ← get
  match world.run.workflow.groups.get? group with
  | none => throw (.refusal ("ws.bad_selection:" ++ group ++ ":" ++ unit))
  | some members =>
    if unit ∉ members then
      throw (.refusal ("ws.bad_selection:" ++ group ++ ":" ++ unit))
    else if (world.run.progress.selected.get? group).isSome then
      throw (.refusal ("ws.reselection:" ++ group))
    else do
      change fun progress ↦ { progress with selected := progress.selected.insert group unit }
      record (.selected group unit)
      (members.filter fun member ↦ member ≠ unit).forM fun member ↦ terminal member .notExecuted

/-- `activate`: the workflow becomes active, and every group gets its best ranked member. -/
def activate : RunCall Unit := do
  let world ← get
  if world.run.progress.status ≠ none then
    throw (.refusal "ws.activate_twice")
  else do
    change fun progress ↦ { progress with status := some .active }
    record .activated
    (world.run.workflow.groups.keys.insertionSort (· ≤ ·)).forM fun group ↦ do
      match (world.run.workflow.groups.get? group).bind List.head? with
      | some best => selectBranch group best
      | none => throw .indexError

def cancel : RunCall Unit := do
  let world ← get
  if world.run.progress.status ≠ some .active then
    throw (.refusal ("ws.cancel_illegal:" ++ statusText world.run.progress.status))
  else do
    change fun progress ↦ { progress with status := some .cancelled }
    record .cancelled

/-- `on_exec_result`: success of the execution is necessary, not sufficient. -/
def onExecResult (unit : String) (ok : Bool) : RunCall Unit := do
  let state ← stateOf unit
  if state ≠ .executing then
    throw (.refusal ("ws.exec_result_illegal:" ++ state.text))
  else do
    record (.execResult unit ok)
    if ok then
      change fun progress ↦ { progress with execOk := insert unit progress.execOk }
    else
      terminal unit .failed

def onVerdict (unit : String) (passed : Bool) : RunCall Unit := do
  let world ← get
  if unit ∉ world.run.progress.execOk then
    throw (.refusal ("ws.verdict_without_execution:" ++ unit))
  else do
    change fun progress ↦ { progress with execOk := progress.execOk.erase unit }
    record (.verdict unit passed)
    terminal unit (if passed then .succeeded else .failed)

/-- What the binder and the engine do with a dispatched unit: one of them raises, or the execution
ends, completed or not. -/
inductive EngineAnswer
  | raised
  | finished (completed : Bool)
  deriving DecidableEq

/-- `dispatch_next`: the first ready unit in canonical order is released to the engine. -/
def dispatchNext (answer : EngineAnswer) : RunCall Unit := do
  let world ← get
  match world.run.ready with
  | [] => pure ()
  | unit :: _ =>
    if world.run.collaborators = false then
      throw (.refusal "ws.no_binder_or_engine")
    else do
      change fun progress ↦ { progress with unitState := progress.unitState.insert unit .executing }
      record (.dispatched unit)
      match answer with
      | .raised => throw .collaborator
      | .finished completed => onExecResult unit completed

/-- A public call of the run, with its arguments. -/
inductive Operation
  | activate
  | cancel
  | selectBranch (group unit : String)
  | dispatchNext (answer : EngineAnswer)
  | onExecResult (unit : String) (ok : Bool)
  | onVerdict (unit : String) (passed : Bool)
  deriving DecidableEq

def Operation.call : Operation → RunCall Unit
  | .activate => Scheduler.activate
  | .cancel => Scheduler.cancel
  | .selectBranch group unit => Scheduler.selectBranch group unit
  | .dispatchNext answer => Scheduler.dispatchNext answer
  | .onExecResult unit ok => Scheduler.onExecResult unit ok
  | .onVerdict unit passed => Scheduler.onVerdict unit passed

/-- Call the operations one after another; a caller goes on after an operation that raised. -/
def World.perform (world : World) (operations : List Operation) : World :=
  operations.foldl (fun world operation ↦ operation.call.after world) world

def World.fresh (collaborators : Bool) : World where
  run := .new workflow true collaborators
  journal := []

/-- One turn of the loop of `replay`. -/
def Progress.apply (progress : Progress) : Record → Progress
  | .activated => { progress with status := some .active }
  | .cancelled => { progress with status := some .cancelled }
  | .selected group unit => { progress with selected := progress.selected.insert group unit }
  | .dispatched unit => { progress with unitState := progress.unitState.insert unit .executing }
  | .execResult unit true => { progress with execOk := insert unit progress.execOk }
  | .execResult _ false => progress
  | .verdict unit _ => { progress with execOk := progress.execOk.erase unit }
  | .terminal unit outcome =>
    { progress with unitState := progress.unitState.insert unit outcome }
  | .workflowTerminal status => { progress with status := some status }

/-- `WorkflowRun.replay`: a run without a storage that is marked as replaying, and that has read
every record of the journal. -/
def WorkflowRun.replay (journal : List Record) : WorkflowRun :=
  { new workflow false false with
    replaying := true
    progress := journal.foldl Progress.apply (.initial workflow) }

/-- A new process resumes: the run is replayed, and storage, binder and engine are attached. -/
def World.restart (world : World) : World where
  run := { WorkflowRun.replay world.run.workflow world.journal with
    storage := true
    collaborators := true }
  journal := world.journal

end AbsoluteZero.Scheduler

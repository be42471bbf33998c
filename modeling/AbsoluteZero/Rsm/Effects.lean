import AbsoluteZero.Foundations.Checked
import AbsoluteZero.Rsm.Requests

/-!
# What each family writes

`effects` is the table of what each family writes: some entries of the blocks, an amount to be added
to a meter, a failure entry. Every reducer is the schema check followed by its row (`reduce_eq`), so
what holds of all reducers is proved of the eight kinds of changes.
-/

namespace AbsoluteZero.Rsm

open Foundations

inductive Change
  | plan (field : String) (value : Json)
  | task (object : Json) (fields : List (String × Json))
  | exec (object : Json) (fields : List (String × Json))
  | commit (ref : Json)
  | context (object value : Json)
  | gate (object : Json) (entry : Block)
  | meter (name : String) (amount : Json)
  | lifecycle (block : Block)

/-- The changes that an event makes, and the reference of its failure entry, if it adds one. -/
structure Effect where
  changes : List Change
  failure : Option Json

variable (floatSum : FloatSum) (record : RequestRecord)

/-- The record after a change, under the same version. -/
def Change.apply :
    Change → Except ReducerError RequestRecord
  | .plan field value => return { record with plan := record.plan.insert field value }
  | .task object fields => do
    let tasks ← updateEntry record.work.tasks object fields
    return { record with work := { record.work with tasks := tasks } }
  | .exec object fields => do
    let execs ← updateEntry record.work.execs object fields
    return { record with work := { record.work with execs := execs } }
  | .commit ref => return { record with work := { record.work with commitRef := some ref } }
  | .context object value => do
    let key ← raising object.dictKey
    return { record with context := record.context.write key object value }
  | .gate object entry => do
    let key ← raising object.dictKey
    return { record with verification := record.verification.write key object entry }
  | .meter name amount => do
    let budget ← charge floatSum record.budget name amount
    return { record with budget := budget }
  | .lifecycle block => return { record with lifecycle := block }

def Change.key? : Change → Option Json
  | .task object _ | .exec object _ | .context object _ | .gate object _ => some object
  | .plan _ _ | .commit _ | .meter _ _ | .lifecycle _ => none

def Effect.failures (effect : Effect) (event : Event) (failure : List FailureEntry) :
    List FailureEntry :=
  match effect.failure with
  | none => failure
  | some ref =>
    failure ++ [{ sourceEventId := event.eventId, family := event.family, ref := ref
                  seq := failure.length }]

def RequestRecord.take (event : Event) (effect : Effect) : Except ReducerError RequestRecord := do
  let changed ← effect.changes.foldlM (Change.apply floatSum) record
  return changed.evolve fun changed ↦
    { changed with failure := effect.failures event record.failure }

/-- What each family writes, in the order of the registry. -/
def effects : List (String × (Json → Effect)) :=
  [("intent.classified", fun payload ↦
      ⟨[.plan "classification_ref" (payload.item "classification_ref")], none⟩),
    ("plan.created", fun payload ↦
      ⟨[.plan "plan_id" (payload.item "plan_id"), .plan "revision"
        (payload.item "revision")], none⟩),
    ("plan.revised", fun payload ↦
      ⟨[.plan "plan_id" (payload.item "plan_id"), .plan "revision"
        (payload.item "revision")], none⟩),
    ("plan.validated", fun payload ↦
      ⟨[.plan "status" (.str "validated"), .plan "verdict_ref"
        (payload.item "verdict_ref")], none⟩),
    ("plan.rejected", fun payload ↦
      ⟨[.plan "status" (.str "rejected"), .plan "verdict_ref" (payload.item "verdict_ref")],
        some .null⟩),
    ("task.scheduled", fun payload ↦
      ⟨[.task (payload.item "task_id") [("state", .str "scheduled")],
        .meter "granted" (payload.item "budget_granted")], none⟩),
    ("task.started", fun payload ↦
      ⟨[.task (payload.item "task_id") [("state", .str "started")]], none⟩),
    ("task.preempted", fun payload ↦
      ⟨[.task (payload.item "task_id") [("state", .str "preempted")]], none⟩),
    ("task.completed", fun payload ↦
      ⟨[.task (payload.item "task_id") [("state", .str "completed")]], none⟩),
    ("task.failed", fun payload ↦
      ⟨[.task (payload.item "task_id") [("state", .str "failed")]], some (payload.item "task_id")⟩),
    ("exec.started", fun payload ↦
      ⟨[.exec (payload.item "exec_id")
        [("state", .str "started"), ("task_id", payload.item "task_id")]], none⟩),
    ("exec.completed", fun payload ↦
      ⟨[.exec (payload.item "exec_id")
        [("state", .str "completed"), ("outcome_ref", payload.item "outcome_ref")]], none⟩),
    ("exec.timeout", fun payload ↦
      ⟨[.exec (payload.item "exec_id") [("state", .str "timeout")]], some
        (payload.item "exec_id")⟩),
    ("exec.failed", fun payload ↦
      ⟨[.exec (payload.item "exec_id") [("state", .str "failed")]], some (payload.item "exec_id")⟩),
    ("context.assembled", fun payload ↦
      ⟨[.context (payload.item "step") (payload.item "context_package_id")], none⟩),
    ("verify.requested", fun payload ↦
      ⟨[.gate (payload.item "gate") (OrderedDict.empty.insert "state" (.str "requested"))], none⟩),
    ("verify.passed", fun payload ↦
      ⟨[.gate (payload.item "gate") (verdictEntry "passed" payload)], none⟩),
    ("verify.failed", fun payload ↦
      ⟨[.gate (payload.item "gate") (verdictEntry "failed" payload)], some (payload.item "gate")⟩),
    ("storage.committed", fun payload ↦ ⟨[.commit (payload.item "commit_ref")], none⟩),
    ("storage.rejected", fun _ ↦ ⟨[.commit .null], some .null⟩),
    ("cost.recorded", fun payload ↦ ⟨[.meter "consumed" (payload.item "amount")], none⟩),
    ("fault.recorded", fun payload ↦ ⟨[], some (payload.item "reason")⟩),
    ("request.completed", fun _ ↦
      ⟨[.lifecycle (OrderedDict.empty.insert "state" (.str "completed"))], none⟩),
    ("request.failed", fun payload ↦
      ⟨[.lifecycle (reasonedLifecycle "failed" payload)], some .null⟩),
    ("request.rejected", fun payload ↦
      ⟨[.lifecycle (reasonedLifecycle "rejected" payload)], none⟩),
    ("request.cancelled", fun _ ↦
      ⟨[.lifecycle (OrderedDict.empty.insert "state" (.str "cancelled"))], none⟩)]

variable {family : String}

theorem payload_of_validate {event : Event} {payload : Json}
    (hvalidate : validate family event = .ok payload) : payload = event.payload := by
  obtain ⟨schema, -, hvalidate⟩ := Checked.bind_eq_ok_iff.mp hvalidate
  cases schema with
  | none => cases hvalidate
  | some schema =>
    cases hpayload : event.payload with
    | obj fields =>
      simp only [hpayload] at hvalidate
      change (if (schema.filter fun field ↦ OrderedDict.find field fields = none) ≠ [] then throw _
        else pure (.obj fields) : Except ReducerError Json) = _ at hvalidate
      split at hvalidate
      · cases hvalidate
      · cases hvalidate
        rfl
    | null | bool | int | float | str | arr =>
      simp only [hpayload] at hvalidate
      cases hvalidate

/-! ### Every reducer is its row -/

/-- The reducer of a family is the schema check followed by the effect. -/
def Implements (floatSum : FloatSum) (family : String) (reducer : Reducer)
    (effect : Json → Effect) : Prop :=
  ∀ record event, event.family = family →
    reducer record event = (validate family event).bind fun payload ↦
      record.take floatSum event (effect payload)

section Implements

variable {floatSum : FloatSum}

theorem implements_of_body {reducer : Reducer} {effect : Json → Effect}
    {body : RequestRecord → Event → Json → Except ReducerError RequestRecord}
    (hreducer : ∀ record event,
      reducer record event = (validate family event).bind (body record event))
    (hbody : ∀ record event payload, event.family = family →
      body record event payload = record.take floatSum event (effect payload)) :
    Implements floatSum family reducer effect := by
  intro record event hfamily
  rw [hreducer]
  cases validate family event with
  | error error => rfl
  | ok payload => exact hbody record event payload hfamily

theorem take_single (record : RequestRecord) (event : Event) (change : Change)
    (failure : Option Json) : record.take floatSum event ⟨[change], failure⟩ =
      (change.apply floatSum record).map fun changed ↦ changed.evolve fun changed ↦
        { changed with failure := (Effect.mk [change] failure).failures event record.failure } := by
  unfold RequestRecord.take
  rw [List.foldlM_cons]
  cases change.apply floatSum record <;> rfl

theorem take_pair (record : RequestRecord) (event : Event) (first second : Change)
    (failure : Option Json) : record.take floatSum event ⟨[first, second], failure⟩ =
      (first.apply floatSum record).bind fun changed ↦
        (second.apply floatSum changed).map fun changed ↦ changed.evolve fun changed ↦
          { changed with
            failure := (Effect.mk [first, second] failure).failures event record.failure } := by
  unfold RequestRecord.take
  rw [List.foldlM_cons]
  cases first.apply floatSum record with
  | error error => rfl
  | ok changed =>
    change (List.foldlM _ changed [second] >>= _) = (second.apply floatSum changed).map _
    rw [List.foldlM_cons]
    cases second.apply floatSum changed <;> rfl

theorem implements_planWritten (family : String) :
    Implements floatSum family (reducePlanWritten family) fun payload ↦
      ⟨[.plan "plan_id" (payload.item "plan_id"), .plan "revision" (payload.item "revision")],
        none⟩ :=
  implements_of_body (fun _ _ ↦ rfl) fun _ _ _ _ ↦ rfl

theorem implements_taskScheduled :
    Implements floatSum "task.scheduled" (reduceTaskScheduled floatSum) fun payload ↦
      ⟨[.task (payload.item "task_id") [("state", .str "scheduled")],
        .meter "granted" (payload.item "budget_granted")], none⟩ := by
  refine implements_of_body (fun _ _ ↦ rfl) fun record event payload _ ↦ ?_
  rw [take_pair, Change.apply, taskState]
  cases updateEntry record.work.tasks (payload.item "task_id") [("state", .str "scheduled")] with
  | error error => rfl
  | ok tasks =>
    change _ = (Change.apply floatSum _ _).map _
    rw [Change.apply]
    cases charge floatSum record.budget "granted" (payload.item "budget_granted") <;> rfl

theorem implements_taskMoved (family state : String) :
    Implements floatSum family (reduceTaskMoved family state) fun payload ↦
      ⟨[.task (payload.item "task_id") [("state", .str state)]], none⟩ := by
  refine implements_of_body (fun _ _ ↦ rfl) fun record event payload _ ↦ ?_
  rw [take_single, Change.apply, taskState]
  cases updateEntry record.work.tasks (payload.item "task_id") [("state", .str state)] <;> rfl

theorem implements_taskFailed : Implements floatSum "task.failed" reduceTaskFailed fun payload ↦
      ⟨[.task (payload.item "task_id") [("state", .str "failed")]],
        some (payload.item "task_id")⟩ := by
  refine implements_of_body (fun _ _ ↦ rfl) fun record event payload hfamily ↦ ?_
  rw [take_single, Change.apply, taskState, ← hfamily]
  cases updateEntry record.work.tasks (payload.item "task_id") [("state", .str "failed")] <;> rfl

theorem implements_execStarted : Implements floatSum "exec.started" reduceExecStarted fun payload ↦
      ⟨[.exec (payload.item "exec_id")
        [("state", .str "started"), ("task_id", payload.item "task_id")]], none⟩ := by
  refine implements_of_body (fun _ _ ↦ rfl) fun record event payload _ ↦ ?_
  rw [take_single, Change.apply, execState]
  cases updateEntry record.work.execs (payload.item "exec_id") _ <;> rfl

theorem implements_execCompleted :
    Implements floatSum "exec.completed" reduceExecCompleted fun payload ↦
      ⟨[.exec (payload.item "exec_id")
        [("state", .str "completed"), ("outcome_ref", payload.item "outcome_ref")]], none⟩ := by
  refine implements_of_body (fun _ _ ↦ rfl) fun record event payload _ ↦ ?_
  rw [take_single, Change.apply, execState]
  cases updateEntry record.work.execs (payload.item "exec_id") _ <;> rfl

theorem implements_execFailing (family state : String) :
    Implements floatSum family (reduceExecFailing family state) fun payload ↦
      ⟨[.exec (payload.item "exec_id") [("state", .str state)]],
        some (payload.item "exec_id")⟩ := by
  refine implements_of_body (fun _ _ ↦ rfl) fun record event payload hfamily ↦ ?_
  rw [take_single, Change.apply, execState, ← hfamily]
  cases updateEntry record.work.execs (payload.item "exec_id") [("state", .str state)] <;> rfl

theorem implements_contextAssembled :
    Implements floatSum "context.assembled" reduceContextAssembled fun payload ↦
      ⟨[.context (payload.item "step") (payload.item "context_package_id")], none⟩ := by
  refine implements_of_body (fun _ _ ↦ rfl) fun record event payload _ ↦ ?_
  rw [take_single, Change.apply]
  cases raising (payload.item "step").dictKey <;> rfl

theorem implements_verifyRequested :
    Implements floatSum "verify.requested" reduceVerifyRequested fun payload ↦
      ⟨[.gate (payload.item "gate") (OrderedDict.empty.insert "state" (.str "requested"))],
        none⟩ := by
  refine implements_of_body (fun _ _ ↦ rfl) fun record event payload _ ↦ ?_
  rw [take_single, Change.apply]
  cases raising (payload.item "gate").dictKey <;> rfl

theorem implements_verifyPassed :
    Implements floatSum "verify.passed" reduceVerifyPassed fun payload ↦
      ⟨[.gate (payload.item "gate") (verdictEntry "passed" payload)], none⟩ := by
  refine implements_of_body (fun _ _ ↦ rfl) fun record event payload _ ↦ ?_
  rw [take_single, Change.apply]
  cases raising (payload.item "gate").dictKey <;> rfl

theorem implements_verifyFailed :
    Implements floatSum "verify.failed" reduceVerifyFailed fun payload ↦
      ⟨[.gate (payload.item "gate") (verdictEntry "failed" payload)],
        some (payload.item "gate")⟩ := by
  refine implements_of_body (fun _ _ ↦ rfl) fun record event payload hfamily ↦ ?_
  rw [take_single, Change.apply, ← hfamily]
  cases raising (payload.item "gate").dictKey <;> rfl

theorem implements_costRecorded :
    Implements floatSum "cost.recorded" (reduceCostRecorded floatSum) fun payload ↦
      ⟨[.meter "consumed" (payload.item "amount")], none⟩ := by
  refine implements_of_body (fun _ _ ↦ rfl) fun record event payload _ ↦ ?_
  rw [take_single, Change.apply]
  cases charge floatSum record.budget "consumed" (payload.item "amount") <;> rfl

theorem implements_requestEnded (family state : String) :
    Implements floatSum family (reduceRequestEnded family state) fun _ ↦
      ⟨[.lifecycle (OrderedDict.empty.insert "state" (.str state))], none⟩ :=
  implements_of_body (fun _ _ ↦ rfl) fun _ _ _ _ ↦ rfl

/-- The other reducers write without looking at anything: what they make is what the effect
makes. -/
theorem implements_of_rfl {reducer : Reducer} {effect : Json → Effect}
    {body : RequestRecord → Event → Json → Except ReducerError RequestRecord}
    (hreducer : ∀ record event,
      reducer record event = (validate family event).bind (body record event))
    (hbody : ∀ record eventId requestId schemaVersion text payload,
      body record ⟨eventId, family, requestId, schemaVersion, text⟩ payload =
        record.take floatSum ⟨eventId, family, requestId, schemaVersion, text⟩ (effect payload)) :
    Implements floatSum family reducer effect := by
  refine implements_of_body hreducer fun record event payload hfamily ↦ ?_
  obtain ⟨eventId, family, requestId, schemaVersion, text⟩ := event
  subst hfamily
  exact hbody record eventId requestId schemaVersion text payload

/-- Every reducer of the registry is the schema check followed by its row of the table. -/
theorem registry_implements (floatSum : FloatSum) : List.Forall₂ (fun row effect ↦
        row.1 = effect.1 ∧ Implements floatSum row.1 row.2 effect.2)
      (registry floatSum) effects := by
  refine .cons ⟨rfl, implements_of_rfl (fun _ _ ↦ rfl) fun _ _ _ _ _ _ ↦ rfl⟩ <|
    .cons ⟨rfl, implements_planWritten "plan.created"⟩ <|
    .cons ⟨rfl, implements_planWritten "plan.revised"⟩ <|
    .cons ⟨rfl, implements_of_rfl (fun _ _ ↦ rfl) fun _ _ _ _ _ _ ↦ rfl⟩ <|
    .cons ⟨rfl, implements_of_rfl (fun _ _ ↦ rfl) fun _ _ _ _ _ _ ↦ rfl⟩ <|
    .cons ⟨rfl, implements_taskScheduled⟩ <|
    .cons ⟨rfl, implements_taskMoved "task.started" "started"⟩ <|
    .cons ⟨rfl, implements_taskMoved "task.preempted" "preempted"⟩ <|
    .cons ⟨rfl, implements_taskMoved "task.completed" "completed"⟩ <|
    .cons ⟨rfl, implements_taskFailed⟩ <|
    .cons ⟨rfl, implements_execStarted⟩ <|
    .cons ⟨rfl, implements_execCompleted⟩ <|
    .cons ⟨rfl, implements_execFailing "exec.timeout" "timeout"⟩ <|
    .cons ⟨rfl, implements_execFailing "exec.failed" "failed"⟩ <|
    .cons ⟨rfl, implements_contextAssembled⟩ <|
    .cons ⟨rfl, implements_verifyRequested⟩ <|
    .cons ⟨rfl, implements_verifyPassed⟩ <|
    .cons ⟨rfl, implements_verifyFailed⟩ <|
    .cons ⟨rfl, implements_of_rfl (fun _ _ ↦ rfl) fun _ _ _ _ _ _ ↦ rfl⟩ <|
    .cons ⟨rfl, implements_of_rfl (fun _ _ ↦ rfl) fun _ _ _ _ _ _ ↦ rfl⟩ <|
    .cons ⟨rfl, implements_costRecorded⟩ <|
    .cons ⟨rfl, implements_of_rfl (fun _ _ ↦ rfl) fun _ _ _ _ _ _ ↦ rfl⟩ <|
    .cons ⟨rfl, implements_requestEnded "request.completed" "completed"⟩ <|
    .cons ⟨rfl, implements_of_rfl (fun _ _ ↦ rfl) fun _ _ _ _ _ _ ↦ rfl⟩ <|
    .cons ⟨rfl, implements_of_rfl (fun _ _ ↦ rfl) fun _ _ _ _ _ _ ↦ rfl⟩ <|
    .cons ⟨rfl, implements_requestEnded "request.cancelled" "cancelled"⟩ .nil

end Implements

/-- Lookups in lists that agree row by row find rows that agree. -/
theorem find_of_forall₂ {First Second : Type} {agree : String × First → String × Second → Prop}
    (hkey : ∀ first second, agree first second → first.1 = second.1)
    {firsts : List (String × First)}
    {seconds : List (String × Second)} (hlists : List.Forall₂ agree firsts seconds) (key : String) :
    OrderedDict.find key firsts = none ∧ OrderedDict.find key seconds = none ∨
      ∃ first second, OrderedDict.find key firsts = some first ∧
        OrderedDict.find key seconds = some second ∧ agree (key, first) (key, second) := by
  induction hlists with
  | nil => exact .inl ⟨rfl, rfl⟩
  | @cons first second firsts seconds hagree _ ih =>
    obtain ⟨name, first⟩ := first
    obtain ⟨name', second⟩ := second
    obtain rfl : name = name' := hkey _ _ hagree
    rw [OrderedDict.find_cons, OrderedDict.find_cons]
    by_cases hname : name = key
    · subst hname
      rw [if_pos rfl, if_pos rfl]
      exact .inr ⟨first, second, rfl, rfl, hagree⟩
    · rw [if_neg hname, if_neg hname]
      exact ih

/-- What a reducer makes of an event: its schema check, then what its family writes. -/
theorem reduce_eq (event : Event) :
    reduce floatSum record event = (OrderedDict.find event.family effects).map fun effect ↦
        (validate event.family event).bind fun payload ↦
          record.take floatSum event (effect payload) := by
  unfold reduce
  rcases find_of_forall₂ (fun _ _ hagree ↦ hagree.1) (registry_implements floatSum)
    event.family with
    ⟨hreducer, heffect⟩ | ⟨reducer, effect, hreducer, heffect, -, himplements⟩
  · rw [hreducer, heffect]
    rfl
  · rw [hreducer, heffect, Option.map_some, Option.map_some]
    exact congrArg some (himplements record event rfl)

theorem exists_changed_of_reduce {floatSum : FloatSum} {record next : RequestRecord} {event : Event}
    (hreduce : reduce floatSum record event = some (.ok next)) :
    ∃ effect changed, OrderedDict.find event.family effects = some effect ∧
      validate event.family event = .ok event.payload ∧
      (effect event.payload).changes.foldlM (Change.apply floatSum) record = .ok changed ∧
      next = changed.evolve fun changed ↦
        { changed with failure := (effect event.payload).failures event record.failure } := by
  rw [reduce_eq] at hreduce
  obtain ⟨effect, heffect, hresult⟩ := Option.map_eq_some_iff.mp hreduce
  obtain ⟨payload, hvalidate, htake⟩ := Checked.bind_eq_ok_iff.mp hresult
  obtain rfl := payload_of_validate hvalidate
  obtain ⟨changed, hfold, hnext⟩ := Checked.bind_eq_ok_iff.mp htake
  exact ⟨effect, changed, heffect, hvalidate, hfold, (Except.ok.inj hnext).symm⟩

end AbsoluteZero.Rsm

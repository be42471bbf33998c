import AbsoluteZero.Foundations.Call
import AbsoluteZero.Foundations.PythonValue

/-!
# The bus

An envelope topic carries event envelopes under their own name; a record topic carries any dict. A
message is validated, refused while a queue of its topic is full, persisted when there is a port,
and only then queued; a call that raises keeps what it changed before.

A write raises or not as a function of its position says, and then changes nothing. The set of
durable subscriptions, which no method reads, is left out.
-/

namespace AbsoluteZero.Communication

open Foundations

/-- `ENVELOPE` and `RECORD`. -/
inductive TopicKind
  | envelope
  | record

def envelopeFields : List String := ["event_id", "event_name", "request_id", "timestamp", "payload"]

def matrixTopics : List String :=
  ["request.received", "request.admitted", "request.rejected", "request.completed",
    "request.failed", "request.cancelled", "intent.classified", "plan.created", "plan.validated",
    "plan.rejected", "plan.revised", "task.scheduled", "task.started", "task.preempted",
    "task.completed", "task.failed", "workflow.created", "context.assembled", "context.overflow",
    "context.invalidated", "exec.started", "exec.completed", "exec.timeout", "exec.failed",
    "verify.requested", "verify.passed", "verify.failed", "repo.indexed", "index.stale",
    "index.updated", "repo.onboarded", "repo.offboarded", "plugin.discovered",
    "plugin.registered", "plugin.loaded", "plugin.unloaded", "plugin.health.changed",
    "plugin.lifecycle.changed", "reliability.updated", "lesson.recorded", "prior.updated",
    "fault.recorded", "storage.committed", "storage.rejected", "telemetry.emitted",
    "cost.recorded", "budget.exceeded", "trace.opened", "trace.closed", "alert.raised",
    "session.wake", "session.sleep", "state.updated", "state.evicted", "reasoning.decided",
    "reasoning.invoked", "reasoning.completed", "reasoning.failed", "gate.enforced",
    "routing.directive", "config.changed", "delivery.failed"]

def recordTopics : List String :=
  ["transition.log", "policy.authored", "policy.deprecated", "policy.compiled", "policy.rejected",
    "policy.activated", "policy.decided", "policy.illposed", "grant.recorded", "grant.revoked"]

/-- The registry of a new bus. -/
abbrev Registry := OrderedDict String TopicKind

def defaultRegistry : Registry :=
  recordTopics.foldl (fun registry name ↦ registry.insert name .record)
    (matrixTopics.foldl (fun registry name ↦ registry.insert name .envelope) .empty)

def missingField (message : Json) : Option String :=
  envelopeFields.find? fun field ↦ (message.get? field).isNone

def checkEnvelope (topic : String) (message : Json) : Except String Unit :=
  match missingField message with
  | some field => .error ("schema.missing_field:" ++ topic ++ ":" ++ field)
  | none =>
    if !(message.item "event_name").pyEq (.str topic) then
      .error ("schema.event_name_topic_mismatch:" ++ (message.item "event_name").pyStr ++ ":" ++
        topic)
    else if !(message.item "event_id").nonemptyStr then .error ("schema.bad_event_id:" ++ topic)
    else if (message.item "payload").fields?.isNone then .error ("schema.bad_payload:" ++ topic)
    else .ok ()

/-- `validate`, with the text of the violation. -/
def validate (topic : String) (message : Json) (registry : Registry) : Except String Unit :=
  match registry.get? topic with
  | none => .error ("schema.unknown_topic:" ++ Json.quoted topic)
  | some kind =>
    if message.fields?.isNone then .error ("schema.message_not_mapping:" ++ topic)
    else
      match kind with
      | .record => .ok ()
      | .envelope => checkEnvelope topic message

/-- What is stored under a key: a message in JSON, other bytes that pass their check, or bytes that
do not. -/
inductive Entry
  | message (body : Json)
  | foreign
  | damaged
  deriving DecidableEq

/-- A storage port: its entries, which of its writes raise, and how many there were so far. -/
structure Port where
  entries : OrderedDict String Entry
  refuses : Nat → Bool
  writes : Nat

/-- `read` returns under this key. -/
def Port.readable (port : Port) (key : String) : Bool :=
  match port.entries.get? key with
  | some (.message _) | some .foreign => true
  | some .damaged | none => false

variable (topic : String)

def logKey (seq : Nat) : String :=
  "communication/log/" ++ topic ++ "/" ++ toString seq

/-- The loop of `_seq_floor`, from a sequence number on and for a number of turns. -/
def Port.probe (port : Port) (topic : String) : (turns : Nat) → (seq : Nat) → Nat
  | 0, seq => seq
  | turns + 1, seq => if port.readable (logKey topic seq) then port.probe topic turns
    (seq + 1) else seq

/-- The first sequence number whose entry cannot be read. The loop ends within one turn more than
the port has entries. -/
def Port.floor (port : Port) (topic : String) : Nat :=
  port.probe topic (port.entries.items.length + 1) 0

/-- A message that its handler did not take. -/
structure DeadLetter where
  topic : String
  subscriber : String
  message : Json
  reason : String

structure Bus where
  storage : Option Port
  maxQueueDepth : Nat
  maxAttempts : Nat
  registry : Registry
  deadLetters : List DeadLetter
  queues : OrderedDict (String × String) (List Json)
  logSeq : OrderedDict String Nat

/-- What a call raises. -/
inductive BusError
  | schema (text : String)
  | refusal (text : String)
  | backpressure (text : String)
  | durabilityUnavailable (text : String)
  | storageFailed
  | notReadable (key : String)
  deriving DecidableEq

abbrev BusCall := Call Bus BusError

/-- `Bus(storage, max_queue_depth, max_attempts)`. -/
def Bus.new (storage : Option Port) (maxQueueDepth maxAttempts : Nat) : Bus where
  storage := storage
  maxQueueDepth := maxQueueDepth
  maxAttempts := maxAttempts
  registry := defaultRegistry
  deadLetters := []
  queues := .empty
  logSeq := .empty

/-- `_subscribers.get(topic, ())`. -/
def Bus.subscribers (bus : Bus) (topic : String) : List String :=
  (bus.queues.keys.filter fun key ↦ key.1 = topic).map Prod.snd

def Bus.queue (bus : Bus) (topic subscriber : String) : List Json :=
  (bus.queues.get? (topic, subscriber)).getD []

def Bus.pending (bus : Bus) (topic subscriber : String) : Nat := (bus.queue topic subscriber).length

def registerTopic (kind : TopicKind) : BusCall Unit := do
  let bus ← get
  if (bus.registry.get? topic).isSome then
    throw (.schema ("schema.topic_already_registered:" ++ topic))
  else
    set { bus with registry := bus.registry.insert topic kind }

def subscribe (topic subscriber : String) (durable : Bool) : BusCall Unit := do
  let bus ← get
  if (bus.registry.get? topic).isNone then
    throw (.schema ("schema.unknown_topic:" ++ Json.quoted topic))
  else if durable ∧ bus.storage.isNone then
    throw (.durabilityUnavailable ("bus.no_storage_for_durable:" ++ topic))
  else if (bus.queues.get? (topic, subscriber)).isSome then
    throw (.refusal ("bus.duplicate_subscription:" ++ topic ++ ":" ++ subscriber))
  else
    set { bus with queues := bus.queues.insert (topic, subscriber) [] }

/-- `_seq_floor`: the next sequence number of a topic, looked up in the log at first use. -/
def seqFloor (port : Port) (topic : String) : BusCall Nat := do
  let bus ← get
  match bus.logSeq.get? topic with
  | some seq => pure seq
  | none => do
    set { bus with logSeq := bus.logSeq.insert topic (port.floor topic) }
    pure (port.floor topic)

/-- The part of `publish` that persists the message, if there is a port. -/
def persist (message : Json) : BusCall Unit := do
  let bus ← get
  match bus.storage with
  | none => pure ()
  | some port => do
    let seq ← seqFloor port topic
    if port.refuses port.writes then do
      modify fun bus ↦ { bus with storage := some { port with writes := port.writes + 1 } }
      throw .storageFailed
    else
      modify fun bus ↦ { bus with
        storage := some { port with
          entries := port.entries.insert (logKey topic seq) (.message message.canonical)
          writes := port.writes + 1 }
        logSeq := bus.logSeq.insert topic (seq + 1) }

/-- The queues with the message appended to each queue of its topic. -/
def Bus.enqueued (bus : Bus) (topic : String) (message : Json) :
    OrderedDict (String × String) (List Json) :=
  (bus.subscribers topic).foldl (fun queues subscriber ↦ queues.insert (topic, subscriber)
    ((queues.get? (topic, subscriber)).getD [] ++ [message])) bus.queues

def Bus.full (bus : Bus) (topic : String) : Option String :=
  (bus.subscribers topic).find? fun subscriber ↦ bus.maxQueueDepth ≤ bus.pending topic subscriber

def publish (message : Json) : BusCall Unit := do
  let bus ← get
  match validate topic message bus.registry with
  | .error text => throw (.schema text)
  | .ok () =>
    match bus.full topic with
    | some subscriber => throw (.backpressure ("bus.backpressure:" ++ topic ++ ":" ++ subscriber))
    | none => do
      persist topic message
      modify fun bus ↦ { bus with queues := bus.enqueued topic message }

def drain (topic subscriber : String) : BusCall (List Json) := do
  let bus ← get
  match bus.queues.get? (topic, subscriber) with
  | none => throw (.refusal ("bus.unknown_subscription:" ++ topic ++ ":" ++ subscriber))
  | some queue => do
    set { bus with queues := bus.queues.insert (topic, subscriber) [] }
    pure queue

/-- `json.loads(self.storage.read(key).decode())`. -/
def Port.load (port : Port) (key : String) : Except BusError Json :=
  match port.entries.get? key with
  | some (.message body) => .ok body
  | some .foreign | some .damaged | none => .error (.notReadable key)

def replay : BusCall (List Json) := do
  let bus ← get
  match bus.storage with
  | none => throw (.durabilityUnavailable ("bus.no_storage_to_replay:" ++ topic))
  | some port => do
    let seq ← seqFloor port topic
    match (List.range seq).mapM fun position ↦ port.load (logKey topic position) with
    | .ok messages => pure messages
    | .error error => throw error

end AbsoluteZero.Communication

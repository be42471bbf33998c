import AbsoluteZero.Kernel.Decisions

/-!
# The kernel event loop

`handle` takes one inbound value through validation, deduplication, the lookup in the table and the
application of the chosen row. A call that raises leaves behind whatever had been mutated, so an
`Outcome` holds the state in both cases.

The bus is an arbitrary object: `accepts n` says whether its `n`-th `publish` returns, and the first
one that raises halts admission. The clock is an arbitrary sequence of readings.
-/

namespace AbsoluteZero.Kernel

open Foundations

/-- One call of `publish`. -/
structure Call where
  topic : Json
  message : Message
  delivered : Bool

/-- A bus: which calls of `publish` return, and the calls made so far. -/
structure Bus where
  accepts : Nat → Bool
  calls : List Call := []

/-- `bus.publish(topic, message)`: true when the call returned, false when it raised. -/
def Bus.publish (bus : Bus) (topic : Json) (message : Message) : Bus × Bool :=
  let delivered := bus.accepts bus.calls.length
  ({ bus with calls := bus.calls ++ [⟨topic, message, delivered⟩] }, delivered)

def Bus.NeverRaises (bus : Bus) : Prop := ∀ call, bus.accepts call = true

/-- The state of the event loop. -/
structure Coordinator where
  bus : Bus
  clock : Nat → Json
  ledger : Ledger
  halted : Bool
  log : List Record
  configs : ConfigCache
  config : ConfigView
  outSeq : Nat

/-- What a call leaves behind: the state, and the value returned or the exception raised. -/
structure Outcome (State Value : Type) where
  state : State
  result : Except PyError Value

def logTopic : Json := .str "transition.log"

def sessionEvents : List Json := [.str "session.wake", .str "session.sleep"]

namespace Coordinator

variable (coord : Coordinator)

/-- `_install`: cache the view under its version and make it current. -/
def install (view : ConfigView) : Coordinator :=
  { coord with configs := coord.configs.put view, config := view }

/-- A new coordinator on an initial snapshot. -/
def init (bus : Bus) (clock : Nat → Json) (view : ConfigView) : Coordinator :=
  install
    { bus := bus, clock := clock, ledger := .empty, halted := false, log := [],
      configs := OrderedDict.empty, config := view, outSeq := 0 } view

/-- Call `bus.publish`, keeping whether it returned. -/
def attempt (topic : Json) (message : Message) : Coordinator × Bool :=
  let (bus, delivered) := coord.bus.publish topic message
  ({ coord with bus := bus }, delivered)

/-- `_emit` over a given way of publishing. Without an event id the emission takes the next
counter id. -/
def emitWith (publish : Coordinator → Json → Message → Coordinator) (coord : Coordinator)
    (name requestId payload : Json) (config : ConfigView) (eventId : Option String) : Coordinator :=
  let (numbered, eventId) := match eventId with
    | some eventId => (coord, eventId)
    | none => ({ coord with outSeq := coord.outSeq + 1 }, "out-" ++ toString (coord.outSeq + 1))
  publish numbered name (.envelope
    { eventId := eventId, eventName := name, requestId := requestId,
      configVersion := config.version, payload := payload,
      timestamp := numbered.clock numbered.bus.calls.length })

/-- `_fault` over a given way of publishing: an alert about an envelope, or about no envelope. -/
def faultWith (publish : Coordinator → Json → Message → Coordinator) (coord : Coordinator)
    (reason : String) (env : Option Json) : Coordinator :=
  match env with
  | some (.obj fields) =>
    let requestId := (Json.obj fields).item "request_id"
    emitWith publish coord (.str "fault.recorded") requestId
      (.obj [("reason", .str reason), ("event_id", (Json.obj fields).item "event_id"),
        ("request_id", requestId)]) coord.config none
  | _ =>
    emitWith publish coord (.str "fault.recorded") .null (.obj [("reason", .str reason)])
      coord.config none

/-- `_safe_publish` once admission is halted: a publish that raises is swallowed. -/
def publishHalted (topic : Json) (message : Message) : Coordinator :=
  (coord.attempt topic message).1

/-- `_safe_publish`: the first publish that raises halts admission and is reported. -/
def safePublish (topic : Json) (message : Message) : Coordinator :=
  match coord.attempt topic message with
  | (published, true) => published
  | (published, false) =>
    if published.halted then published
    else faultWith publishHalted { published with halted := true } "communication.unavailable" none

def emit (name requestId payload : Json) (config : ConfigView)
    (eventId : Option String) : Coordinator :=
  emitWith safePublish coord name requestId payload config eventId

def fault (reason : String) (env : Option Json) : Coordinator :=
  faultWith safePublish coord reason env

/-- `_log`: append the record, then publish it. -/
def logRecord (record : Record) : Coordinator :=
  safePublish { coord with log := coord.log ++ [record] } logTopic (.record record)

end Coordinator

/-! ### Rows applied to an entry -/

/-- `info.get(key, default)` on an info dict that may be missing. -/
def infoGet (info : Option (List (String × Json))) (key : String) (default : Json) : Json :=
  (OrderedDict.find key (info.getD [])).getD default

def truthyInfo (info : List (String × Json)) : List (String × Json) :=
  info.filter fun field ↦ field.2.truthy

namespace RequestState

def doAction (entry : RequestState) (action event : Json)
    (info : Option (List (String × Json))) : RequestState :=
  if action = .str "record_verdict" then
    { entry with recordedVerdicts :=
        entry.recordedVerdicts.insert "verification" (event = .str "verify.passed") }
  else if action = .str "increment_replan" then
    { entry with replanCount := entry.replanCount + 1 }
  else if action = .str "set_cancel_flag" then { entry with cancellationFlag := true }
  else if action = .str "set_routing_target" then
    { entry with routingTarget := infoGet info "routing_target" .null }
  else entry

/-- The actions of a row, in order. -/
def doActions (entry : RequestState) (actions : List Json) (event : Json)
    (info : Option (List (String × Json))) : RequestState :=
  actions.foldl (fun entry action ↦ entry.doAction action event info) entry

end RequestState

/-- `row.get("actions", ())`, iterated. -/
def Row.actionList (row : Row) : Except PyError (List Json) :=
  match row.actions with
  | none => .ok []
  | some actions => actions.iterate

/-- `row.get("decision") or ("permit" if guard_result else "block")`. -/
def Row.outcome (row : Row) (guardResult : Bool) : Json :=
  row.decision.orElse (.str (if guardResult then "permit" else "block"))

def payloadFor (name : Json) (entry : RequestState) (decision : Json) (row : Row)
    (config : ConfigView) (info : Option (List (String × Json))) : Json :=
  let requestId := entry.requestId
  if name = .str "gate.enforced" then
    .obj [("request_id", requestId), ("gate", row.gate), ("decision", decision)]
  else if name = .str "routing.directive" then
    .obj [("request_id", requestId), ("declared_type", entry.declaredType),
      ("target", entry.routingTarget), ("config_version", config.version)]
  else if name = .str "request.rejected" ∨ name = .str "request.failed" then
    .obj [("request_id", requestId), ("state", entry.lifecycleState),
      ("reason", infoGet info "reason" (.str ""))]
  else if name = .str "request.cancelled" then
    .obj [("request_id", requestId), ("state", .str "cancelled"), ("ack", .bool true)]
  else .obj [("request_id", requestId), ("state", entry.lifecycleState)]

/-- `"%s:%d:%d" % (request_id, transition_sequence, index)`. -/
def emissionId (requestId : Json) (sequence index : Nat) : String :=
  requestId.pyStr ++ ":" ++ toString sequence ++ ":" ++ toString index

def transitionRecord (entry : RequestState) (event eventId : Json) (row : Row)
    (guardResult : Bool) (config : ConfigView) (emits : List Json)
    (info : Option (List (String × Json))) : Record where
  requestId := entry.requestId
  eventId := some eventId
  sequence := entry.transitionSequence + 1
  priorState := entry.lifecycleState
  event := event
  guardResult := guardResult
  nextState := row.next
  configVersion := config.version
  emittedEvents := emits
  info := match info with
    | none | some [] => none
    | some fields => some fields

/-- The entry after a transition: the actions of the row, its next state, the next sequence
number and the id of the event. -/
def RequestState.advance (entry : RequestState) (event eventId : Json) (row : Row)
    (actions : List Json) (info : Option (List (String × Json))) : RequestState :=
  let acted := entry.doActions actions event info
  { acted with
    lifecycleState := row.next
    transitionSequence := acted.transitionSequence + 1
    lastAppliedEventId := if eventId = .null then acted.lastAppliedEventId else eventId }

namespace Coordinator

/-- `_publish_row` from an index on: the emissions of a row in order, each with the id of its
place. -/
def publishRow (coord : Coordinator) (entry : RequestState) (row : Row) (decision : Json)
    (config : ConfigView) (info : Option (List (String × Json))) : Nat → List Json → Coordinator
  | _, [] => coord
  | index, name :: rest =>
    (coord.emit name entry.requestId (payloadFor name entry decision row config info) config
      (some (emissionId entry.requestId entry.transitionSequence index))).publishRow
        entry row decision config info (index + 1) rest

variable (coord : Coordinator)

/-- `_transition`: record, mutate, log, publish. The emission list and the actions are read
before anything is mutated. -/
def transition (entry : RequestState) (event eventId : Json) (row : Row)
    (guardResult : Bool) (config : ConfigView) (info : Option (List (String × Json))) :
    Except PyError (Coordinator × RequestState) :=
  match row.emit.iterate with
  | .error raised => .error raised
  | .ok emits =>
    match row.actionList with
    | .error raised => .error raised
    | .ok actions =>
      let info := info.map truthyInfo
      let advanced := entry.advance event eventId row actions info
      let mutated := { coord with ledger := coord.ledger.insert entry.requestId advanced }
      let logged := mutated.logRecord
        (transitionRecord entry event eventId row guardResult config emits info)
      .ok (logged.publishRow advanced row (row.outcome guardResult) config info 0 emits, advanced)

/-- The entry that `_admit` creates. -/
def admittedEntry (env : Json) (config : ConfigView) : RequestState where
  requestId := env.item "request_id"
  declaredType := .str ((env.item "payload").getD "declared_type" (.str "")).pyStr
  configVersion := config.version

def routeAdmitted (entry : RequestState) (chain eventId : Json)
    (config : ConfigView) : Outcome Coordinator Unit :=
  let (target, reason) := route entry.declaredType config
  match config.rows entry.lifecycleState chain with
  | .error raised => ⟨coord, .error raised⟩
  | .ok none | .ok (some []) => ⟨coord, .error .typeError⟩
  | .ok (some (first :: rest)) =>
    let row := if target.isSome then first else (first :: rest).getLast (List.cons_ne_nil _ _)
    match coord.transition entry chain eventId row target.isSome config
        (some [("routing_target", target.elim .null .str), ("reason", .str reason)]) with
    | .error raised => ⟨coord, .error raised⟩
    | .ok (routed, _) => ⟨routed, .ok ()⟩

/-- `_admit`. -/
def admitRequest (env : Json) : Outcome Coordinator Unit :=
  if !(env.item "request_id").nonemptyStr then
    ⟨coord.fault "request.missing_id" (some env), .ok ()⟩
  else
    let config := coord.config
    let active := coord.ledger.activeCount
    let entry := admittedEntry env config
    match coord.ledger.create entry with
    | .error raised => ⟨coord, .error raised⟩
    | .ok ledger =>
      let created := { coord with ledger := ledger }
      match admissionDecide env config coord.halted active with
      | .error raised => ⟨created, .error raised⟩
      | .ok (permitted, reason) =>
        match config.rows (.str "created") (.str "request.received") with
        | .error raised => ⟨created, .error raised⟩
        | .ok none | .ok (some []) => ⟨created, .error .typeError⟩
        | .ok (some (first :: rest)) =>
          let row := if permitted then first else (first :: rest).getLast (List.cons_ne_nil _ _)
          match created.transition entry (.str "request.received") (env.item "event_id") row
              permitted config
              (some [("declared_type", entry.declaredType), ("reason", .str reason)]) with
          | .error raised => ⟨created, .error raised⟩
          | .ok (admitted, entered) =>
            if permitted && row.chain.truthy then
              admitted.routeAdmitted entered row.chain (env.item "event_id") config
            else ⟨admitted, .ok ()⟩

/-- The snapshot that decides the transitions of an entry: the one cached under its version. -/
def pinned (entry : RequestState) : ConfigView :=
  (coord.configs.at? entry.configVersion).getD coord.config

def apply (entry : RequestState) (event env : Json) : Outcome Coordinator Unit :=
  let config := coord.pinned entry
  match config.rows entry.lifecycleState event with
  | .error raised => ⟨coord, .error raised⟩
  | .ok none =>
    ⟨coord.fault ("transition.unmatched:" ++ entry.lifecycleState.pyStr ++ "|" ++ event.pyStr)
      (some env), .ok ()⟩
  | .ok (some rows) =>
    match pickRow rows entry config with
    | .error raised => ⟨coord, .error raised⟩
    | .ok none =>
      ⟨coord.fault ("transition.no_row:" ++ entry.lifecycleState.pyStr ++ "|" ++ event.pyStr)
        (some env), .ok ()⟩
    | .ok (some (row, guardResult)) =>
      match coord.transition entry event (env.item "event_id") row guardResult config none with
      | .error raised => ⟨coord, .error raised⟩
      | .ok (applied, _) => ⟨applied, .ok ()⟩

def configRecord (view : ConfigView) : Record where
  requestId := .null
  sequence := 0
  priorState := .null
  event := .str "config.changed"
  guardResult := true
  nextState := .null
  configVersion := view.version
  emittedEvents := []
  snapshot := some view.data

def handleConfig (env : Json) : Coordinator :=
  match ConfigView.ofData ((env.item "payload").item "snapshot") with
  | .error reason => coord.fault ("config.invalid:" ++ reason) (some env)
  | .ok view => (coord.install view).logRecord (configRecord view)

def sessionRecord (name : Json) (config : ConfigView) : Record where
  requestId := .null
  sequence := 0
  priorState := .null
  event := name
  guardResult := true
  nextState := .null
  configVersion := config.version
  emittedEvents := []

def cleanupRecord (requestId : Json) (entry : RequestState) : Record where
  requestId := requestId
  sequence := entry.transitionSequence + 1
  priorState := entry.lifecycleState
  event := .str "__cleanup__"
  guardResult := true
  nextState := .str "cleanup"
  configVersion := entry.configVersion
  emittedEvents := []

/-- One round of the cleanup loop: log and evict the entry of an id if it is terminal. -/
def cleanup (requestId : Json) : Coordinator :=
  match coord.ledger.get? requestId with
  | some entry =>
    if entry.lifecycleState ∈ terminalStates then
      let logged := coord.logRecord (cleanupRecord requestId entry)
      { logged with ledger := logged.ledger.evict requestId }
    else coord
  | none => coord

def handleSession (name : Json) : Coordinator :=
  let logged := coord.logRecord (sessionRecord name coord.config)
  if name = .str "session.sleep" then logged.ledger.keys.foldl cleanup logged else logged

/-- The record of a dropped duplicate. -/
def noopRecord (entry : RequestState) (env : Json) (verdict : String) : Record where
  requestId := entry.requestId
  eventId := some (env.item "event_id")
  sequence := entry.transitionSequence
  priorState := entry.lifecycleState
  event := env.item "event_name"
  guardResult := false
  nextState := entry.lifecycleState
  configVersion := entry.configVersion
  emittedEvents := []
  verdict := some verdict

/-- The part of `handle` for an event of one request. -/
def handleRequest (env : Json) : Outcome Coordinator Unit :=
  let name := env.item "event_name"
  let requestId := env.item "request_id"
  if !requestId.hashable then ⟨coord, .error .typeError⟩
  else
    match coord.ledger.get? requestId with
    | some entry =>
      if env.item "event_id" = entry.lastAppliedEventId then
        ⟨coord.logRecord (noopRecord entry env "duplicate"), .ok ()⟩
      else if name = .str "request.received" then
        ⟨coord.fault ("transition.unmatched:" ++ entry.lifecycleState.pyStr ++ "|" ++ name.pyStr)
          (some env), .ok ()⟩
      else coord.apply entry name env
    | none =>
      if name = .str "request.received" then coord.admitRequest env
      else
        match name with
        | .str text => ⟨coord.fault ("request.unknown:" ++ text) (some env), .ok ()⟩
        | _ => ⟨coord, .error .typeError⟩

def handle (env : Json) : Outcome Coordinator Unit :=
  match Envelope.validate env coord.config.inboundEvents with
  | .error reason => ⟨coord.fault reason (some env), .ok ()⟩
  | .ok () =>
    let name := env.item "event_name"
    if name = .str "config.changed" then ⟨coord.handleConfig env, .ok ()⟩
    else if name ∈ sessionEvents then ⟨coord.handleSession name, .ok ()⟩
    else coord.handleRequest env

/-- The state after an envelope, whether `handle` returned or raised. -/
def step (env : Json) : Coordinator := (coord.handle env).state

/-- The state after a sequence of envelopes. -/
def run (envs : List Json) : Coordinator := envs.foldl step coord

end Coordinator

end AbsoluteZero.Kernel

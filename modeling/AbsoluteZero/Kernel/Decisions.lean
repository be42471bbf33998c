import AbsoluteZero.Kernel.ConfigView

/-!
# Envelopes, admission, routing and gates

An inbound envelope is any JSON value until `Envelope.validate` has looked at it, and `Emission` is
an outbound envelope without its timestamp. The decisions of the kernel are functions of their
arguments: `admissionDecide`, `route`, `evaluateGate` with the guards built on it, and `pickRow`.
-/

namespace AbsoluteZero.Kernel

open Foundations

namespace Envelope

def requiredFields : List String := ["event_id", "event_name", "request_id", "timestamp", "payload"]

/-- A required field is present. -/
def checkField (env : Json) (field : String) : Except String Unit :=
  if (env.get? field).isSome then .ok () else .error ("envelope.missing_field:" ++ field)

/-- The structural check of an inbound envelope, with the reason of the first failure. -/
def validate (env : Json) (allowedEventNames : List Json) : Except String Unit :=
  match env with
  | .obj _ =>
    match checkAll (checkField env) requiredFields with
    | .error reason => .error reason
    | .ok () =>
      if !(env.item "event_id").nonemptyStr then .error "envelope.bad_event_id"
      else if !(env.item "event_name").isIn allowedEventNames then
        .error "envelope.unknown_event_name"
      else if (env.item "payload").fields?.isNone then .error "envelope.bad_payload"
      else .ok ()
  | _ => .error "envelope.not_mapping"

/-- An envelope with all six fields. -/
def make (eventId eventName requestId timestamp configVersion payload : Json) : Json :=
  .obj [("event_id", eventId), ("event_name", eventName), ("request_id", requestId),
    ("timestamp", timestamp), ("config_version", configVersion), ("payload", payload)]

def inbound (eventId eventName requestId : String) (payload : List (String × Json)) : Json :=
  make (.str eventId) (.str eventName) (.str requestId) (.int 0) .null (.obj payload)

def system (eventId eventName : String) (payload : List (String × Json)) : Json :=
  make (.str eventId) (.str eventName) .null (.int 0) .null (.obj payload)

end Envelope

/-- A published envelope without its timestamp. -/
structure Emission where
  eventId : String
  eventName : Json
  requestId : Json
  configVersion : Json
  payload : Json

/-- A published envelope. -/
structure Outbound extends Emission where
  timestamp : Json

/-- A transition-log record. -/
structure Record where
  requestId : Json
  eventId : Option Json := none
  sequence : Nat
  priorState : Json
  event : Json
  guardResult : Bool
  nextState : Json
  configVersion : Json
  emittedEvents : List Json
  info : Option (List (String × Json)) := none
  verdict : Option String := none
  snapshot : Option Json := none
  deriving DecidableEq

/-- The canonical form of a record: its keys are fixed, so it is the canonical form of each
value. -/
def Record.canonical (record : Record) : Record where
  requestId := record.requestId.canonical
  eventId := record.eventId.map Json.canonical
  sequence := record.sequence
  priorState := record.priorState.canonical
  event := record.event.canonical
  guardResult := record.guardResult
  nextState := record.nextState.canonical
  configVersion := record.configVersion.canonical
  emittedEvents := record.emittedEvents.map Json.canonical
  info := record.info.map Json.canonicalFields
  verdict := record.verdict
  snapshot := record.snapshot.map Json.canonical

/-- What goes to the bus: a log record on the log topic, or an envelope on the topic of its
name. -/
inductive Message
  | record (record : Record)
  | envelope (envelope : Outbound)

def nonTerminalStates : List Json :=
  [.str "created", .str "initialized", .str "scheduled", .str "executing", .str "verifying"]

def terminalStates : List Json := [.str "completed", .str "failed", .str "cancelled"]

/-- One ledger entry. -/
structure RequestState where
  requestId : Json
  declaredType : Json := .str ""
  lifecycleState : Json := .str "created"
  configVersion : Json := .int 0
  recordedVerdicts : OrderedDict String Bool := .empty
  routingTarget : Json := .null
  cancellationFlag : Bool := false
  transitionSequence : Nat := 0
  lastAppliedEventId : Json := .null
  replanCount : Nat := 0

/-- The entries under their request ids, in creation order. -/
abbrev Ledger := OrderedDict Json RequestState

namespace Ledger

def activeCount (ledger : Ledger) : Nat :=
  (ledger.values.filter fun entry ↦ entry.lifecycleState ∈ nonTerminalStates).length

/-- `_create`: refuses an id that already has an entry. -/
def create (ledger : Ledger) (entry : RequestState) : Except PyError Ledger :=
  match ledger.get? entry.requestId with
  | some _ => .error .valueError
  | none => .ok (ledger.insert entry.requestId entry)

/-- `_evict`: drops the entry of an id, if there is one. -/
def evict (ledger : Ledger) (requestId : Json) : Ledger := ledger.erase requestId

end Ledger

/-- The first required key that the payload lacks, as a refusal. A schema that is not a list of
strings raises where the loop first trips over it. -/
def checkSchema (payload : Json) : List Json → Except PyError (Option String)
  | [] => .ok none
  | .str key :: rest =>
    if (payload.get? key).isSome then checkSchema payload rest
    else .ok (some ("admission.schema_invalid:" ++ key))
  | _ :: _ => .error .typeError

/-- `admission.decide`: the permission and the reason of a refusal. -/
def admissionDecide (env : Json) (config : ConfigView) (halted : Bool) (active : Nat) :
    Except PyError (Bool × String) :=
  if halted then .ok (false, "admission.halted")
  else if config.maxActiveRequests ≤ active then .ok (false, "admission.exhausted")
  else
    let schemas := config.envelopeSchemas
    match (schemas.getD ((env.item "event_name").pyStr) (.arr [])).iterate with
    | .error raised => .error raised
    | .ok required =>
      match checkSchema (env.item "payload") required with
      | .error raised => .error raised
      | .ok (some reason) => .ok (false, reason)
      | .ok none => .ok (true, "")

/-- `router.route`: the owning component of a declared type, or the reason of the rejection. -/
def route (declaredType : Json) (config : ConfigView) : Option String × String :=
  let owner := match declaredType with
    | .str text => config.routingTable.get? text
    | _ => none
  match owner with
  | none | some .null => (none, "routing.unknown_type")
  | some (.str target) => (some target, "")
  | some _ => (none, "routing.ambiguous_type")

/-- The `verdict_true` predicate: the named verdict is recorded and true. -/
def verdictTrue (entry : RequestState) (gateDef : Json) : Except PyError Bool :=
  match gateDef.getD "verdict" (.str "verification") with
  | .str verdict => .ok (entry.recordedVerdicts.get? verdict == some true)
  | verdict => if verdict.hashable then .ok false else .error .typeError

/-- `gates.evaluate`: the predicate named by the definition, false when there is none. -/
def evaluateGate (entry : RequestState) (gateDef : Json) : Except PyError Bool :=
  if gateDef.fields?.isNone then .error .attributeError
  else if !(gateDef.item "check").hashable then .error .typeError
  else if gateDef.item "check" = .str "verdict_true" then verdictTrue entry gateDef
  else .ok false

/-! ### Guards and rows -/

/-- `name[len(prefix):]` when the name starts with the prefix. -/
def stripStart (start name : String) : Option String :=
  if start.toList.isPrefixOf name.toList then
    some (String.ofList (name.toList.drop start.toList.length))
  else none

/-- `_guard`: a gate, the replan bound, or an unknown guard that never permits. -/
def guardHolds (name : Json) (entry : RequestState) (config : ConfigView) : Except PyError Bool :=
  match name with
  | .str text =>
    match stripStart "gate:" text with
    | some gate => evaluateGate entry (config.gates.getD gate (.obj []))
    | none =>
      if text = "replans_remaining" then .ok (decide ((entry.replanCount : Int) <
        config.maxReplans))
      else .ok false
  | _ => .error .attributeError

/-- `_pick_row` from an index on: the first row whose guard holds, with whether it permits. -/
def pickRowFrom (entry : RequestState) (config : ConfigView) :
    Nat → List Row → Except PyError (Option (Row × Bool))
  | _, [] => .ok none
  | index, row :: rest =>
    match if row.guardName = .null then .ok true else guardHolds row.guardName entry config with
    | .error raised => .error raised
    | .ok false => pickRowFrom entry config (index + 1) rest
    | .ok true =>
      let decision := row.decision.orElse (.str (if index = 0 then "permit" else "block"))
      .ok (some (row, decision = .str "permit"))

/-- `_pick_row`: none when every guard failed. -/
def pickRow (rows : List Row) (entry : RequestState) (config : ConfigView) :
    Except PyError (Option (Row × Bool)) :=
  pickRowFrom entry config 0 rows

end AbsoluteZero.Kernel

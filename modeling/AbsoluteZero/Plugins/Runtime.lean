import AbsoluteZero.Plugins.Binding
import AbsoluteZero.Plugins.Persistence

/-!
# The plugin runtime

The composition root: the registry, the evidence journal with its health manager, the two
legalities, the load states, and the ports of the bus and of the storage. Draining takes the
messages of a whole topic off the bus before the first is handled. The replay of a binding reads the
version and the snapshot that it cites.
-/

namespace AbsoluteZero.Plugins

open Foundations Reading

/-- `CONSUMED`. -/
inductive ConsumedEvent
  | lifecycleChanged
  | reliabilityUpdated
  | execFailed
  | execTimeout
  | execCompleted
  deriving DecidableEq

instance : ClosedVocabulary ConsumedEvent where
  all := [.lifecycleChanged, .reliabilityUpdated, .execFailed, .execTimeout, .execCompleted]
  text
    | .lifecycleChanged => "plugin.lifecycle.changed"
    | .reliabilityUpdated => "reliability.updated"
    | .execFailed => "exec.failed"
    | .execTimeout => "exec.timeout"
    | .execCompleted => "exec.completed"

/-- `_DEAD`. -/
def deadVocabulary : List (String × String) :=
  [("plugin.disabled", "PRT/05 §4 D1: superseded by plugin.health.changed"),
    ("process.failed", "PRT/05 §4 D2: dead draft vocabulary, canon is exec.failed"),
    ("process.timeout", "PRT/05 §4 D2: dead draft vocabulary, canon is exec.timeout")]

/-- The exceptions that handling a message raises. -/
inductive Fault
  | python (error : PyError)
  | missingKey (key : String)
  | valueError (message : String)
  | refused (refusal : Refusal)

def checkConsumed : Json → Except Fault ConsumedEvent
  | .str name =>
    match ClosedVocabulary.read name with
    | some event => .ok event
    | none =>
      match OrderedDict.find name deadVocabulary with
      | some reason => .error (.valueError ("events.dead_vocabulary:" ++ name ++ ":" ++ reason))
      | none => .error (.valueError ("events.unknown_event:" ++ name))
  | _ => .error (.python .typeError)

/-- `value[key]`. -/
def subscript (value : Json) (key : String) : Except Fault Json :=
  match value with
  | .obj fields =>
    match OrderedDict.find key fields with
    | some item => .ok item
    | none => .error (.missingKey key)
  | _ => .error (.python .typeError)

def eventOf (message : Json) : Except Fault ConsumedEvent := do
  checkConsumed (← subscript message "event_name")

/-- `message.get("payload", {}) or {}`. -/
def payloadOf (message : Json) : Json := (message.getD "payload" (.obj [])).orElse (.obj [])

/-! ### Payloads -/

variable (floats : Floats)

/-- The entry that a `reliability.updated` message is journalled as. -/
def priorsEntry (message : Json) : Except Fault JournalEntry := do
  let payload := message.getD "payload" (.obj [])
  let providerId ← subscript payload "provider_id"
  let prior ← subscript payload "prior"
  let priorsVersion ← subscript payload "priors_version"
  match floats.convert prior with
  | .error error => .error (.python error)
  | .ok number => .ok ⟨providerId, .priors number priorsVersion⟩

def knows (content : Content) (entity id : String) : Bool :=
  if entity = "capability" then (content.capabilities.get? id).isSome
  else (content.providers.get? id).isSome

/-- `enact_lifecycle_event` of a payload with the three keys, whose entity is known. -/
def enactLifecycleEvent (registry : Registry) (entity : String) (id toState : Json) :
    Except Fault Registry :=
  match id with
  | .str id =>
    match toState with
    | .str toState =>
      match applied registry (.lifecycleTransition entity id toState) with
      | .ok registry' => .ok registry'
      | .error refusal => .error (.refused refusal)
    | toState =>
      if knows registry.current entity id then
        if toState.hashable then
          .error (.refused ⟨.lifecycleTransition,
            "registry.unknown_lifecycle:" ++ id ++ ":" ++ toState.pyStr⟩)
        else .error (.python .typeError)
      else .error (.refused ⟨.notFound, "registry." ++ entity ++ "_not_found:" ++ id⟩)
  | _ => .error (.python .typeError)

/-- The transition of a registry entity that a payload asks for, if it does. -/
def registryEvent? (payload : Json) : Option (String × Json × Json) :=
  match payload.get? "entity", payload.get? "id", payload.get? "to_state" with
  | some (.str entity), some id, some toState =>
    if entity = "capability" ∨ entity = "provider" then some (entity, id, toState) else none
  | _, _, _ => none

/-- What `dict(event)` and `payload.get` raise for a list. -/
def pairsFault (elements : List Json) : PyError :=
  (elements.findSome? fun element ↦
    match element.iterate with
    | .error _ => some .typeError
    | .ok [key, _] => if key.hashable then none else some .typeError
    | .ok _ => some .valueError).getD .attributeError

/-- What a runtime is constructed with: the digest, the floats, the administrative bar and the
preferences. -/
structure Setup where
  digest : String → String
  floats : Floats
  adminBarred : List String
  preferences : OrderedDict String (List String)

structure PluginRuntime where
  registry : Registry
  journal : EvidenceJournal
  health : HealthManager
  healthLegality : LifecycleLegality HealthState
  loadLegality : LifecycleLegality LoadState
  loadStates : OrderedDict String LoadState
  topics : OrderedDict String (List Json)
  storage : OrderedDict String String

namespace PluginRuntime

def new (thresholds : Thresholds) (topics : OrderedDict String (List Json))
    (storage : OrderedDict String String) : PluginRuntime where
  registry := Versioned.fresh Content.empty
  journal := []
  health := ⟨thresholds, .empty⟩
  healthLegality := defaultHealthLegality
  loadLegality := defaultLoadLegality
  loadStates := .empty
  topics := topics
  storage := storage

variable (runtime : PluginRuntime)

/-- `record_outcome`: the evidence is journalled, then the health of its provider is read. -/
def recordOutcome (subject : Json) (kind : LiveKind) :
    PluginRuntime × Except Fault Unit :=
  let journal := runtime.journal ++ [⟨subject, .live kind⟩]
  match subject.dictKey with
  | .error error => ({ runtime with journal }, .error (.python error))
  | .ok key =>
    ({ runtime with
        journal
        health := (runtime.health.sync journal runtime.healthLegality key).2 },
      .ok ())

/-- The handling of a live observation: `payload.get("detail")` needs a dict. -/
def handleOutcome (message : Json) (kind : LiveKind) :
    PluginRuntime × Except Fault Unit :=
  match payloadOf message with
  | .obj _ => runtime.recordOutcome (message.item "subject_id") kind
  | _ => (runtime, .error (.python .attributeError))

def consumeReliabilityUpdate (runtime : PluginRuntime) (message : Json) :
    PluginRuntime × Except Fault Unit :=
  match priorsEntry floats message with
  | .error fault => (runtime, .error fault)
  | .ok entry => ({ runtime with journal := runtime.journal ++ [entry] }, .ok ())

/-- The handling of a lifecycle event: both legalities take it up, then the registry enacts it. -/
def handleLifecycle (message : Json) :
    PluginRuntime × Except Fault Unit :=
  match payloadOf message with
  | .obj fields =>
    match runtime.healthLegality.onLifecycleEvent (.obj fields) with
    | .error error => (runtime, .error (.python error))
    | .ok healthLegality =>
      match runtime.loadLegality.onLifecycleEvent (.obj fields) with
      | .error error => ({ runtime with healthLegality }, .error (.python error))
      | .ok loadLegality =>
        match registryEvent? (.obj fields) with
        | none => ({ runtime with healthLegality, loadLegality }, .ok ())
        | some (entity, id, toState) =>
          match enactLifecycleEvent runtime.registry entity id toState with
          | .error fault => ({ runtime with healthLegality, loadLegality }, .error fault)
          | .ok registry => ({ runtime with healthLegality, loadLegality, registry }, .ok ())
  | .arr elements => (runtime, .error (.python (pairsFault elements)))
  | .str _ => (runtime, .error (.python .valueError))
  | _ => (runtime, .error (.python .typeError))

def dispatch (runtime : PluginRuntime) (message : Json) :
    ConsumedEvent → PluginRuntime × Except Fault Unit
  | .lifecycleChanged => runtime.handleLifecycle message
  | .reliabilityUpdated => consumeReliabilityUpdate floats runtime message
  | .execFailed => runtime.handleOutcome message .failed
  | .execTimeout => runtime.handleOutcome message .timeout
  | .execCompleted => runtime.handleOutcome message .completed

def handleEvent (runtime : PluginRuntime) (message : Json) :
    PluginRuntime × Except Fault Unit :=
  match eventOf message with
  | .error fault => (runtime, .error fault)
  | .ok event => dispatch floats runtime message event

def messages (topic : ConsumedEvent) : List Json :=
  (runtime.topics.get? (ClosedVocabulary.text topic)).getD []

/-- `drain`: the topic is emptied. -/
def drained (topic : ConsumedEvent) : PluginRuntime :=
  if runtime.messages topic = [] then runtime
  else { runtime with topics := runtime.topics.insert (ClosedVocabulary.text topic) [] }

/-- How handling messages one after another ends: the messages handled, and when the handling of one
raised, that message with the runtime before it and the exception. -/
structure Handling where
  runtime : PluginRuntime
  handled : List Json
  raised : Option (PluginRuntime × Json × Fault)

/-- The messages of one topic, handled until one raises. -/
def handleAll (floats : Floats) (runtime : PluginRuntime) : List Json → Handling
  | [] => ⟨runtime, [], none⟩
  | message :: rest =>
    match runtime.handleEvent floats message with
    | (next, .ok ()) =>
      let later := handleAll floats next rest
      { later with handled := message :: later.handled }
    | (next, .error fault) => ⟨next, [], some (runtime, message, fault)⟩

/-- The topics one after another, each drained before its messages are handled. -/
def drainTopics (floats : Floats) (runtime : PluginRuntime) : List ConsumedEvent → Handling
  | [] => ⟨runtime, [], none⟩
  | topic :: topics =>
    let first := handleAll floats (runtime.drained topic) (runtime.messages topic)
    match first.raised with
    | some raised => ⟨first.runtime, first.handled, some raised⟩
    | none =>
      let later := drainTopics floats first.runtime topics
      { later with handled := first.handled ++ later.handled }

def drainAndHandle (runtime : PluginRuntime) : Handling :=
  drainTopics floats runtime ClosedVocabulary.all

/-! ### Binding -/

/-- The health of providers written into a snapshot, with the manager that folded for it. -/
def snapshotOf (journal : EvidenceJournal) (legality : LifecycleLegality HealthState) :
    List String → HealthSnapshot → HealthManager → HealthSnapshot × HealthManager
  | [], snapshot, manager => (snapshot, manager)
  | providerId :: rest, snapshot, manager =>
    let read := manager.sync journal legality (.text providerId)
    snapshotOf journal legality rest (snapshot.insert providerId
      (HealthEntry.ofCarry read.1)) read.2

/-- `snapshot`. -/
def takeSnapshot (providerIds : List String) :
    HealthSnapshot × HealthManager :=
  snapshotOf runtime.journal runtime.healthLegality providerIds .empty runtime.health

variable (setup : Setup)

def policyView (runtime : PluginRuntime) : LoadPolicyView where
  adminBarred := setup.adminBarred
  preferences := setup.preferences
  loadState providerId := (runtime.loadStates.get? providerId).getD .notLoaded

def artifactKey (contentHash : String) : String := "prt/health_snapshot/" ++ contentHash

/-- `_persist_snapshot_artifact`: a snapshot that is there is not written again. -/
def persistSnapshot (storage : OrderedDict String String)
    (snapshot : HealthSnapshot) : OrderedDict String String :=
  let key := artifactKey (setup.digest snapshot.canonicalText)
  if (storage.get? key).isSome then storage else storage.insert key snapshot.canonicalText

/-- `bind`: the set of the providers is iterated twice, for the snapshot and for the candidates. -/
def bind (runtime : PluginRuntime) (first second : SetOrder)
    (capabilityId : String) : Resolution × PluginRuntime :=
  let providerIds := (runtime.registry.current.bindingsFor first capabilityId).map
    BindingRecord.providerId
  let taken := runtime.takeSnapshot providerIds
  (resolve setup.digest runtime.registry.current runtime.registry.version second
      (policyView setup runtime) taken.1 capabilityId,
    { runtime with
      health := taken.2
      storage := persistSnapshot setup runtime.storage taken.1 })

/-- Why a replay fails. -/
inductive ReplayFault
  | noSuchVersion
  | missingSnapshot
  | malformedSnapshot
  | snapshotHashMismatch
  | contractMismatch

def replayBind (runtime : PluginRuntime) (order : SetOrder)
    (contract : BindingContract) : Except ReplayFault Resolution :=
  match runtime.registry.atVersion contract.registryVersion with
  | none => .error .noSuchVersion
  | some content =>
    match runtime.storage.get? (artifactKey contract.healthSnapshotHash) with
    | none => .error .missingSnapshot
    | some raw =>
      match (JsonText.loads setup.floats.reader raw).bind (dict? HealthEntry.ofJson) with
      | none => .error .malformedSnapshot
      | some snapshot =>
        if setup.digest (HealthSnapshot.canonicalText snapshot) = contract.healthSnapshotHash then
          let resolution := resolve setup.digest content contract.registryVersion order
            (policyView setup runtime) snapshot contract.capabilityId
          match resolution with
          | .bound replayed =>
            if replayed.contractId = contract.contractId then .ok resolution
            else .error .contractMismatch
          | .failed _ => .ok resolution
        else .error .snapshotHashMismatch

/-- `admission.admit`, with the answer of the stages before the consistency check: the bundle is
stored under the hash of its declaration before it is committed. -/
def admitDeclaration (passes : Bool) (declarationHash serialized : String)
    (bundle : Bundle) : PluginRuntime :=
  if passes then
    match runtime.registry.apply Content.handle (.admitBundle bundle) with
    | (registry, .ok _) =>
      { runtime with
        registry
        storage := runtime.storage.insert ("prt/admission/" ++ declarationHash) serialized }
    | (_, .error _) => runtime
  else runtime

def administrate (kind : AdminKind) (providerId actor reason : String) :
    PluginRuntime × Except Fault Unit :=
  if actor = "" ∨ reason = "" then
    (runtime, .error (.valueError "evidence.admin_act_requires_actor_and_reason"))
  else
    let journal := runtime.journal ++ [⟨.str providerId, .admin kind⟩]
    ({ runtime with
        journal
        health := (runtime.health.sync journal runtime.healthLegality (.text providerId)).2 },
      .ok ())

def requestTransition (providerId : String) (toState : LoadState) :
    PluginRuntime :=
  let fromState := (runtime.loadStates.get? providerId).getD .notLoaded
  if (fromState, toState) ∈ loadTransitions ∧
      runtime.loadLegality.permits (.text providerId) fromState toState then
    { runtime with loadStates := runtime.loadStates.insert providerId toState }
  else runtime

/-- `publish` on the bus. -/
def publish (topic : String) (message : Json) : PluginRuntime :=
  { runtime with
    topics := runtime.topics.insert topic ((runtime.topics.get? topic).getD [] ++ [message]) }

/-- What happens to a runtime. -/
inductive Act
  | admission (passes : Bool) (declarationHash serialized : String) (bundle : Bundle)
  | mutate (mutation : Mutation)
  | requestTransition (providerId : String) (toState : LoadState)
  | administrate (kind : AdminKind) (providerId actor reason : String)
  | readHealth (providerId : String)
  | publish (topic : String) (message : Json)
  | handleEvent (message : Json)
  | drainAndHandle
  | persist
  | bind (first second : SetOrder) (capabilityId : String)

/-- The runtime after an act, whether it returned or raised. -/
def perform (runtime : PluginRuntime) : Act → PluginRuntime
  | .admission passes declarationHash serialized bundle =>
    runtime.admitDeclaration passes declarationHash serialized bundle
  | .mutate mutation =>
    { runtime with registry := (runtime.registry.apply Content.handle mutation).1 }
  | .requestTransition providerId toState => runtime.requestTransition providerId toState
  | .administrate kind providerId actor reason =>
    (runtime.administrate kind providerId actor reason).1
  | .readHealth providerId =>
    { runtime with
      health :=
        (runtime.health.sync runtime.journal runtime.healthLegality (.text providerId)).2 }
  | .publish topic message => runtime.publish topic message
  | .handleEvent message => (runtime.handleEvent setup.floats message).1
  | .drainAndHandle => (runtime.drainAndHandle setup.floats).runtime
  | .persist => { runtime with storage := persistRegistry runtime.registry runtime.storage }
  | .bind first second capabilityId => (runtime.bind setup first second capabilityId).2

def after (runtime : PluginRuntime) (acts : List Act) : PluginRuntime :=
  acts.foldl (perform setup) runtime

end PluginRuntime

end AbsoluteZero.Plugins

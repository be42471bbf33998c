import AbsoluteZero.Kernel.Recovery

/-!
# The kernel without its bus

What the event loop is for, apart from delivery: a ledger, the snapshots, the log, and the
publications that are not alerts about faults. An envelope is decided into a list of actions
(`Core.decide`), performed one by one with one log record each.

`core_handle` shows that the coordinator refines the loop over the core; over whole runs
(`core_run`) the halt flag of each step is the only thing the bus decides.
-/

namespace AbsoluteZero.Kernel

open Foundations List

/-- A publication: a log record, or an envelope that is not a fault, without its timestamp. -/
inductive Publication
  | record (record : Record)
  | emission (emission : Emission)

def Publication.emission? : Publication → Option Emission
  | .record _ => none
  | .emission sent => some sent

/-- An alert about a fault. -/
def Emission.IsFault (emission : Emission) : Prop := emission.eventName = .str "fault.recorded"

instance (emission : Emission) : Decidable emission.IsFault :=
  inferInstanceAs (Decidable (_ = _))

def Message.publication? : Message → Option Publication
  | .record logged => some (.record logged)
  | .envelope sent =>
    if sent.toEmission.IsFault then none else some (.emission sent.toEmission)

/-- A transition: the entry after it, its record and its emissions. -/
structure Applied where
  entry : RequestState
  record : Record
  emissions : List Emission

def rowEmissions (entry : RequestState) (row : Row) (decision : Json) (config : ConfigView)
    (info : Option (List (String × Json))) : Nat → List Json → List Emission
  | _, [] => []
  | index, name :: rest =>
    { eventId := emissionId entry.requestId entry.transitionSequence index
      eventName := name
      requestId := entry.requestId
      configVersion := config.version
      payload := payloadFor name entry decision row config info } ::
      rowEmissions entry row decision config info (index + 1) rest

def applied (entry : RequestState) (event eventId : Json) (row : Row) (guardResult : Bool)
    (config : ConfigView) (info : Option (List (String × Json))) : Except PyError Applied :=
  match row.emit.iterate with
  | .error raised => .error raised
  | .ok emits =>
    match row.actionList with
    | .error raised => .error raised
    | .ok actions =>
      let info := info.map truthyInfo
      let advanced := entry.advance event eventId row actions info
      .ok
        { entry := advanced
          record := transitionRecord entry event eventId row guardResult config emits info
          emissions := rowEmissions advanced row (row.outcome guardResult) config info 0 emits }

/-- The actions of a row leave the id, the configuration version and the sequence number of an
entry alone. -/
theorem doActions_fixed (entry : RequestState) (actions : List Json) (event : Json)
    (info : Option (List (String × Json))) :
    (entry.doActions actions event info).requestId = entry.requestId ∧
      (entry.doActions actions event info).configVersion = entry.configVersion ∧
      (entry.doActions actions event info).transitionSequence = entry.transitionSequence := by
  induction actions generalizing entry with
  | nil => exact ⟨rfl, rfl, rfl⟩
  | cons action rest ih =>
    obtain ⟨hid, hversion, hsequence⟩ := ih (entry.doAction action event info)
    change ((entry.doAction action event info).doActions rest event info).requestId = _ ∧
      ((entry.doAction action event info).doActions rest event info).configVersion = _ ∧
      ((entry.doAction action event info).doActions rest event info).transitionSequence = _
    rw [hid, hversion, hsequence]
    unfold RequestState.doAction
    split_ifs <;> exact ⟨rfl, rfl, rfl⟩

section

variable {entry : RequestState} {event eventId : Json} {row : Row} {guardResult : Bool}
  {config : ConfigView} {info : Option (List (String × Json))} {unit : Applied}
  (happlied : applied entry event eventId row guardResult config info = .ok unit)

include happlied

/-- What a transition of a row that can be read consists of. -/
theorem applied_eq_ok : ∃ emits actions,
    row.emit.iterate = .ok emits ∧ row.actionList = .ok actions ∧
      unit = ⟨entry.advance event eventId row actions (info.map truthyInfo),
        transitionRecord entry event eventId row guardResult config emits (info.map truthyInfo),
        rowEmissions (entry.advance event eventId row actions (info.map truthyInfo)) row
          (row.outcome guardResult) config (info.map truthyInfo) 0 emits⟩ := by
  unfold applied at happlied
  split at happlied
  · cases happlied
  · next emits hemits =>
    split at happlied
    · cases happlied
    · next actions hactions => exact ⟨emits, actions, hemits, hactions,
        (Except.ok.inj happlied).symm⟩

/-- The unit of a transition is about the request of its entry, which stays pinned as it was. -/
theorem applied_fixed : unit.record.requestId = entry.requestId ∧
    unit.entry.requestId = entry.requestId ∧ unit.entry.configVersion = entry.configVersion := by
  obtain ⟨emits, actions, -, -, rfl⟩ := applied_eq_ok happlied
  exact ⟨rfl, (doActions_fixed _ _ _ _).1, (doActions_fixed _ _ _ _).2.1⟩

theorem applied_sequence : unit.record.sequence = entry.transitionSequence + 1 ∧
    unit.entry.transitionSequence = entry.transitionSequence + 1 := by
  obtain ⟨emits, actions, -, -, rfl⟩ := applied_eq_ok happlied
  exact ⟨rfl, congrArg (· + 1) (doActions_fixed _ _ _ _).2.2⟩

end

/-- The publications of a transition: its record, then its emissions. -/
def Applied.publications (unit : Applied) : List Publication :=
  .record unit.record ::
    unit.emissions.filterMap fun emission ↦
      if emission.IsFault then none else some (.emission emission)

/-! ### Actions -/

/-- What the event loop does to the ledger, the snapshots and the log, one log record at a time.
`strand` is the one action without a record: an admission that raises after its entry was made. -/
inductive Action
  | configure (view : ConfigView)
  | mark (name : Json)
  | absorb (entry : RequestState) (env : Json)
  | strand (entry : RequestState)
  | commit (unit : Applied)
  | clean (requestId : Json) (entry : RequestState)

/-- The actions an envelope is decided into, and the value returned or the exception raised. -/
structure Decision where
  actions : List Action := []
  result : Except PyError Unit := .ok ()

/-- The decision to commit a transition, or to raise what forming it raised. -/
def Decision.commit : Except PyError Applied → Decision
  | .error raised => { result := .error raised }
  | .ok unit => { actions := [.commit unit] }

/-- The state of the kernel without its bus. -/
structure Core where
  ledger : Ledger
  log : List Record
  configs : ConfigCache
  config : ConfigView
  published : List Publication

namespace Core

def note (core : Core) (message : Message) : Core :=
  { core with published := core.published ++ message.publication?.toList }

def logRecord (core : Core) (record : Record) : Core :=
  { core with log := core.log ++ [record], published := core.published ++ [.record record] }

/-- Cache a view under its version and make it current. -/
def install (core : Core) (view : ConfigView) : Core :=
  { core with configs := core.configs.put view, config := view }

/-- The core of a new coordinator. -/
def init (view : ConfigView) : Core :=
  install
    { ledger := .empty, log := [], configs := OrderedDict.empty, config := view, published := [] }
    view

def act (core : Core) : Action → Core
  | .configure view => (core.install view).logRecord (Coordinator.configRecord view)
  | .mark name => core.logRecord (Coordinator.sessionRecord name core.config)
  | .absorb entry env => core.logRecord (Coordinator.noopRecord entry env "duplicate")
  | .strand entry => { core with ledger := core.ledger.insert entry.requestId entry }
  | .commit unit =>
    { core with
      ledger := core.ledger.insert unit.record.requestId unit.entry
      log := core.log ++ [unit.record]
      published := core.published ++ unit.publications }
  | .clean requestId entry =>
    { core.logRecord (Coordinator.cleanupRecord requestId entry) with
      ledger := core.ledger.evict requestId }

def emissions (core : Core) : List Emission := core.published.filterMap Publication.emission?

/-- The effect of a sequence of actions. -/
def perform (core : Core) (actions : List Action) : Core := actions.foldl act core

end Core

def Action.record? (config : ConfigView) : Action → Option Record
  | .configure view => some (Coordinator.configRecord view)
  | .mark name => some (Coordinator.sessionRecord name config)
  | .absorb entry env => some (Coordinator.noopRecord entry env "duplicate")
  | .strand _ => none
  | .commit unit => some unit.record
  | .clean requestId entry => some (Coordinator.cleanupRecord requestId entry)

theorem Core.log_act (core : Core) (action : Action) :
    (core.act action).log = core.log ++ (action.record? core.config).toList := by
  cases action <;> simp [act, Action.record?, logRecord, install]

theorem Core.log_prefix_perform (core : Core) (actions : List Action) :
    core.log <+: (core.perform actions).log := by
  induction actions generalizing core with
  | nil => exact prefix_refl _
  | cons action rest ih =>
    refine .trans ?_ (ih (core.act action))
    rw [log_act]
    exact prefix_append _ _

/-! ### Decisions -/

/-- The routing transition chained to a permitted admission. -/
def routeDecision (entry : RequestState) (chain eventId : Json) (config : ConfigView) : Decision :=
  let (target, reason) := route entry.declaredType config
  match config.rows entry.lifecycleState chain with
  | .error raised => { result := .error raised }
  | .ok none | .ok (some []) => { result := .error .typeError }
  | .ok (some (first :: rest)) =>
    let row := if target.isSome then first else (first :: rest).getLast (List.cons_ne_nil _ _)
    .commit (applied entry chain eventId row target.isSome config
      (some [("routing_target", target.elim .null .str), ("reason", .str reason)]))

def admitDecision (config : ConfigView) (halted : Bool) (active : Nat) (env : Json) : Decision :=
  if !(env.item "request_id").nonemptyStr then {}
  else
    let entry := Coordinator.admittedEntry env config
    match admissionDecide env config halted active with
    | .error raised => { actions := [.strand entry], result := .error raised }
    | .ok (permitted, reason) =>
      match config.rows (.str "created") (.str "request.received") with
      | .error raised => { actions := [.strand entry], result := .error raised }
      | .ok none | .ok (some []) => { actions := [.strand entry], result := .error .typeError }
      | .ok (some (first :: rest)) =>
        let row := if permitted then first else (first :: rest).getLast (List.cons_ne_nil _ _)
        match applied entry (.str "request.received") (env.item "event_id") row permitted config
            (some [("declared_type", entry.declaredType), ("reason", .str reason)]) with
        | .error raised => { actions := [.strand entry], result := .error raised }
        | .ok unit =>
          if permitted && row.chain.truthy then
            let routing := routeDecision unit.entry row.chain (env.item "event_id") config
            { actions := .commit unit :: routing.actions, result := routing.result }
          else { actions := [.commit unit] }

def applyDecision (config : ConfigView) (entry : RequestState) (event eventId : Json) : Decision :=
  match config.rows entry.lifecycleState event with
  | .error raised => { result := .error raised }
  | .ok none => {}
  | .ok (some rows) =>
    match pickRow rows entry config with
    | .error raised => { result := .error raised }
    | .ok none => {}
    | .ok (some (row, guardResult)) => .commit
      (applied entry event eventId row guardResult config none)

/-- A configuration event: an invalid snapshot is refused. -/
def configDecision (env : Json) : Decision :=
  match ConfigView.ofData ((env.item "payload").item "snapshot") with
  | .error _ => {}
  | .ok view => { actions := [.configure view] }

/-- The terminal entries of a ledger under their ids, in creation order. -/
def Ledger.settled (ledger : Ledger) : List (Json × RequestState) :=
  ledger.items.filter fun item ↦ item.2.lifecycleState ∈ terminalStates

/-- A session event: sleep cleans up the terminal entries. -/
def sessionDecision (ledger : Ledger) (name : Json) : Decision where
  actions := .mark name ::
    if name = .str "session.sleep" then ledger.settled.map fun item ↦ .clean item.1 item.2 else []

/-- The snapshot that decides the transitions of an entry. -/
def pinnedView (configs : ConfigCache) (config : ConfigView) (entry : RequestState) : ConfigView :=
  (configs.at? entry.configVersion).getD config

/-- An event of one request, decided from the entry of the request, the snapshots, the halt flag
and the number of active requests. -/
def requestDecision (held? : Option RequestState) (configs : ConfigCache) (config : ConfigView)
    (halted : Bool) (active : Nat) (env : Json) : Decision :=
  let name := env.item "event_name"
  if !(env.item "request_id").hashable then { result := .error .typeError }
  else
    match held? with
    | some entry =>
      if env.item "event_id" = entry.lastAppliedEventId then { actions := [.absorb entry env] }
      else if name = .str "request.received" then {}
      else applyDecision (pinnedView configs config entry) entry name (env.item "event_id")
    | none =>
      if name = .str "request.received" then admitDecision config halted active env
      else
        match name with
        | .str _ => {}
        | _ => { result := .error .typeError }

namespace Core

def decide (core : Core) (halted : Bool) (env : Json) : Decision :=
  match Envelope.validate env core.config.inboundEvents with
  | .error _ => {}
  | .ok () =>
    let name := env.item "event_name"
    if name = .str "config.changed" then configDecision env
    else if name ∈ sessionEvents then sessionDecision core.ledger name
    else
      requestDecision (core.ledger.get? (env.item "request_id")) core.configs core.config halted
        core.ledger.activeCount env

/-- The envelope makes a snapshot current: it is valid, a configuration event, and its snapshot is
accepted. -/
def Installs (core : Core) (env : Json) (view : ConfigView) : Prop :=
  Envelope.validate env core.config.inboundEvents = .ok () ∧
    env.item "event_name" = .str "config.changed" ∧
    ConfigView.ofData ((env.item "payload").item "snapshot") = .ok view

/-- The state after an envelope. -/
def step (core : Core) (input : Bool × Json) : Core :=
  core.perform (core.decide input.1 input.2).actions

/-- The state after a sequence of envelopes, each with the halt flag it was handled under. -/
def run (core : Core) (inputs : List (Bool × Json)) : Core := inputs.foldl step core

theorem run_concat (core : Core) (inputs : List (Bool × Json)) (input : Bool × Json) :
    core.run (inputs ++ [input]) = (core.run inputs).step input :=
  foldl_append

end Core

/-! ### Refinement -/

namespace Coordinator

variable (coord : Coordinator)

def core : Core where
  ledger := coord.ledger
  log := coord.log
  configs := coord.configs
  config := coord.config
  published := coord.bus.calls.filterMap fun call ↦ call.message.publication?

theorem core_init (bus : Bus) (clock : Nat → Json) (view : ConfigView) (hcalls : bus.calls = []) :
    (init bus clock view).core = Core.init view := by
  simp [init, install, core, Core.init, Core.install, hcalls]

section

variable (coord : Coordinator)

@[simp] theorem core_ledger : coord.core.ledger = coord.ledger := rfl

@[simp] theorem core_log : coord.core.log = coord.log := rfl

@[simp] theorem core_config : coord.core.config = coord.config := rfl

theorem core_attempt (topic : Json) (message : Message) :
    (coord.attempt topic message).1.core = coord.core.note message := by
  simp only [attempt, Bus.publish, core, Core.note, filterMap_append]
  cases hpublication : message.publication? <;> simp [hpublication]

end

/-- A way of publishing that moves the core by the message and by nothing else. -/
def Notes (publish : Coordinator → Json → Message → Coordinator) : Prop :=
  ∀ coord topic message, (publish coord topic message).core = coord.core.note message

theorem core_emitWith {publish : Coordinator → Json → Message → Coordinator}
    (hpublish : Notes publish) (coord : Coordinator) (name requestId payload : Json)
    (config : ConfigView) (eventId : String) :
    (emitWith publish coord name requestId payload config (some eventId)).core = { coord.core with
        published := coord.core.published ++
          if name = .str "fault.recorded" then [] else
            [.emission ⟨eventId, name, requestId, config.version, payload⟩] } := by
  rw [emitWith, hpublish]
  by_cases hname : name = .str "fault.recorded" <;>
    simp [Core.note, Message.publication?, Emission.IsFault, hname]

theorem core_faultWith {publish : Coordinator → Json → Message → Coordinator}
    (hpublish : Notes publish) (coord : Coordinator) (reason : String) (env : Option Json) :
    (faultWith publish coord reason env).core = coord.core := by
  unfold faultWith
  split <;> rw [emitWith, hpublish] <;>
    simp [Core.note, Message.publication?, Emission.IsFault, core]

theorem notes_publishHalted : Notes publishHalted := core_attempt

theorem notes_safePublish : Notes safePublish := by
  intro coord topic message
  have hattempt := core_attempt coord topic message
  unfold safePublish
  split
  · next published heq => rw [← hattempt, heq]
  · next published heq =>
    rw [heq] at hattempt
    split
    · exact hattempt
    · rw [core_faultWith notes_publishHalted]
      exact hattempt

@[simp] theorem core_fault (reason : String) (env : Option Json) :
    (coord.fault reason env).core = coord.core :=
  core_faultWith notes_safePublish coord reason env

@[simp] theorem core_logRecord (record : Record) :
    (coord.logRecord record).core = coord.core.logRecord record := by
  rw [logRecord, notes_safePublish]
  simp [Core.note, Core.logRecord, Message.publication?, core]

theorem ledger_logRecord (record : Record) :
    (coord.logRecord record).ledger = coord.ledger :=
  congrArg Core.ledger (core_logRecord coord record)

theorem core_publishRow (entry : RequestState) (row : Row) (decision : Json) (config : ConfigView)
    (info : Option (List (String × Json))) (names : List Json) :
    ∀ (coord : Coordinator) (index : Nat),
      (coord.publishRow entry row decision config info index names).core = { coord.core with
          published := coord.core.published ++
            (rowEmissions entry row decision config info index names).filterMap fun emission ↦
              if emission.IsFault then none else some (.emission emission) } := by
  induction names with
  | nil =>
    intro coord index
    simp only [publishRow, rowEmissions, filterMap_nil, append_nil]
  | cons name rest ih =>
    intro coord index
    rw [publishRow, ih, emit, core_emitWith notes_safePublish, rowEmissions, filterMap_cons]
    by_cases hname : name = .str "fault.recorded" <;> simp [hname, Emission.IsFault]

/-- A transition of the coordinator is the commit of its unit, and raises where forming the unit
raises. -/
theorem transition_eq (entry : RequestState) (event eventId : Json)
    (row : Row) (guardResult : Bool) (config : ConfigView) (info : Option (List (String × Json))) :
    (∃ raised, applied entry event eventId row guardResult config info = .error raised ∧
      coord.transition entry event eventId row guardResult config info = .error raised) ∨
    ∃ unit committed, applied entry event eventId row guardResult config info = .ok unit ∧
      coord.transition entry event eventId row guardResult config info =
        .ok (committed, unit.entry) ∧ committed.core = coord.core.act (.commit unit) := by
  unfold applied transition
  cases hemits : row.emit.iterate with
  | error raised => exact Or.inl ⟨raised, rfl, rfl⟩
  | ok emits =>
    cases hactions : row.actionList with
    | error raised => exact Or.inl ⟨raised, rfl, rfl⟩
    | ok actions =>
      refine Or.inr ⟨_, _, rfl, rfl, ?_⟩
      rw [core_publishRow, core_logRecord]
      simp [Core.act, Core.logRecord, Applied.publications, core, transitionRecord]

def Outcome.CarriesOut (outcome : Outcome Coordinator Unit) (start : Core) (decision : Decision) :
    Prop :=
  outcome.state.core = start.perform decision.actions ∧ outcome.result = decision.result

section

variable (coord : Coordinator)

theorem routeAdmitted_carriesOut (entry : RequestState)
    (chain eventId : Json) (config : ConfigView) :
    Outcome.CarriesOut (coord.routeAdmitted entry chain eventId config) coord.core
      (routeDecision entry chain eventId config) := by
  simp only [routeAdmitted, routeDecision]
  rcases config.rows entry.lifecycleState chain with raised | (_ | (_ | ⟨first, rest⟩))
  · exact ⟨rfl, rfl⟩
  · exact ⟨rfl, rfl⟩
  · exact ⟨rfl, rfl⟩
  · rcases coord.transition_eq entry chain eventId
      (if (route entry.declaredType config).1.isSome then first
        else (first :: rest).getLast (cons_ne_nil _ _))
      (route entry.declaredType config).1.isSome config
      (some [("routing_target", (route entry.declaredType config).1.elim .null .str),
        ("reason", .str (route entry.declaredType config).2)]) with
      ⟨raised, happlied, htransition⟩ | ⟨unit, committed, happlied, htransition, hcore⟩
    · simp only [happlied, htransition]
      exact ⟨rfl, rfl⟩
    · simp only [happlied, htransition]
      exact ⟨hcore, rfl⟩

theorem admit_carriesOut (env : Json) (hfresh : coord.ledger.get? (env.item "request_id") = none) :
    Outcome.CarriesOut (coord.admitRequest env) coord.core
      (admitDecision coord.config coord.halted coord.ledger.activeCount env) := by
  have hcreate : coord.ledger.create (admittedEntry env coord.config) =
      .ok (coord.ledger.insert (env.item "request_id") (admittedEntry env coord.config)) := by
    simp only [Ledger.create, admittedEntry, hfresh]
  simp only [admitRequest, admitDecision, hcreate]
  by_cases hid : (!(env.item "request_id").nonemptyStr) = true
  · simp only [if_pos hid]
    exact ⟨core_fault _ _ _, rfl⟩
  simp only [if_neg hid]
  rcases admissionDecide env coord.config coord.halted coord.ledger.activeCount with
    raised | ⟨permitted, reason⟩
  · exact ⟨rfl, rfl⟩
  rcases coord.config.rows (.str "created") (.str "request.received") with
    raised | (_ | (_ | ⟨first, rest⟩))
  · exact ⟨rfl, rfl⟩
  · exact ⟨rfl, rfl⟩
  · exact ⟨rfl, rfl⟩
  obtain ⟨created, hcreated⟩ : ∃ created : Coordinator, created = { coord with
    ledger := coord.ledger.insert (env.item "request_id") (admittedEntry env coord.config) } :=
    ⟨_, rfl⟩
  simp only [← hcreated]
  rcases created.transition_eq
    (admittedEntry env coord.config) (.str "request.received") (env.item "event_id")
    (if permitted then first else (first :: rest).getLast (cons_ne_nil _ _)) permitted
    coord.config
    (some [("declared_type", (admittedEntry env coord.config).declaredType),
      ("reason", .str reason)]) with
    ⟨raised, happlied, htransition⟩ | ⟨unit, committed, happlied, htransition, hcore⟩
  · simp only [happlied, htransition]
    rw [hcreated]
    exact ⟨rfl, rfl⟩
  -- The entry made by the admission is overwritten by its first transition.
  have hcommitted : committed.core = coord.core.act (.commit unit) := by
    have hid : unit.record.requestId = env.item "request_id" := (applied_fixed happlied).1
    rw [hcore, hcreated]
    simp only [Core.act, core, hid, OrderedDict.insert_insert]
  simp only [happlied, htransition]
  by_cases hchain : (permitted && (if permitted then first else
      (first :: rest).getLast (cons_ne_nil _ _)).chain.truthy) = true
  · simp only [if_pos hchain]
    have hrouted := routeAdmitted_carriesOut committed unit.entry
      (if permitted then first else (first :: rest).getLast (cons_ne_nil _ _)).chain
      (env.item "event_id") coord.config
    rw [hcommitted] at hrouted
    exact hrouted
  · simp only [if_neg hchain]
    exact ⟨hcommitted, rfl⟩

theorem apply_carriesOut (entry : RequestState) (event env : Json) :
    Outcome.CarriesOut (coord.apply entry event env) coord.core
      (applyDecision (coord.pinned entry) entry event (env.item "event_id")) := by
  simp only [apply, applyDecision]
  rcases (coord.pinned entry).rows entry.lifecycleState event with raised | (_ | rows)
  · exact ⟨rfl, rfl⟩
  · exact ⟨core_fault _ _ _, rfl⟩
  dsimp only
  rcases pickRow rows entry (coord.pinned entry) with raised | (_ | ⟨row, guardResult⟩)
  · exact ⟨rfl, rfl⟩
  · exact ⟨core_fault _ _ _, rfl⟩
  rcases coord.transition_eq entry event (env.item "event_id") row guardResult
    (coord.pinned entry) none with
    ⟨raised, happlied, htransition⟩ | ⟨unit, committed, happlied, htransition, hcore⟩
  · simp only [happlied, htransition]
    exact ⟨rfl, rfl⟩
  · simp only [happlied, htransition]
    exact ⟨hcore, rfl⟩

theorem handleConfig_carriesOut (env : Json) :
    Outcome.CarriesOut ⟨coord.handleConfig env, .ok ()⟩ coord.core (configDecision env) := by
  simp only [handleConfig, configDecision]
  rcases ConfigView.ofData ((env.item "payload").item "snapshot") with reason | view
  · exact ⟨core_fault _ _ _, rfl⟩
  · exact ⟨core_logRecord (coord.install view) (configRecord view), rfl⟩

end

theorem core_foldl_cleanup (items : List (Json × RequestState))
    (hitems : (items.map Prod.fst).Nodup)
    (start : Coordinator) (hget : ∀ item ∈ items, start.ledger.get? item.1 = some item.2) :
    ((items.map Prod.fst).foldl cleanup start).core =
      start.core.perform ((items.filter fun item ↦ item.2.lifecycleState ∈ terminalStates).map
        fun item ↦ .clean item.1 item.2) := by
  induction items generalizing start with
  | nil => rfl
  | cons item rest ih =>
    obtain ⟨requestId, entry⟩ := item
    have hentry : start.ledger.get? requestId = some entry := hget _ mem_cons_self
    simp only [map_cons, nodup_cons] at hitems
    rw [map_cons, foldl_cons]
    by_cases hterminal : entry.lifecycleState ∈ terminalStates
    · have hcleaned : (start.cleanup requestId).core = start.core.act (.clean requestId entry) := by
        simp only [cleanup, hentry, if_pos hterminal, Core.act, ← core_logRecord]
        rw [ledger_logRecord]
        rfl
      rw [ih hitems.2, hcleaned, filter_cons_of_pos (by simpa using hterminal)]
      · rfl
      · intro other hother
        have hne : requestId ≠ other.1 := fun heq ↦ hitems.1 (heq ▸ mem_map_of_mem hother)
        change (start.cleanup requestId).core.ledger.get? other.1 = some other.2
        rw [hcleaned]
        change (start.ledger.erase requestId).get? other.1 = some other.2
        rw [OrderedDict.get?_erase_of_ne _ hne, hget _ (mem_cons_of_mem _ hother)]
    · have hkept : start.cleanup requestId = start := by
        simp only [cleanup, hentry, if_neg hterminal]
      rw [hkept, ih hitems.2 start fun other hother ↦ hget _ (mem_cons_of_mem _ hother),
        filter_cons_of_neg (by simpa using hterminal)]

theorem handleSession_carriesOut (name : Json) :
    Outcome.CarriesOut ⟨coord.handleSession name, .ok ()⟩ coord.core
      (sessionDecision coord.ledger name) := by
  refine ⟨?_, rfl⟩
  have hmarked := core_logRecord coord (sessionRecord name coord.config)
  have hledger := ledger_logRecord coord (sessionRecord name coord.config)
  simp only [handleSession, sessionDecision]
  by_cases hsleep : name = .str "session.sleep"
  · simp only [if_pos hsleep, hledger]
    have hclean := core_foldl_cleanup coord.ledger.items coord.ledger.nodup
      (coord.logRecord (sessionRecord name coord.config)) fun item hitem ↦ by
        rw [hledger]
        exact (OrderedDict.get?_eq_some_iff _).mpr hitem
    rw [hmarked] at hclean
    exact hclean
  · simp only [if_neg hsleep]
    exact hmarked

theorem handleRequest_carriesOut (env : Json) :
    Outcome.CarriesOut (coord.handleRequest env) coord.core
      (requestDecision (coord.ledger.get? (env.item "request_id")) coord.configs coord.config
        coord.halted coord.ledger.activeCount env) := by
  simp only [handleRequest, requestDecision]
  by_cases hhashable : (!(env.item "request_id").hashable) = true
  · simp only [if_pos hhashable]
    exact ⟨rfl, rfl⟩
  simp only [if_neg hhashable]
  rcases hentry : coord.ledger.get? (env.item "request_id") with _ | entry
  · by_cases hreceived : env.item "event_name" = .str "request.received"
    · simp only [if_pos hreceived]
      exact admit_carriesOut coord env hentry
    · simp only [if_neg hreceived]
      rcases env.item "event_name" with _ | _ | _ | _ | text | _ | _
      case str => exact ⟨core_fault _ _ _, rfl⟩
      all_goals exact ⟨rfl, rfl⟩
  · by_cases hduplicate : env.item "event_id" = entry.lastAppliedEventId
    · simp only [if_pos hduplicate]
      exact ⟨core_logRecord _ _, rfl⟩
    simp only [if_neg hduplicate]
    by_cases hreceived : env.item "event_name" = .str "request.received"
    · simp only [if_pos hreceived]
      exact ⟨core_fault _ _ _, rfl⟩
    · simp only [if_neg hreceived]
      exact apply_carriesOut coord entry (env.item "event_name") env

theorem core_handle (env : Json) :
    Outcome.CarriesOut (coord.handle env) coord.core (coord.core.decide coord.halted env) := by
  simp only [handle, Core.decide, core_config]
  rcases Envelope.validate env coord.config.inboundEvents with reason | _
  · exact ⟨core_fault _ _ _, rfl⟩
  by_cases hconfig : env.item "event_name" = .str "config.changed"
  · simp only [if_pos hconfig]
    exact handleConfig_carriesOut coord env
  simp only [if_neg hconfig]
  by_cases hsession : env.item "event_name" ∈ sessionEvents
  · simp only [if_pos hsession]
    exact handleSession_carriesOut coord _
  simp only [if_neg hsession]
  exact handleRequest_carriesOut coord env

theorem core_step (env : Json) :
    (coord.step env).core = coord.core.step (coord.halted, env) :=
  (core_handle coord env).1

/-- The envelopes of a run, each with the halt flag it is handled under. -/
def inputs (coord : Coordinator) : List Json → List (Bool × Json)
  | [] => []
  | env :: rest => (coord.halted, env) :: (coord.step env).inputs rest

theorem core_run (envs : List Json) :
    (coord.run envs).core = coord.core.run (coord.inputs envs) := by
  induction envs generalizing coord with
  | nil => rfl
  | cons env rest ih =>
    change ((coord.step env).run rest).core = (coord.core.step (coord.halted, env)).run _
    rw [ih, core_step]

@[simp] theorem map_snd_inputs (envs : List Json) :
    (coord.inputs envs).map Prod.snd = envs := by
  induction envs generalizing coord with
  | nil => rfl
  | cons env rest ih => rw [inputs, map_cons, ih]

theorem run_append (first second : List Json) :
    coord.run (first ++ second) = (coord.run first).run second :=
  foldl_append

end Coordinator

namespace Core

/-- The core with an earlier log and earlier publications put before its own. -/
def resumed (past core : Core) : Core :=
  { core with log := past.log ++ core.log, published := past.published ++ core.published }

def bare (core : Core) : Core := { core with log := [], published := [] }

theorem resumed_bare (core : Core) : resumed core core.bare = core := by
  simp [resumed, bare]

theorem resumed_act (past core : Core) (action : Action) :
    resumed past (core.act action) = (resumed past core).act action := by
  cases action <;> simp [resumed, act, logRecord, install]

theorem resumed_step (past core : Core) (input : Bool × Json) :
    resumed past (core.step input) = (resumed past core).step input :=
  (foldl_hom (resumed past) fun core action ↦ (resumed_act past core action).symm).symm

end Core

end AbsoluteZero.Kernel

import AbsoluteZero.Kernel.Delivery
import AbsoluteZero.Kernel.Lifecycle
import AbsoluteZero.Kernel.Possible

/-!
# What one envelope can do under the shipped table

`Core.Legal` says when an action may be performed on behalf of an envelope. Under snapshots that
carry the shipped table the decision on an envelope is a sequence of legal actions, so what every
legal action keeps holds in every run of the coordinator (`Coordinator.run_induction`).
-/

namespace AbsoluteZero.Kernel

open Foundations

/-- An envelope that, if it changes the configuration, ships the transition table. -/
def ShipsTable (env : Json) : Prop :=
  env.item "event_name" = .str "config.changed" → ∀ view,
    ConfigView.ofData ((env.item "payload").item "snapshot") = .ok view → view.ShippedTable

variable {env : Json}

theorem shipsTable_of_ne (hname : env.item "event_name" ≠ .str "config.changed") :
    ShipsTable env := fun hconfig ↦ absurd hconfig hname

theorem shipsTable_of_forall_ne {envs : List Json}
    (hnames : ∀ env ∈ envs, env.item "event_name" ≠ .str "config.changed") :
    ∀ env ∈ envs, ShipsTable env := fun env henv ↦ shipsTable_of_ne (hnames env henv)

theorem shipsTable_of_transitions
    (htable : ((env.item "payload").item "snapshot").item "transitions" = .obj transitions) :
    ShipsTable env := fun _ view hview ↦ shippedTable_of_table (by
  rw [ConfigView.transitionTable, ConfigView.data_of_ofData hview]
  exact htable)

def routingRule (target : Option String) : Rule := if target.isSome then .route else .misroute

def routingUnit (entry : RequestState) (eventId : Json) (config : ConfigView) : Applied :=
  (routingRule (route entry.declaredType config).1).unit entry eventId config
    (some [("routing_target", (route entry.declaredType config).1.elim .null .str),
      ("reason", .str (route entry.declaredType config).2)])

def admissionUnit (rule : Rule) (env : Json) (config : ConfigView) (reason : String) : Applied :=
  rule.unit (Coordinator.admittedEntry env config) (env.item "event_id") config
    (some [("declared_type", (Coordinator.admittedEntry env config).declaredType),
      ("reason", .str reason)])

variable {config : ConfigView}

theorem routeDecision_of_shipped (hconfig : config.ShippedTable)
    {entry : RequestState} (hentry : entry.lifecycleState = Phase.initialized.state)
    (eventId : Json) : routeDecision entry (.str "__routing__") eventId config =
      { actions := [.commit (routingUnit entry eventId config)] } := by
  have hrows : config.rows entry.lifecycleState (.str "__routing__") =
      .ok (some [Rule.route.row, Rule.misroute.row]) := by
    rw [hentry, rows_of_shipped hconfig]
    rfl
  simp only [routeDecision, hrows, routingUnit]
  cases htarget : (route entry.declaredType config).1 with
  | none =>
    exact congrArg Decision.commit (applied_rule .misroute entry eventId config
      (some [("routing_target", .null), ("reason", .str (route entry.declaredType config).2)]))
  | some target =>
    exact congrArg Decision.commit (applied_rule .route entry eventId config
      (some [("routing_target", .str target),
        ("reason", .str (route entry.declaredType config).2)]))

/-- Under a shipped table an admission that does not raise commits a rejection, or an admission
and its routing. -/
theorem admitDecision_of_shipped (hconfig : config.ShippedTable)
    (halted : Bool) (active : Nat) (hid : (env.item "request_id").nonemptyStr = true) :
    admitDecision config halted active env = match admissionDecide env config halted active with
      | .error raised =>
        { actions := [.strand (Coordinator.admittedEntry env config)], result := .error raised }
      | .ok (false, reason) => { actions := [.commit (admissionUnit .reject env config reason)] }
      | .ok (true, reason) =>
        { actions := [.commit (admissionUnit .accept env config reason),
            .commit (routingUnit (admissionUnit .accept env config reason).entry
              (env.item "event_id") config)] } := by
  have hrows : config.rows (.str "created") (.str "request.received") =
      .ok (some [Rule.accept.row, Rule.reject.row]) := rows_of_shipped hconfig .created _
  simp only [admitDecision, hid, hrows]
  rcases admissionDecide env config halted active with raised | ⟨_ | _, reason⟩
  · rfl
  · rfl
  · have hinitialized : (admissionUnit .accept env config reason).entry.lifecycleState =
        Phase.initialized.state := rfl
    have hrouting := routeDecision_of_shipped hconfig hinitialized (env.item "event_id")
    exact congrArg (fun routing : Decision ↦
      ({ actions := .commit (admissionUnit .accept env config reason) :: routing.actions
         result := routing.result } : Decision)) hrouting

/-- Under a shipped table an event applied to an entry has no row or raises, or commits an enabled
rule that leaves the phase of the entry. -/
theorem applyDecision_cases (hconfig : config.ShippedTable) {phase : Phase}
    {entry : RequestState} (hentry : entry.lifecycleState = phase.state) (event eventId : Json) :
    ((applyDecision config entry event eventId).actions = [] ∧ ∀ rows picked,
        config.rows entry.lifecycleState event = .ok (some rows) →
          pickRow rows entry config ≠ .ok (some picked)) ∨
      ∃ rule : Rule, rule.source = phase ∧ event = .str rule.event ∧ rule.Enabled entry config ∧
        applyDecision config entry event eventId =
          { actions := [.commit (rule.unit entry eventId config none)] } := by
  by_cases hstring : ∃ text, event = .str text
  · obtain ⟨text, rfl⟩ := hstring
    simp only [applyDecision, hentry, rows_of_shipped hconfig]
    cases hrules : rulesAt phase text with
    | none => exact Or.inl ⟨rfl, fun rows picked hrows ↦ by cases hrows⟩
    | some rules =>
      simp only [Option.map_some]
      rcases pickRow_rules hrules entry config with ⟨raised, hpick⟩ | ⟨rule, hrule, hpick, henabled⟩
      · simp only [hpick]
        refine Or.inl ⟨trivial, fun rows picked hrows ↦ ?_⟩
        cases hrows
        simp [hpick]
      · obtain ⟨hsource, hevent⟩ := source_event_of_mem hrules hrule
        refine Or.inr ⟨rule, hsource, congrArg Json.str hevent.symm, henabled, ?_⟩
        simp only [hpick]
        rw [← hevent]
        exact congrArg Decision.commit (applied_rule rule entry eventId config none)
  · have hraises : ∃ raised, config.rows entry.lifecycleState event = .error raised := by
      rw [hentry]
      cases event <;> first | exact ⟨_, rfl⟩ | exact absurd ⟨_, rfl⟩ hstring
    obtain ⟨raised, hrows⟩ := hraises
    simp only [applyDecision, hrows]
    exact Or.inl ⟨trivial, fun rows picked hok ↦ by cases hok⟩

/-- What holds of the entry of a request id: it carries the id, its state is a phase, and the
snapshot it is pinned to is cached. -/
structure RequestState.Sound (configs : ConfigCache) (requestId : Json) (entry : RequestState) :
    Prop where
  id : entry.requestId = requestId
  nonempty : requestId.nonemptyStr = true
  phase : ∃ phase : Phase, entry.lifecycleState = phase.state
  pinned : ∃ view, configs.at? entry.configVersion = some view

/-- The snapshots carry the shipped table and are cached under their own versions, the current one
among them, and the entries are sound. -/
structure Core.Sound (core : Core) : Prop where
  shipped : ∀ version view, core.configs.at? version = some view → view.ShippedTable
  keyed : ∀ version view, core.configs.at? version = some view →
    ConfigView.versionKey? version = ConfigView.versionKey? view.version
  current : core.configs.at? core.config.version = some core.config
  entries : ∀ requestId entry, core.ledger.get? requestId = some entry →
    entry.Sound core.configs requestId

namespace Core

/-- The snapshot that decides the transitions of an entry. -/
def pinned (core : Core) (entry : RequestState) : ConfigView :=
  pinnedView core.configs core.config entry

variable {core : Core}

theorem Sound.shippedTable (hcore : core.Sound) : core.config.ShippedTable :=
  hcore.shipped _ _ hcore.current

theorem Sound.shippedTable_pinned (hcore : core.Sound) (entry : RequestState) :
    (core.pinned entry).ShippedTable := by
  unfold pinned pinnedView
  cases hview : core.configs.at? entry.configVersion with
  | none => exact hcore.shippedTable
  | some view => exact hcore.shipped _ _ hview

theorem at?_init (view : ConfigView) (version : Json) : (init view).configs.at? version =
      if ConfigView.versionKey? version = ConfigView.versionKey? view.version then some view
      else none := by
  change (ConfigCache.put _ view).at? version = _
  rw [ConfigCache.at?_put]
  cases hversion : ConfigView.versionKey? version <;> simp [ConfigCache.at?, hversion]

/-- What holds of the first snapshot holds of every snapshot cached at the start. -/
theorem of_at?_init {view : ConfigView} {property : Json → ConfigView → Prop}
    (hview : ∀ version, ConfigView.versionKey? version = ConfigView.versionKey? view.version →
      property version view) (version : Json) (other : ConfigView)
    (hother : (init view).configs.at? version = some other) : property version other := by
  rw [at?_init] at hother
  split at hother
  · next hversion =>
    cases hother
    exact hview version hversion
  · cases hother

theorem sound_init {view : ConfigView} (hview : view.ShippedTable) : (init view).Sound where
  shipped := of_at?_init fun _ _ ↦ hview
  keyed := of_at?_init fun _ hversion ↦ hversion
  current := ConfigCache.at?_put_self
  entries requestId entry hentry := by cases hentry

/-- The actions that may be performed on behalf of an envelope. -/
inductive Legal (core : Core) (env : Json) : Action → Prop
  | configure {view : ConfigView} (hinstalls : core.Installs env view) :
      Legal core env (.configure view)
  | mark (hname : env.item "event_name" ∈ sessionEvents) :
      Legal core env (.mark (env.item "event_name"))
  | absorb {entry : RequestState} (hentry : core.ledger.get? (env.item "request_id") = some entry)
      (hid : env.item "event_id" = entry.lastAppliedEventId)
      (hname : (env.item "event_name").isIn core.config.inboundEvents = true)
      (hconfig : env.item "event_name" ≠ .str "config.changed")
      (hsession : env.item "event_name" ∉ sessionEvents) : Legal core env (.absorb entry env)
  | strand (hnew : core.Newcomer env) :
      Legal core env (.strand (Coordinator.admittedEntry env core.config))
  | admission {rule : Rule} {reason : String} (hnew : core.Newcomer env)
      (hrule : rule = .accept ∨ rule = .reject) (hid : (env.item "event_id").nonemptyStr = true) :
      Legal core env (.commit (admissionUnit rule env core.config reason))
  | advance {entry : RequestState} {rule : Rule} {info : Option (List (String × Json))}
      (hconfig : env.item "event_name" ≠ .str "config.changed")
      (hentry : core.ledger.get? (env.item "request_id") = some entry)
      (hsource : entry.lifecycleState = rule.source.state)
      (henabled : rule.Enabled entry (core.pinned entry))
      (hid : (env.item "event_id").nonemptyStr = true) :
      Legal core env (.commit (rule.unit entry (env.item "event_id") (core.pinned entry) info))
  | clean {requestId : Json} {entry : RequestState}
      (hname : env.item "event_name" = .str "session.sleep")
      (hentry : core.ledger.get? requestId = some entry)
      (hterminal : entry.lifecycleState ∈ terminalStates) :
      Legal core env (.clean requestId entry)

/-- A sequence of actions each of which is legal where it is performed. -/
def Follows (core : Core) (env : Json) (actions : List Action) : Prop :=
  IsPlan act (Legal · env) core actions

/-! ### Legal actions keep cores sound -/

variable {entry : RequestState}

theorem Sound.insert (hcore : core.Sound) {requestId : Json}
    (hentry : entry.Sound core.configs requestId) (log : List Record)
    (published : List Publication) : Sound { core with
      ledger := core.ledger.insert requestId entry, log := log, published := published } :=
  { hcore with
    entries other found hfound := by
      rw [OrderedDict.get?_insert] at hfound
      split at hfound
      · next hid =>
        cases hfound
        exact hid ▸ hentry
      · exact hcore.entries other found hfound }

theorem Sound.erase (hcore : core.Sound) (requestId : Json) (log : List Record)
    (published : List Publication) : Sound { core with
      ledger := core.ledger.erase requestId, log := log, published := published } :=
  { hcore with
    entries other found hfound := hcore.entries other found (OrderedDict.get?_of_erase hfound).2 }

variable {env : Json}

theorem Newcomer.sound (hcore : core.Sound) (hnew : core.Newcomer env) :
    (Coordinator.admittedEntry env core.config).Sound core.configs (env.item "request_id") where
  id := rfl
  nonempty := hnew.nonempty
  phase := ⟨.created, rfl⟩
  pinned := ⟨core.config, hcore.current⟩

theorem unit_sound {configs : ConfigCache}
    {requestId : Json} (hentry : entry.Sound configs requestId) (rule : Rule)
    (eventId : Json) (config : ConfigView) (info : Option (List (String × Json))) :
    (rule.unit entry eventId config info).entry.Sound configs requestId where
  id := by rw [requestId_unit, hentry.id]
  nonempty := hentry.nonempty
  phase := ⟨rule.target, rfl⟩
  pinned := by
    rw [configVersion_unit]
    exact hentry.pinned

theorem Sound.act (hcore : core.Sound) (henv : ShipsTable env)
    {action : Action} (hlegal : core.Legal env action) : (core.act action).Sound := by
  cases hlegal with
  | @configure view hinstalls =>
    refine ⟨ConfigCache.of_at?_put hcore.shipped fun _ _ ↦ henv hinstalls.2.1 view hinstalls.2.2,
      ConfigCache.of_at?_put hcore.keyed fun _ hversion ↦ hversion, ConfigCache.at?_put_self,
      fun requestId entry hentry ↦ ?_⟩
    have hold := hcore.entries requestId entry hentry
    exact { hold with pinned := ConfigCache.exists_at?_put hold.pinned }
  | mark | absorb => exact { hcore with }
  | strand hnew => exact hcore.insert (hnew.sound hcore) _ _
  | admission hnew => exact hcore.insert (unit_sound (hnew.sound hcore) _ _ _ _) _ _
  | advance _ hentry =>
    have hsound := hcore.entries _ _ hentry
    rw [Core.act, requestId_record_unit, hsound.id]
    exact hcore.insert (unit_sound hsound _ _ _ _) _ _
  | clean => exact hcore.erase _ _ _

theorem validate_nonempty {names : List Json} (hvalid : Envelope.validate env names = .ok ()) :
    (env.item "event_id").nonemptyStr = true ∧ (env.item "event_name").isIn names = true := by
  unfold Envelope.validate at hvalid
  split at hvalid
  · split at hvalid
    · cases hvalid
    · split at hvalid
      · cases hvalid
      · next hid =>
        split at hvalid
        · cases hvalid
        · next hname => exact ⟨by simpa using hid, by simpa using hname⟩
  · cases hvalid

theorem follows_admit (hcore : core.Sound) (hnew : core.Newcomer env) (halted : Bool)
    (active : Nat) : core.Follows env (admitDecision core.config halted active env).actions := by
  have hid := (validate_nonempty hnew.valid).1
  rw [admitDecision_of_shipped hcore.shippedTable halted active hnew.nonempty]
  rcases admissionDecide env core.config halted active with raised | ⟨_ | _, reason⟩
  · exact ⟨.strand hnew, trivial⟩
  · exact ⟨.admission hnew (Or.inr rfl) hid, trivial⟩
  · refine ⟨.admission hnew (Or.inl rfl) hid, ?_, trivial⟩
    -- The entry that is routed is the one just committed, pinned to the current snapshot.
    generalize hunit : admissionUnit .accept env core.config reason = unit
    have hentry : (core.act (.commit unit)).ledger.get? (env.item "request_id") =
        some unit.entry := by
      subst hunit
      exact OrderedDict.get?_insert_self _ _ _
    have hpinned : (core.act (.commit unit)).pinned unit.entry = core.config := by
      subst hunit
      change (core.configs.at? core.config.version).getD core.config = core.config
      rw [hcore.current]
      rfl
    have hsource : unit.entry.lifecycleState =
        (routingRule (route unit.entry.declaredType core.config).1).source.state := by
      subst hunit
      unfold routingRule
      split <;> rfl
    have henabled : (routingRule (route unit.entry.declaredType core.config).1).Enabled unit.entry
        ((core.act (.commit unit)).pinned unit.entry) := by
      unfold routingRule
      split <;> trivial
    have hroute := @Legal.advance _ env _ _ (some [("routing_target",
        (route unit.entry.declaredType core.config).1.elim .null .str),
      ("reason", .str (route unit.entry.declaredType core.config).2)]) (by rw [hnew.name]; decide)
      hentry hsource henabled hid
    rw [hpinned] at hroute
    exact hroute

theorem follows_apply (hcore : core.Sound) (hconfig : env.item "event_name" ≠ .str "config.changed")
    (hid : (env.item "event_id").nonemptyStr = true)
    (hentry : core.ledger.get? (env.item "request_id") = some entry) :
    core.Follows env (applyDecision (core.pinned entry) entry (env.item "event_name")
      (env.item "event_id")).actions := by
  obtain ⟨phase, hphase⟩ := (hcore.entries _ _ hentry).phase
  rcases applyDecision_cases (hcore.shippedTable_pinned entry) hphase (env.item "event_name")
    (env.item "event_id") with ⟨hnone, -⟩ | ⟨rule, hsource, hevent, henabled, hdecision⟩
  · rw [hnone]
    trivial
  · rw [hdecision]
    exact ⟨.advance hconfig hentry (by rw [hphase, hsource]) henabled hid, trivial⟩

theorem decide_follows (hcore : core.Sound) (halted : Bool) (env : Json) :
    core.Follows env (core.decide halted env).actions := by
  apply decide_cases (motive := fun decision ↦ core.Follows env decision.actions)
  case quiet => exact fun _ ↦ trivial
  case configure => exact fun view hview ↦ ⟨.configure hview, trivial⟩
  case session =>
    exact fun _ hsession ↦ isPlan_sessionDecision (.mark hsession) fun hsleep _ _ _ ↦ .clean hsleep
  case absorb =>
    exact fun entry hvalid henv hentry hduplicate ↦
      ⟨.absorb hentry hduplicate (validate_nonempty hvalid).2 henv.1 henv.2, trivial⟩
  case apply =>
    exact fun entry hvalid henv hentry ↦
      follows_apply hcore henv.1 (validate_nonempty hvalid).1 hentry
  case newcomer => exact fun hnew _ ↦ follows_admit hcore hnew halted _

theorem perform_induction (Holds : Core → Prop) (henv : ShipsTable env)
    (hact : ∀ core action, core.Sound → core.Legal env action → Holds core →
      Holds (core.act action)) (actions : List Action) (hcore : core.Sound)
    (hfollows : core.Follows env actions) (hholds : Holds core) :
    (core.perform actions).Sound ∧ Holds (core.perform actions) :=
  IsPlan.keeps (fun found ↦ found.Sound ∧ Holds found)
    (fun _ _ hlegal hfound ↦ ⟨hfound.1.act henv hlegal, hact _ _ hfound.1 hlegal hfound.2⟩) hfollows
    ⟨hcore, hholds⟩

theorem Sound.step (hcore : core.Sound) (henv : ShipsTable env)
    (halted : Bool) : (core.step (halted, env)).Sound :=
  (perform_induction (fun _ ↦ True) henv (fun _ _ _ _ _ ↦ trivial) _ hcore
    (decide_follows hcore halted env) trivial).1

theorem Sound.run (hcore : core.Sound) {inputs : List (Bool × Json)}
    (hships : ∀ input ∈ inputs, ShipsTable input.2) : (core.run inputs).Sound :=
  List.foldlRecOn inputs Core.step hcore fun _ hstate input hinput ↦
    hstate.step (hships input hinput) input.1

end Core

theorem Coordinator.sound_run {bus : Bus} (hcalls : bus.calls = []) (clock : Nat → Json)
    {view : ConfigView} (hview : view.ShippedTable) {envs : List Json}
    (hships : ∀ env ∈ envs, ShipsTable env) : ((init bus clock view).run envs).core.Sound := by
  rw [core_run, core_init bus clock view hcalls]
  refine (Core.sound_init hview).run fun input hinput ↦ hships input.2 ?_
  rw [← map_snd_inputs (init bus clock view) envs]
  exact List.mem_map_of_mem hinput

/-- What holds of a new core and is kept by every legal action holds in every run of a new
coordinator, whatever the bus and the clock do. -/
theorem Coordinator.run_induction (Holds : Core → Prop) {bus : Bus} (hcalls : bus.calls = [])
    (clock : Nat → Json) {view : ConfigView} (hview : view.ShippedTable) {envs : List Json}
    (hships : ∀ env ∈ envs, ShipsTable env) (hinit : Holds (Core.init view))
    (hact : ∀ core env action, core.Sound → core.Legal env action → Holds core →
      Holds (core.act action)) : Holds ((init bus clock view).run envs).core := by
  induction envs using List.reverseRecOn with
  | nil => rwa [run, List.foldl_nil, core_init bus clock view hcalls]
  | append_singleton envs env ih =>
    have hbefore := ih fun other hother ↦ hships other (List.mem_append_left _ hother)
    have hsound := sound_run hcalls clock hview fun other hother ↦
      hships other (List.mem_append_left [env] hother)
    rw [run_append]
    change Holds (((init bus clock view).run envs).step env).core
    rw [core_step]
    exact (Core.perform_induction Holds (hships env (by simp))
      (fun core action ↦ hact core env action) _ hsound (Core.decide_follows hsound _ env)
      hbefore).2

/-- The coordinator of the selftests: a bus that never raises, the default clock and the default
snapshot. -/
def Coordinator.selftest : Coordinator :=
  init { accepts := fun _ ↦ true } (fun _ ↦ .int 0) defaultView

end AbsoluteZero.Kernel

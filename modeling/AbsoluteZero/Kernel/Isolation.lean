import AbsoluteZero.Kernel.History
import Mathlib.Data.List.Infix

/-!
# Requests do not interfere

`Core.only` keeps of a core what is about one request. An event of another request leaves this part
alone, and an event of the request itself moves it as it would move a core with no other request
(`Core.only_run`), as long as the number of active requests refuses no admission
(`Coordinator.isolated`).
-/

namespace AbsoluteZero.Kernel

open Foundations OrderedDict List

def Publication.requestId : Publication → Json
  | .record logged => logged.requestId
  | .emission sent => sent.requestId

def Core.only (core : Core) (requestId : Json) : Core :=
  { core with
    ledger := core.ledger.only requestId
    log := core.log.filter fun record ↦ record.requestId = requestId
    published := core.published.filter fun publication ↦ publication.requestId = requestId }

/-- An action that reads and writes nothing but the entry of one request. -/
def Action.About (requestId : Json) : Action → Prop
  | .absorb entry _ => entry.requestId = requestId
  | .strand entry => entry.requestId = requestId
  | .commit unit => unit.record.requestId = requestId ∧
      ∀ publication ∈ unit.publications, publication.requestId = requestId
  | .configure _ | .mark _ | .clean _ _ => False

variable {requestId : Json} {action : Action}

theorem Core.only_act_self (haction : action.About requestId)
    (core : Core) : (core.act action).only requestId = (core.only requestId).act action := by
  cases action with
  | absorb entry env =>
    change entry.requestId = requestId at haction
    simp [only, act, logRecord, Publication.requestId, Coordinator.noopRecord, haction]
  | strand entry =>
    change entry.requestId = requestId at haction
    simp only [only, act, haction, only_insert_self]
  | commit unit =>
    obtain ⟨hrecord, hpublications⟩ := haction
    have hall : unit.publications.filter (fun publication ↦ publication.requestId = requestId) =
        unit.publications :=
      filter_eq_self.mpr fun publication hmem ↦ by simpa using hpublications publication hmem
    simp [only, act, hrecord, only_insert_self, hall]
  | configure | mark | clean => exact haction.elim

theorem Core.only_act_of_ne {requestId other : Json}
    (haction : action.About other) (hne : other ≠ requestId) (core : Core) :
    (core.act action).only requestId = core.only requestId := by
  cases action with
  | absorb entry env =>
    change entry.requestId = other at haction
    simp [only, act, logRecord, Publication.requestId, Coordinator.noopRecord, haction, hne]
  | strand entry =>
    change entry.requestId = other at haction
    simp only [only, act, haction, only_insert_of_ne _ _ hne]
  | commit unit =>
    obtain ⟨hrecord, hpublications⟩ := haction
    have hnone : unit.publications.filter (fun publication ↦ publication.requestId = requestId) =
        [] :=
      filter_eq_nil_iff.mpr fun publication hmem ↦ by
        simpa [hpublications publication hmem] using hne
    simp [only, act, hrecord, only_insert_of_ne _ _ hne, hne, hnone]
  | configure | mark | clean => exact haction.elim

theorem publications_about (rule : Rule) (entry : RequestState) (eventId : Json)
    (config : ConfigView) (info : Option (List (String × Json))) :
    ∀ publication ∈ (rule.unit entry eventId config info).publications,
      publication.requestId = entry.requestId := by
  intro publication hpublication
  rw [publications_unit] at hpublication
  rcases mem_cons.mp hpublication with rfl | hemission
  · rfl
  · obtain ⟨emission, hmem, rfl⟩ := mem_map.mp hemission
    exact (announces_unit rule entry eventId config info).request emission hmem

variable {core : Core} {env : Json}

theorem Core.Legal.about (hsound : core.Sound)
    (henv : PerRequest env) (hlegal : core.Legal env action) :
    action.About (env.item "request_id") := by
  cases hlegal with
  | configure hinstalls => exact absurd hinstalls.2.1 henv.1
  | mark hname => exact absurd hname henv.2
  | absorb hentry => exact (hsound.entries _ _ hentry).id
  | strand => rfl
  | admission => exact ⟨rfl, publications_about _ _ _ _ _⟩
  | advance _ hentry =>
    have hid := (hsound.entries _ _ hentry).id
    exact ⟨hid, fun publication hmem ↦ (publications_about _ _ _ _ _ publication hmem).trans hid⟩
  | clean hname => exact absurd (by rw [hname]; decide) henv.2

variable {actions : List Action}

theorem Core.Follows.about (hsound : core.Sound) (henv : PerRequest env)
    (hfollows : core.Follows env actions) :
    ∀ action ∈ actions, action.About (env.item "request_id") := by
  induction actions generalizing core with
  | nil => simp
  | cons action rest ih =>
    intro other hother
    rcases mem_cons.mp hother with rfl | hrest
    · exact hfollows.1.about hsound henv
    · exact ih (hsound.act (shipsTable_of_ne henv.1) hfollows.1) hfollows.2 other hrest

theorem Core.only_perform_self
    (hactions : ∀ action ∈ actions, action.About requestId) (core : Core) :
    (core.perform actions).only requestId = (core.only requestId).perform actions := by
  induction actions generalizing core with
  | nil => rfl
  | cons action rest ih =>
    change ((core.act action).perform rest).only requestId =
      ((core.only requestId).act action).perform rest
    rw [ih (fun other hother ↦ hactions other (mem_cons_of_mem _ hother)),
      only_act_self (hactions action mem_cons_self)]

theorem Core.only_perform_of_ne {requestId other : Json} (hne : other ≠ requestId)
    (hactions : ∀ action ∈ actions, action.About other) (core : Core) :
    (core.perform actions).only requestId = core.only requestId := by
  induction actions generalizing core with
  | nil => rfl
  | cons action rest ih =>
    change ((core.act action).perform rest).only requestId = core.only requestId
    rw [ih (fun action haction ↦ hactions action (mem_cons_of_mem _ haction)),
      only_act_of_ne (hactions action mem_cons_self) hne]

/-- The number of active requests enters an admission only through its bound. -/
theorem admissionDecide_of_active_lt {config : ConfigView} {active other : Nat}
    (hactive : (active : Int) < config.maxActiveRequests)
    (hother : (other : Int) < config.maxActiveRequests) (env : Json) (halted : Bool) :
    admissionDecide env config halted active = admissionDecide env config halted other := by
  simp only [admissionDecide, Int.not_le.mpr hactive, Int.not_le.mpr hother]

theorem requestDecision_of_active_lt {config : ConfigView} {active other : Nat}
    (hactive : (active : Int) < config.maxActiveRequests)
    (hother : (other : Int) < config.maxActiveRequests) (held? : Option RequestState)
    (configs : ConfigCache) (halted : Bool) (env : Json) :
    requestDecision held? configs config halted active env =
      requestDecision held? configs config halted other env := by
  simp only [requestDecision, admitDecision, admissionDecide_of_active_lt hactive hother]

theorem activeCount_only_le (ledger : Ledger) (requestId : Json) :
    Ledger.activeCount (OrderedDict.only ledger requestId) ≤ ledger.activeCount :=
  ((filter_sublist.map Prod.snd).filter _).length_le

theorem Core.decide_only (henv : PerRequest env)
    (hactive : (core.ledger.activeCount : Int) < core.config.maxActiveRequests) (halted : Bool) :
    (core.only (env.item "request_id")).decide halted env = core.decide halted env := by
  have honly : (Ledger.activeCount (core.ledger.only (env.item "request_id")) : Int) <
      core.config.maxActiveRequests :=
    Int.lt_of_le_of_lt (Int.ofNat_le.mpr (activeCount_only_le _ _)) hactive
  simp only [decide, only, if_neg henv.1, if_neg henv.2, get?_only_self,
    requestDecision_of_active_lt honly hactive]

/-- An event of a request moves what is about the request as it would move it alone. -/
theorem Core.only_step_self (hsound : core.Sound) (henv : PerRequest env)
    (hactive : (core.ledger.activeCount : Int) < core.config.maxActiveRequests) (halted : Bool) :
    (core.step (halted, env)).only (env.item "request_id") =
      (core.only (env.item "request_id")).step (halted, env) := by
  rw [step, step, decide_only henv hactive]
  exact only_perform_self ((decide_follows hsound halted env).about hsound henv) core

/-- An event of another request leaves what is about the request alone. -/
theorem Core.only_step_of_ne (hsound : core.Sound)
    (henv : PerRequest env) (hne : env.item "request_id" ≠ requestId)
    (halted : Bool) : (core.step (halted, env)).only requestId = core.only requestId :=
  only_perform_of_ne hne ((decide_follows hsound halted env).about hsound henv) core

/-! ### Runs -/

theorem Core.only_init (view : ConfigView) (requestId : Json) :
    (init view).only requestId = init view := rfl

theorem Core.config_run_of_perRequest (hsound : core.Sound)
    {inputs : List (Bool × Json)} (henvs : ∀ input ∈ inputs, PerRequest input.2) :
    (core.run inputs).config = core.config ∧ (core.run inputs).Sound := by
  refine List.foldlRecOn inputs step (motive := fun state ↦ state.config = core.config ∧
    state.Sound) ⟨rfl, hsound⟩ fun state hstate input hinput ↦ ?_
  have henv := henvs input hinput
  have hkept := perform_induction (fun next ↦ next.config = core.config)
    (shipsTable_of_ne henv.1) (fun next action hnext hlegal hconfig ↦ by
      have habout := hlegal.about hnext henv
      cases action with
      | configure | mark | clean => exact habout.elim
      | absorb | strand => exact hconfig
      | commit => exact hconfig) _ hstate.2 (decide_follows hstate.2 input.1 input.2) hstate.1
  exact ⟨hkept.2, hkept.1⟩

/-- Assumes: events of requests only, and an admission never refused for the number of active
requests. What a run does about a request is what the events of that request do alone. -/
theorem Core.only_run {view : ConfigView} (hview : view.ShippedTable) (requestId : Json)
    (envs : List Json) (henvs : ∀ env ∈ envs, PerRequest env) (hactive : ∀ before, before <+: envs →
      (((init view).run (before.map fun env ↦ (false, env))).ledger.activeCount : Int) <
        view.maxActiveRequests) :
    ((init view).run (envs.map fun env ↦ (false, env))).only requestId =
      (init view).run ((envs.filter fun env ↦ env.item "request_id" = requestId).map
        fun env ↦ (false, env)) := by
  induction envs using List.reverseRecOn with
  | nil => exact only_init view requestId
  | append_singleton envs env ih =>
    have henv := henvs env (by simp)
    have hearlier : ∀ other ∈ envs, PerRequest other := fun other hother ↦
      henvs other (mem_append_left _ hother)
    have hinputs : ∀ input ∈ envs.map fun env ↦ (false, env), PerRequest input.2 :=
      forall_mem_map.mpr hearlier
    obtain ⟨hconfig, hsound⟩ := config_run_of_perRequest (sound_init hview) hinputs
    have hbefore := ih hearlier fun before hearly ↦
      hactive before (hearly.trans (prefix_append envs [env]))
    have hstep : (init view).run ((envs ++ [env]).map fun env ↦ (false, env)) =
        ((init view).run (envs.map fun env ↦ (false, env))).step (false, env) := by
      rw [map_append]
      exact run_concat _ _ (false, env)
    rw [hstep]
    by_cases hid : env.item "request_id" = requestId
    · subst hid
      have hbound := hactive envs (prefix_append envs [env])
      rw [only_step_self hsound henv (by rw [hconfig]; exact hbound) false, hbefore,
        filter_append, filter_cons_of_pos (by simp), filter_nil, map_append]
      exact (run_concat _ _ (false, env)).symm
    · rw [only_step_of_ne hsound henv hid false, hbefore, filter_append,
        filter_cons_of_neg (by simpa using hid), filter_nil, append_nil]

namespace Coordinator

theorem only_only (core : Core) (requestId : Json) :
    (core.only requestId).only requestId = core.only requestId := by
  simp only [Core.only, filter_filter, Bool.and_self, Core.mk.injEq, and_true]
  ext1
  simp [OrderedDict.only, filter_filter]

/-- Two coordinators that agree on a request: its entry, the sequence of its records and the
sequence of its emissions. -/
structure AgreeOn (requestId : Json) (first second : Coordinator) : Prop where
  entry : first.ledger.get? requestId = second.ledger.get? requestId
  records : (first.log.filter fun record ↦ record.requestId = requestId) =
    second.log.filter fun record ↦ record.requestId = requestId
  emissions : (first.outbound.filter fun sent ↦ sent.requestId = requestId).map
      Outbound.toEmission =
    (second.outbound.filter fun sent ↦ sent.requestId = requestId).map Outbound.toEmission

theorem emissions_only (core : Core) (requestId : Json) : (core.only requestId).emissions =
      core.emissions.filter fun emission ↦ emission.requestId = requestId := by
  change (core.published.filter _).filterMap _ = (core.published.filterMap _).filter _
  rw [filter_filterMap, filterMap_filter]
  refine filterMap_congr fun publication _ ↦ ?_
  cases publication with
  | record => simp [Publication.emission?]
  | emission sent => by_cases hid : sent.requestId = requestId <;>
      simp [Publication.emission?, Publication.requestId, Option.filter, hid]

theorem agreeOn_of_only {first second : Coordinator}
    (honly : first.core.only requestId = second.core.only requestId) :
    AgreeOn requestId first second where
  entry := by
    have hledger := congrArg (fun core : Core ↦ core.ledger.get? requestId) honly
    change (first.ledger.only requestId).get? requestId =
      (second.ledger.only requestId).get? requestId at hledger
    rwa [get?_only_self, get?_only_self] at hledger
  records := congrArg Core.log honly
  emissions := by
    have hemissions := congrArg Core.emissions honly
    rw [emissions_only, emissions_only, ← map_toEmission_outbound, ← map_toEmission_outbound,
      filter_map, filter_map] at hemissions
    exact hemissions

/-- Coordinators that agree on a request and have one constant clock published the same envelopes
about it, timestamps included. -/
theorem AgreeOn.outbound {first second : Coordinator} {clock : Nat → Json}
    (hagree : AgreeOn requestId first second) (hclock : ∀ reading, clock reading = clock 0)
    (hfirst : Stamped clock first) (hsecond : Stamped clock second) :
    (first.outbound.filter fun sent ↦ sent.requestId = requestId) =
      second.outbound.filter fun sent ↦ sent.requestId = requestId := by
  refine eq_of_map_toEmission (clock 0) (fun sent hsent ↦ ?_) (fun sent hsent ↦ ?_) hagree.emissions
  · obtain ⟨reading, hreading⟩ := timestamp_outbound hfirst (mem_filter.mp hsent).1
    rw [hreading, hclock]
  · obtain ⟨reading, hreading⟩ := timestamp_outbound hsecond (mem_filter.mp hsent).1
    rw [hreading, hclock]

/-- Two interleavings of the same request streams, on a bus that never raises and with the number of
active requests below its bound throughout, give every request the same final entry, the same
records and the same emissions, those of its stream handled alone; under a constant clock they give
it the same envelopes. -/
theorem isolated (accepts : Nat → Bool) (haccepts : ∀ call, accepts call = true)
    (clock : Nat → Json) {view : ConfigView} (hview : view.ShippedTable) {first second : List Json}
    (hfirst : ∀ env ∈ first, PerRequest env) (hsecond : ∀ env ∈ second, PerRequest env)
    (hstreams : ∀ requestId, (first.filter fun env ↦ env.item "request_id" = requestId) =
      second.filter fun env ↦ env.item "request_id" = requestId)
    (hactiveFirst : ∀ before, before <+: first →
      (((init { accepts := accepts } clock view).run before).ledger.activeCount : Int) <
        view.maxActiveRequests) (hactiveSecond : ∀ before, before <+: second →
      (((init { accepts := accepts } clock view).run before).ledger.activeCount : Int) <
        view.maxActiveRequests) (requestId : Json) :
    let run := (init { accepts := accepts } clock view).run
    let alone := run (first.filter fun env ↦ env.item "request_id" = requestId)
    AgreeOn requestId (run first) alone ∧ AgreeOn requestId (run second) alone ∧
      AgreeOn requestId (run first) (run second) ∧
      ((∀ reading, clock reading = clock 0) →
        ((run first).outbound.filter fun sent ↦ sent.requestId = requestId) =
            (run second).outbound.filter (fun sent ↦ sent.requestId = requestId) ∧
          ((run first).outbound.filter fun sent ↦ sent.requestId = requestId) =
            alone.outbound.filter fun sent ↦ sent.requestId = requestId) := by
  intro run alone
  have hdelivering : (init { accepts := accepts } clock view).Delivering :=
    delivering_init { accepts := accepts } haccepts clock view
  have hcore (envs : List Json) :
      (run envs).core = (Core.init view).run (envs.map fun env ↦ (false, env)) := by
    exact core_run_of_neverRaises hdelivering envs
  -- Either interleaving, restricted to the request, is the run of its stream alone.
  have halone (envs : List Json) (henvs : ∀ env ∈ envs, PerRequest env)
      (hstream : (envs.filter fun env ↦ env.item "request_id" = requestId) =
        first.filter fun env ↦ env.item "request_id" = requestId)
      (hactive : ∀ before, before <+: envs →
        ((run before).ledger.activeCount : Int) < view.maxActiveRequests) :
      (run envs).core.only requestId = alone.core := by
    rw [hcore, Core.only_run hview requestId envs henvs fun before hbefore ↦ by
      rw [← hcore]; exact hactive before hbefore, hstream]
    exact (hcore _).symm
  have hself : alone.core.only requestId = alone.core := by
    rw [← halone first hfirst rfl hactiveFirst]
    exact only_only _ _
  have hone : AgreeOn requestId (run first) alone :=
    agreeOn_of_only ((halone first hfirst rfl hactiveFirst).trans hself.symm)
  have htwo : AgreeOn requestId (run second) alone :=
    agreeOn_of_only ((halone second hsecond (hstreams requestId).symm hactiveSecond).trans
      hself.symm)
  have hboth : AgreeOn requestId (run first) (run second) :=
    agreeOn_of_only ((halone first hfirst rfl hactiveFirst).trans
      (halone second hsecond (hstreams requestId).symm hactiveSecond).symm)
  refine ⟨hone, htwo, hboth, fun hclock ↦ ⟨?_, ?_⟩⟩
  · exact hboth.outbound hclock (stamped_run rfl clock view first)
      (stamped_run rfl clock view second)
  · exact hone.outbound hclock (stamped_run rfl clock view first) (stamped_run rfl clock view _)

end Coordinator

/-- Two request streams, one request at a time. -/
def sequentialRun : List Json :=
  [Envelope.inbound "a1" "request.received" "r1" [("declared_type", .str "type.alpha")],
    Envelope.inbound "a2" "plan.created" "r1" [],
    Envelope.inbound "b1" "request.received" "r2" [("declared_type", .str "type.beta")],
    Envelope.inbound "b2" "request.cancelled" "r2" []]

/-- The same two streams, interleaved. -/
def interleavedRun : List Json :=
  [Envelope.inbound "b1" "request.received" "r2" [("declared_type", .str "type.beta")],
    Envelope.inbound "a1" "request.received" "r1" [("declared_type", .str "type.alpha")],
    Envelope.inbound "b2" "request.cancelled" "r2" [],
    Envelope.inbound "a2" "plan.created" "r1" []]

theorem isolated_interleaved :
    Coordinator.AgreeOn (.str "r1") (Coordinator.selftest.run sequentialRun)
        (Coordinator.selftest.run interleavedRun) ∧
      (Coordinator.selftest.run sequentialRun).outbound.filter
          (fun sent ↦ sent.requestId = .str "r1") =
        (Coordinator.selftest.run interleavedRun).outbound.filter
          fun sent ↦ sent.requestId = .str "r1" := by
  have hstreams (requestId : Json) :
      (sequentialRun.filter fun env ↦ env.item "request_id" = requestId) =
        interleavedRun.filter fun env ↦ env.item "request_id" = requestId := by
    by_cases hone : Json.str "r1" = requestId
    · subst hone
      decide +kernel
    · by_cases htwo : Json.str "r2" = requestId
      · subst htwo
        decide +kernel
      · rw [filter_eq_nil_iff.mpr, filter_eq_nil_iff.mpr]
        · simp [interleavedRun, Envelope.inbound, Envelope.make, Json.item, Json.getD, Json.get?,
            find_cons, hone, htwo]
        · simp [sequentialRun, Envelope.inbound, Envelope.make, Json.item, Json.getD, Json.get?,
            find_cons, hone, htwo]
  have hbelow (envs : List Json)
      (hinits : ∀ before ∈ envs.inits,
        ((Coordinator.selftest.run before).ledger.activeCount : Int) <
          defaultView.maxActiveRequests) :
      ∀ before, before <+: envs →
        ((Coordinator.selftest.run before).ledger.activeCount : Int) <
          defaultView.maxActiveRequests :=
    fun before hbefore ↦ hinits before ((mem_inits _ _).mpr hbefore)
  obtain ⟨-, -, hagree, hconstant⟩ := Coordinator.isolated (fun _ ↦ true)
    (fun _ ↦ rfl) (fun _ ↦ .int 0) defaultView_shippedTable
    (by decide +kernel) (by decide +kernel) hstreams
    (hbelow sequentialRun (by decide +kernel)) (hbelow interleavedRun (by decide +kernel))
    (.str "r1")
  exact ⟨hagree, (hconstant fun _ ↦ rfl).1⟩

end AbsoluteZero.Kernel

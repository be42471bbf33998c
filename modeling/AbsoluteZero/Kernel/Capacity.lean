import AbsoluteZero.Kernel.Replanning

/-!
# The bound on active requests

An admission looks at the bound before anything that can raise, and no transition leads out of a
terminal phase. So an envelope leaves the active requests within the largest bound of the snapshots
so far (`Core.Within.step`), also when an admission raises behind its entry.
-/

namespace AbsoluteZero.Kernel

open Foundations List

def RequestState.Active (entry : RequestState) : Prop := entry.lifecycleState ∈ nonTerminalStates

instance (entry : RequestState) : Decidable entry.Active := inferInstanceAs (Decidable (_ ∈ _))

theorem active_iff {entry : RequestState} {phase : Phase}
    (hentry : entry.lifecycleState = phase.state) : entry.Active ↔ phase.terminal = false := by
  unfold RequestState.Active
  rw [hentry]
  cases phase <;> decide

/-- A written entry counts once more at most, and not if an active one is overwritten. -/
theorem activeCount_insert (ledger : Ledger) (requestId : Json) (entry : RequestState) :
    Ledger.activeCount (ledger.insert requestId entry) ≤ ledger.activeCount + 1 ∧
      ((entry.Active → ∃ old, ledger.get? requestId = some old ∧ old.Active) →
        Ledger.activeCount (ledger.insert requestId entry) ≤ ledger.activeCount) := by
  have hcount : ∀ items : List (Json × RequestState),
      (((OrderedDict.upsert requestId entry items).map Prod.snd).filter
          fun entry ↦ decide entry.Active).length ≤
        ((items.map Prod.snd).filter fun entry ↦ decide entry.Active).length +
          if entry.Active ∧ ¬ ∃ old, OrderedDict.find requestId items = some old ∧ old.Active
            then 1 else 0 := by
    intro items
    induction items with
    | nil => by_cases hactive : entry.Active <;> simp [OrderedDict.upsert, hactive]
    | cons item rest ih =>
      by_cases hitem : item.1 = requestId
      · by_cases hactive : entry.Active <;> by_cases hold : item.2.Active <;>
          simp [OrderedDict.upsert, OrderedDict.find_cons, hitem, hactive, hold]
      · simp only [OrderedDict.upsert, if_neg hitem, map_cons, filter_cons, OrderedDict.find_cons]
        split
        · rw [length_cons, length_cons]
          omega
        · exact ih
  refine ⟨(hcount ledger.items).trans (Nat.add_le_add_left ?_ _),
    fun hold ↦ (hcount ledger.items).trans ?_⟩
  · split <;> omega
  · rw [if_neg fun hnew ↦ hnew.2 (hold hnew.1)]
    exact Nat.le_refl _

/-- The current snapshot and the active requests are within the limit. -/
structure Core.Within (limit : Int) (core : Core) : Prop where
  config : core.config.maxActiveRequests ≤ limit
  active : (core.ledger.activeCount : Int) ≤ limit

/-- An admission that raises or permits has found a free place. -/
theorem active_lt_of_admissionDecide {env : Json} {config : ConfigView} {halted : Bool}
    {active : Nat}
    (hdecided : ∀ reason, admissionDecide env config halted active ≠ .ok (false, reason)) :
    (active : Int) < config.maxActiveRequests := by
  by_contra hfull
  cases halted with
  | true => exact hdecided _ rfl
  | false => exact hdecided _ (if_pos (not_lt.mp hfull))

namespace Core

variable {core : Core} {env : Json} {limit : Int}

theorem Within.insert (hwithin : core.Within limit) {requestId : Json} {entry : RequestState}
    (hplace : (entry.Active → ∃ old, core.ledger.get? requestId = some old ∧ old.Active) ∨
      (core.ledger.activeCount : Int) < limit) (log : List Record) (published : List Publication) :
    Within limit { core with ledger := core.ledger.insert requestId entry, log, published } := by
  obtain ⟨hmore, hsame⟩ := activeCount_insert core.ledger requestId entry
  refine ⟨hwithin.config, ?_⟩
  rcases hplace with hold | hfree
  · exact (Int.ofNat_le.mpr (hsame hold)).trans hwithin.active
  · refine (Int.ofNat_le.mpr hmore).trans ?_
    omega

theorem Within.commit (hwithin : core.Within limit) {entry : RequestState} {rule : Rule}
    {eventId : Json} {config : ConfigView} {info : Option (List (String × Json))}
    (hentry : core.ledger.get? entry.requestId = some entry)
    (hsource : entry.lifecycleState = rule.source.state) {view : ConfigView}
    (henabled : rule.Enabled entry view) :
    (core.act (.commit (rule.unit entry eventId config info))).Within limit := by
  rw [act, requestId_record_unit]
  refine hwithin.insert (.inl fun hactive ↦ ⟨entry, hentry, ?_⟩) _ _
  -- no rule leaves a terminal phase
  by_contra hsettled
  rw [active_iff hsource, Bool.not_eq_false] at hsettled
  rw [active_iff (state_unit ..), henabled.target_of_terminal hsettled, hsettled] at hactive
  cases hactive

theorem Within.admit (hsound : core.Sound) (hnew : core.Newcomer env) (hwithin : core.Within limit)
    (halted : Bool) :
    (core.perform (admitDecision core.config halted core.ledger.activeCount env).actions).Within
      limit := by
  rw [admitDecision_of_shipped hsound.shippedTable _ _ hnew.nonempty]
  have hfree := fun hdecided ↦ lt_of_lt_of_le (@active_lt_of_admissionDecide env core.config halted
    core.ledger.activeCount hdecided) hwithin.config
  rcases hdecided : admissionDecide env core.config halted core.ledger.activeCount with
    raised | ⟨_ | _, reason⟩
  · refine hwithin.insert (.inr (hfree fun reason heq ↦ ?_)) _ _
    rw [hdecided] at heq
    cases heq
  · exact hwithin.insert (.inl fun hactive ↦ absurd ((active_iff rfl).mp hactive) (by decide)) _ _
  · have hadmitted : (core.act (.commit (admissionUnit .accept env core.config reason))).Within
        limit := by
      refine hwithin.insert (.inr (hfree fun reason heq ↦ ?_)) _ _
      rw [hdecided] at heq
      cases heq
    have hroute : ∀ target, (routingRule target).source = .initialized ∧
        (routingRule target).Enabled (admissionUnit .accept env core.config reason).entry
          core.config := by
      intro target
      cases target <;> exact ⟨rfl, trivial⟩
    exact hadmitted.commit (OrderedDict.get?_insert_self core.ledger _ _)
      (congrArg Phase.state (hroute _).1.symm) (hroute _).2

theorem Within.step (hsound : core.Sound) (hwithin : core.Within limit) (halted : Bool)
    (hbound : ∀ view, core.Installs env view → view.maxActiveRequests ≤ limit) :
    (core.step (halted, env)).Within limit := by
  apply decide_cases (motive := fun decision ↦ (core.perform decision.actions).Within limit)
  case quiet => exact fun _ ↦ hwithin
  case configure => exact fun view hview ↦ ⟨hbound view hview, hwithin.active⟩
  case absorb => exact fun entry _ _ _ _ ↦ ⟨hwithin.config, hwithin.active⟩
  case newcomer => exact fun hnew _ ↦ hwithin.admit hsound hnew halted
  case session =>
    intro _ _
    refine IsPlan.keeps (Within limit) (fun _ _ hallowed hstate ↦ hallowed hstate)
      (@isPlan_sessionDecision (fun state action ↦ state.Within limit →
        (state.act action).Within limit) core _ (fun hstate ↦ ⟨hstate.config, hstate.active⟩)
        fun _ state requestId entry _ _ hstate ↦ ⟨hstate.config, ?_⟩) hwithin
    exact (Int.ofNat_le.mpr ((filter_sublist.map Prod.snd).filter _).length_le).trans hstate.active
  case apply =>
    intro entry _ _ hentry
    have hid := (hsound.entries _ _ hentry).id
    obtain ⟨phase, hphase⟩ := (hsound.entries _ _ hentry).phase
    rcases applyDecision_cases (hsound.shippedTable_pinned entry) hphase (env.item "event_name")
      (env.item "event_id") with ⟨hnone, -⟩ | ⟨rule, rfl, -, henabled, hdecision⟩
    · change (core.perform (applyDecision (core.pinned entry) entry _ _).actions).Within limit
      rw [hnone]
      exact hwithin
    · change (core.perform (applyDecision (core.pinned entry) entry _ _).actions).Within limit
      rw [hdecision]
      exact hwithin.commit (hid.symm ▸ hentry) hphase henabled

end Core

/-- Assumes: all snapshots carry the shipped table, and their bounds are within a limit. In every
run, whatever the bus and the clock do, no more requests are active than the limit. -/
theorem Coordinator.active_bounded {bus : Bus} (hcalls : bus.calls = []) (clock : Nat → Json)
    {view : ConfigView} (hview : view.ShippedTable) {envs : List Json}
    (hships : ∀ env ∈ envs, ShipsTable env) {limit : Int} (hlimit : view.maxActiveRequests ≤ limit)
    (hbounds : ∀ env ∈ envs, env.item "event_name" = .str "config.changed" → ∀ next,
      ConfigView.ofData ((env.item "payload").item "snapshot") = .ok next →
        next.maxActiveRequests ≤ limit) :
    (((init bus clock view).run envs).ledger.activeCount : Int) ≤ limit := by
  have hstart : (Core.init view).Within limit :=
    ⟨hlimit, (policy_nonneg view (by simp)).trans hlimit⟩
  have hrun : ((Core.init view).run ((init bus clock view).inputs envs)).Sound ∧
      ((Core.init view).run ((init bus clock view).inputs envs)).Within limit := by
    refine List.foldlRecOn _ Core.step (motive := fun core ↦ core.Sound ∧ core.Within limit)
      ⟨Core.sound_init hview, hstart⟩ fun core hcore input hinput ↦ ?_
    have hmem : input.2 ∈ envs := by
      rw [← map_snd_inputs (init bus clock view) envs]
      exact mem_map_of_mem hinput
    exact ⟨hcore.1.step (hships _ hmem) input.1, hcore.2.step hcore.1 input.1 fun next hnext ↦
      hbounds _ hmem hnext.2.1 next hnext.2.2⟩
  rw [← core_init bus clock view hcalls, ← core_run] at hrun
  exact hrun.2.active

theorem active_bounded_readmitted :
    ((Coordinator.selftest.run readmittedRun).ledger.activeCount : Int) ≤
      defaultView.maxActiveRequests :=
  have hnames : ∀ env ∈ readmittedRun, env.item "event_name" ≠ .str "config.changed" := by
    decide +kernel
  Coordinator.active_bounded rfl (fun _ ↦ .int 0) defaultView_shippedTable
    (shipsTable_of_forall_ne hnames) le_rfl fun env henv hname ↦ absurd hname (hnames env henv)

end AbsoluteZero.Kernel

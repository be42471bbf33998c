import AbsoluteZero.Plugins.Replaying

/-!
# Quarantine and recovery

What is left of a quarantine after further evidence (`Earning`) ends by an operator's release or by
a run of successes long enough to earn the recovery, so no binding of a provider comes between. Runs
of failures lead to quarantine and runs of successes to health (`Failing.step`, `Healing.step`).
-/

namespace AbsoluteZero.Plugins

open Foundations List

/-- Whether an execution succeeded, where one is observed. -/
def Observation.outcome? : Observation → Option Bool
  | .live .completed => some true
  | .live _ => some false
  | _ => none

def outcomes (observations : List Observation) : List Bool :=
  observations.filterMap Observation.outcome?

/-- The acts of an operator that put the state of health. -/
def Observation.Forces : Observation → Prop
  | .admin .forceQuarantine | .admin .forceRelease => True
  | _ => False

/-- The consecutive failures that quarantine a provider in any state. -/
def Thresholds.toQuarantine (thresholds : Thresholds) : ℕ :=
  (max 1 thresholds.failuresToQuarantine).toNat

/-- The consecutive successes that earn a recovery: the first one ends the quarantine. -/
def Thresholds.toRecover (thresholds : Thresholds) : ℕ :=
  (max 2 thresholds.successesToRecover).toNat

variable {thresholds : Thresholds} {carry : Carry} {earlier since : List Observation}

theorem outcomes_append (since : List Observation) (observation : Observation) :
    outcomes (since ++ [observation]) = outcomes since ++ observation.outcome?.toList := by
  unfold outcomes
  rw [filterMap_append, filterMap_cons]
  cases observation.outcome? <;> rfl

theorem health_append (thresholds : Thresholds) (earlier : List Observation)
    (observation : Observation) : health thresholds (earlier ++ [observation]) =
      freeStep thresholds (health thresholds earlier) observation := by
  unfold health
  rw [foldl_append]
  rfl

/-- An observation that is no outcome and does not put the state leaves it and the counters. -/
theorem freeStep_cases (thresholds : Thresholds) (carry : Carry) (observation : Observation) :
    (∃ kind, observation = .live kind) ∨ observation.Forces ∨ observation.outcome? = none ∧
      ∃ disabled reliability priorsVersion, freeStep thresholds carry observation =
        { carry with disabled, reliability, priorsVersion } := by
  cases observation with
  | live kind => exact .inl ⟨kind, rfl⟩
  | priors prior priorsVersion => exact .inr (.inr ⟨rfl, _, _, _, rfl⟩)
  | admin kind =>
    cases kind with
    | disable | enable => exact .inr (.inr ⟨rfl, _, _, _, rfl⟩)
    | forceQuarantine | forceRelease => exact .inr (.inl trivial)

/-- In quarantine no success is counted. -/
theorem alike_health (thresholds : Thresholds) (observations : List Observation) :
    (health thresholds observations).Alike (health thresholds observations) := by
  induction observations using List.reverseRecOn with
  | nil => exact Carry.Alike.refl_initial
  | append_singleton observations observation ih =>
    rw [health_append]
    exact ih.step observation

theorem counters_nonneg (thresholds : Thresholds) (observations : List Observation) :
    0 ≤ (health thresholds observations).failures ∧
      0 ≤ (health thresholds observations).successes := by
  induction observations using List.reverseRecOn with
  | nil => exact ⟨le_refl 0, le_refl 0⟩
  | append_singleton observations observation ih =>
    obtain ⟨hfailures, hsuccesses⟩ := ih
    rw [health_append]
    cases observation with
    | priors prior priorsVersion => exact ⟨hfailures, hsuccesses⟩
    | admin kind =>
      cases kind with
      | disable | enable => exact ⟨hfailures, hsuccesses⟩
      | forceQuarantine | forceRelease => exact ⟨le_refl 0, le_refl 0⟩
    | live kind =>
      cases kind with
      | failed | timeout => exact ⟨Int.add_nonneg hfailures Int.one_nonneg, le_refl 0⟩
      | completed => exact ⟨le_refl 0, Int.add_nonneg hsuccesses Int.one_nonneg⟩

/-! ### Out of quarantine -/

/-- The recovery has been earned, or the provider is in quarantine, or it recovers and counts the
successes that it has ended with. -/
def Earning (thresholds : Thresholds) (since : List Observation) (carry : Carry) : Prop :=
  replicate thresholds.toRecover true <:+: outcomes since ∨
    carry.state = .quarantined ∧ carry.successes = 0 ∨
    carry.state = .recovering ∧ ∃ count : ℕ, carry.successes = count + 1 ∧
      replicate (count + 1) true <:+ outcomes since

theorem Earning.success (hearning : Earning thresholds since carry) :
    Earning thresholds (since ++ [.live .completed])
      (freeStep thresholds carry (.live .completed)) := by
  rw [freeStep_completed]
  unfold Earning
  rw [outcomes_append]
  rcases hearning with hearned | ⟨hstate, hzero⟩ | ⟨hstate, count, hcount, hsuffix⟩
  · exact .inl (hearned.trans (prefix_append _ _).isInfix)
  · rw [hstate, hzero]
    exact .inr (.inr ⟨rfl, 0, rfl, suffix_append _ _⟩)
  · -- the run of successes is one longer
    obtain ⟨before, hbefore⟩ := hsuffix
    have hlonger : replicate (count + 2) true <:+ outcomes since ++ [true] :=
      ⟨before, by rw [← hbefore, append_assoc, ← replicate_succ']⟩
    rw [hstate, hcount]
    by_cases hrecover : thresholds.successesToRecover ≤ count + 1 + 1
    · refine .inl (IsInfix.trans ?_ hlonger.isInfix)
      have hle : thresholds.toRecover ≤ count + 2 := by
        unfold Thresholds.toRecover
        omega
      obtain ⟨more, hmore⟩ := Nat.le.dest hle
      exact ⟨[], replicate more true, by rw [nil_append, ← replicate_add, hmore]⟩
    · exact .inr (.inr ⟨if_neg hrecover, count + 1, rfl, hlonger⟩)

theorem Earning.failure (hearning : Earning thresholds since carry) {kind : LiveKind}
    (hkind : kind ≠ .completed) :
    Earning thresholds (since ++ [.live kind]) (freeStep thresholds carry (.live kind)) := by
  rw [freeStep_failure carry hkind]
  rcases hearning with hearned | hcritical
  · refine .inl (hearned.trans ?_)
    rw [outcomes_append]
    exact (prefix_append _ _).isInfix
  · exact .inr (.inl ⟨(proposedByFailure_cases thresholds carry.state _).2.2
      (hcritical.imp And.left And.left), rfl⟩)

theorem Earning.step {observation : Observation} (hearning : Earning thresholds since carry)
    (hrelease : observation ≠ .admin .forceRelease) :
    Earning thresholds (since ++ [observation]) (freeStep thresholds carry observation) := by
  rcases freeStep_cases thresholds carry observation with
    ⟨kind, rfl⟩ | hforces | ⟨hnone, disabled, reliability, priorsVersion, hquiet⟩
  · by_cases hkind : kind = .completed
    · rw [hkind]
      exact hearning.success
    · exact hearning.failure hkind
  · unfold Observation.Forces at hforces
    split at hforces
    · exact .inr (.inl ⟨rfl, rfl⟩)
    · exact absurd rfl hrelease
    · exact hforces.elim
  · unfold Earning
    rw [outcomes_append, hnone, hquiet, Option.toList_none, append_nil]
    exact hearning

theorem earning_of_quarantined (hquarantined : (health thresholds earlier).state = .quarantined)
    (hrelease : Observation.admin .forceRelease ∉ since) :
    Earning thresholds since (health thresholds (earlier ++ since)) := by
  induction since using List.reverseRecOn with
  | nil =>
    rw [append_nil]
    exact .inr (.inl ⟨hquarantined, ((alike_health thresholds earlier).quarantined hquarantined).1⟩)
  | append_singleton since observation ih =>
    rw [mem_append, not_or] at hrelease
    rw [← append_assoc, health_append]
    exact (ih hrelease.1).step fun heq ↦ hrelease.2 (mem_singleton.mpr heq.symm)

/-! ### Runs of outcomes -/

/-- After this many failures in a row. -/
def Failing (thresholds : Thresholds) (count : ℕ) (carry : Carry) : Prop :=
  carry.state = .quarantined ∨
    count ≤ carry.failures ∧ (count = 0 ∨ carry.failures < thresholds.failuresToQuarantine)

/-- After this many successes in a row. -/
def Healing (thresholds : Thresholds) (count : ℕ) (carry : Carry) : Prop :=
  count = 0 ∧ 0 ≤ carry.successes ∨ carry.state = .healthy ∨
    carry.state = .recovered ∧ count ≤ thresholds.toRecover ∨
    carry.state = .recovering ∧ count ≤ carry.successes ∧
      (count = 1 ∨ carry.successes < thresholds.successesToRecover)

theorem Failing.step {count : ℕ} (hfailing : Failing thresholds count carry) {kind : LiveKind}
    (hkind : kind ≠ .completed) :
    Failing thresholds (count + 1) (freeStep thresholds carry (.live kind)) := by
  rw [freeStep_failure carry hkind]
  rcases hfailing with hquarantined | ⟨hcount, -⟩
  · exact .inl ((proposedByFailure_cases thresholds carry.state _).2.2 (.inl hquarantined))
  · by_cases hlimit : thresholds.failuresToQuarantine ≤ carry.failures + 1
    · refine .inl ?_
      cases hstate : carry.state <;> simp [proposedByFailure, hlimit]
    · refine .inr ⟨?_, .inr (not_le.mp hlimit)⟩
      exact Int.add_le_add_right hcount 1

theorem Healing.step {count : ℕ} (hhealing : Healing thresholds count carry) :
    Healing thresholds (count + 1) (freeStep thresholds carry (.live .completed)) := by
  rw [freeStep_completed]
  have hbound : (thresholds.toRecover : ℤ) = max 2 thresholds.successesToRecover :=
    Int.toNat_of_nonneg (by omega)
  rcases hhealing with ⟨rfl, hnonneg⟩ | hhealthy | ⟨hrecovered, -⟩ | ⟨hrecovering, hcount, hfew⟩
  · cases hstate : carry.state with
    | healthy | degraded | recovered => exact .inr (.inl rfl)
    | quarantined => exact .inr (.inr (.inr ⟨rfl, by simpa using hnonneg, .inl rfl⟩))
    | recovering =>
      by_cases hrecover : thresholds.successesToRecover ≤ carry.successes + 1
      · exact .inr (.inr (.inl ⟨if_pos hrecover, by omega⟩))
      · exact .inr (.inr (.inr ⟨if_neg hrecover, by simpa using hnonneg, .inl rfl⟩))
  · rw [hhealthy]
    exact .inr (.inl rfl)
  · rw [hrecovered]
    exact .inr (.inl rfl)
  · rw [hrecovering]
    by_cases hrecover : thresholds.successesToRecover ≤ carry.successes + 1
    · exact .inr (.inr (.inl ⟨if_pos hrecover, by omega⟩))
    · exact .inr (.inr (.inr ⟨if_neg hrecover, by push_cast; omega, .inr (not_le.mp hrecover)⟩))

/-- A property of runs of one outcome is reached after one when it is about the state and the
counters only. -/
theorem reached_of_replicate {property : ℕ → Carry → Prop} {outcome : Bool}
    (hstart : property 0 (health thresholds earlier))
    (hquiet : ∀ count carry disabled reliability priorsVersion, property count carry →
      property count { carry with disabled, reliability, priorsVersion })
    (hstep : ∀ count carry kind, property count carry →
      (Observation.live kind).outcome? = some outcome →
      property (count + 1) (freeStep thresholds carry (.live kind)))
    (hforces : ∀ observation ∈ since, ¬ observation.Forces) {count : ℕ}
    (hrun : outcomes since = replicate count outcome) :
    property count (health thresholds (earlier ++ since)) := by
  induction since using List.reverseRecOn generalizing count with
  | nil =>
    rw [append_nil]
    cases count with
    | zero => exact hstart
    | succ count => cases hrun
  | append_singleton since observation ih =>
    have hbefore := fun count ↦
      @ih (fun other hmem ↦ hforces other (mem_append_left _ hmem)) count
    rw [← append_assoc, health_append]
    rw [outcomes_append] at hrun
    rcases freeStep_cases thresholds (health thresholds (earlier ++ since)) observation with
      ⟨kind, rfl⟩ | hforced | ⟨hnone, disabled, reliability, priorsVersion, heq⟩
    · obtain ⟨found, hfound⟩ : ∃ found, (Observation.live kind).outcome? = some found := by
        cases kind <;> exact ⟨_, rfl⟩
      rw [hfound] at hrun
      cases count with
      | zero => simp at hrun
      | succ count =>
        rw [replicate_succ'] at hrun
        obtain ⟨hrun, hsame⟩ := append_singleton_inj.mp hrun
        exact hstep _ _ _ (hbefore count hrun) (hfound.trans (congrArg some hsame))
    · exact absurd hforced (hforces observation (mem_append_right _ mem_cons_self))
    · rw [hnone] at hrun
      rw [heq]
      exact hquiet _ _ _ _ _ (hbefore count ((append_nil _).symm.trans hrun))

theorem quarantined_of_failures (hforces : ∀ observation ∈ since, ¬ observation.Forces) {count : ℕ}
    (hrun : outcomes since = replicate count false) (hcount : thresholds.toQuarantine ≤ count) :
    (health thresholds (earlier ++ since)).state = .quarantined := by
  have hreached : Failing thresholds count (health thresholds (earlier ++ since)) := by
    refine reached_of_replicate (.inr ⟨(counters_nonneg thresholds earlier).1, .inl rfl⟩)
      (fun _ _ _ _ _ hfailing ↦ hfailing) (fun count carry kind hfailing hfailed ↦ ?_) hforces hrun
    refine hfailing.step fun heq ↦ ?_
    rw [heq] at hfailed
    cases hfailed
  rcases hreached with hquarantined | ⟨hfailures, hfew⟩
  · exact hquarantined
  · unfold Thresholds.toQuarantine at hcount
    omega

theorem healthy_of_successes (hforces : ∀ observation ∈ since, ¬ observation.Forces) {count : ℕ}
    (hrun : outcomes since = replicate count true) (hcount : thresholds.toRecover < count) :
    (health thresholds (earlier ++ since)).state = .healthy := by
  have hreached : Healing thresholds count (health thresholds (earlier ++ since)) := by
    refine reached_of_replicate (.inl ⟨rfl, (counters_nonneg thresholds earlier).2⟩)
      (fun _ _ _ _ _ hhealing ↦ hhealing) (fun count carry kind hhealing hcompleted ↦ ?_) hforces
      hrun
    cases kind with
    | completed => exact hhealing.step
    | failed | timeout => cases hcompleted
  unfold Thresholds.toRecover at hcount
  rcases hreached with ⟨rfl, -⟩ | hhealthy | ⟨-, hfew⟩ | ⟨-, hsuccesses, hfew⟩
  · cases hcount
  · exact hhealthy
  · unfold Thresholds.toRecover at hfew
    omega
  · omega

/-! ### Bindings -/

namespace PluginRuntime

variable {setup : Setup} {runtime : PluginRuntime} {topics : OrderedDict String (List Json)}
  {storage : OrderedDict String String} {acts : List Act} {providerId : String}

theorem Sound.healthy_of_bound (hsound : runtime.Sound setup thresholds)
    {first second : SetOrder} {capabilityId : String} {contract : BindingContract}
    (hbound : (runtime.bind setup first second capabilityId).1 = .bound contract) :
    (runtime.carryOf (.text contract.providerId)).Healthy := by
  obtain ⟨canonical, winner, provider, hresolve, ⟨⟨order, hmem⟩, heligible, -⟩, hprovider,
    rfl⟩ := hsound.named.current.resolve_eq_bound_iff.mp hbound
  have hid : provider.id = winner.providerId :=
    hsound.named.current.providers_named winner.providerId provider hprovider
  change (runtime.carryOf (.text provider.id)).Healthy
  rw [hid]
  exact ((hsound.eligible_iff hresolve hmem).1.mp heligible).healthy

section History

variable (hhonest : HonestSnapshots setup storage)
  (hruntime : (new thresholds topics storage).after setup acts = runtime)
  (hsplit : entriesFor runtime.journal (.text providerId) = earlier ++ since)

include hhonest hruntime hsplit

theorem sound_of_history : runtime.Sound setup thresholds ∧
    runtime.carryOf (.text providerId) = Plugins.health thresholds (earlier ++ since) := by
  have hsound := ((sound_new thresholds topics hhonest).after acts).1
  rw [hruntime] at hsound
  refine ⟨hsound, ?_⟩
  rw [hsound.folding.carryOf_eq, hsplit]

/-- Assumes: the stored snapshots are the texts that their keys are the digests of, and the provider
was in quarantine after a part of its evidence. In every history it is bound only after an operator
has released it or consecutive successes have earned its recovery. -/
theorem earned_of_bound (hquarantined : (Plugins.health thresholds earlier).state = .quarantined)
    {first second : SetOrder} {capabilityId : String} {contract : BindingContract}
    (hbound : (runtime.bind setup first second capabilityId).1 = .bound contract)
    (hprovider : contract.providerId = providerId) :
    .admin .forceRelease ∈ since ∨ replicate thresholds.toRecover true <:+: outcomes since := by
  by_cases hrelease : .admin .forceRelease ∈ since
  · exact .inl hrelease
  obtain ⟨hsound, hcarry⟩ := sound_of_history hhonest hruntime hsplit
  obtain ⟨-, hhealthy⟩ := hprovider ▸ hsound.healthy_of_bound hbound
  rw [hcarry] at hhealthy
  refine .inr ?_
  rcases earning_of_quarantined hquarantined hrelease with hearned | ⟨hstate, -⟩ | ⟨hstate, -⟩
  · exact hearned
  · simp [hstate] at hhealthy
  · simp [hstate] at hhealthy

/-- Assumes: the stored snapshots are the texts that their keys are the digests of, and no operator
has put the state since some point. In every history, whatever was before, enough failures in a row
bar the provider from every binding, and enough successes in a row make it healthy. -/
theorem settled_of_run (hforces : ∀ observation ∈ since, ¬ observation.Forces) (count : ℕ) :
    (outcomes since = replicate count false → thresholds.toQuarantine ≤ count →
      ∀ first second capabilityId contract,
        (runtime.bind setup first second capabilityId).1 = .bound contract →
        contract.providerId ≠ providerId) ∧
    (outcomes since = replicate count true → thresholds.toRecover < count →
      (runtime.carryOf (.text providerId)).effective =
        if (runtime.carryOf (.text providerId)).disabled then .unavailable
        else .shown .healthy) := by
  obtain ⟨hsound, hcarry⟩ := sound_of_history hhonest hruntime hsplit
  constructor
  · rintro hrun hcount first second capabilityId contract hbound rfl
    obtain ⟨-, hhealthy⟩ := hsound.healthy_of_bound hbound
    rw [hcarry, quarantined_of_failures hforces hrun hcount] at hhealthy
    simp at hhealthy
  · intro hrun hcount
    unfold Carry.effective
    rw [hcarry, healthy_of_successes hforces hrun hcount]

end History

/-- A bound provider is put in quarantine and has successes then. -/
def recoveryActs (successes : ℕ) : List Act :=
  boundActs ++ .administrate .forceQuarantine "prov.x" "operator" "incident" ::
    replicate successes (.handleEvent (.obj [("event_name", .str "exec.completed"),
      ("subject_id", .str "prov.x"), ("payload", .obj [])]))

def recoveryRuntime (successes : ℕ) : PluginRuntime :=
  (new defaultThresholds .empty .empty).after plainSetup (recoveryActs successes)

/-- Two successes earn the recovery. -/
theorem earned_of_bound_recoveryActs : ∃ contract,
    ((recoveryRuntime 2).bind plainSetup listedOrder listedOrder "cap.a").1 = .bound contract ∧
      (.admin .forceRelease ∈ replicate 2 (Observation.live .completed) ∨
        replicate defaultThresholds.toRecover true <:+:
          outcomes (replicate 2 (Observation.live .completed))) :=
  ⟨_, rfl, @earned_of_bound _ [.admin .forceQuarantine] _ plainSetup _ .empty .empty
    (recoveryActs 2) "prov.x" (fun _ _ hstored ↦ by cases hstored) rfl rfl rfl listedOrder
    listedOrder "cap.a" _ rfl rfl⟩

theorem settled_of_run_recoveryActs :
    ((recoveryRuntime 3).carryOf (.text "prov.x")).effective =
      if ((recoveryRuntime 3).carryOf (.text "prov.x")).disabled then .unavailable
      else .shown .healthy :=
  (@settled_of_run defaultThresholds [.admin .forceQuarantine]
    (replicate 3 (.live .completed)) plainSetup _ .empty .empty (recoveryActs 3) "prov.x"
    (fun _ _ hstored ↦ by cases hstored) rfl rfl
    (fun observation hmem hforces ↦ by rw [eq_of_mem_replicate hmem] at hforces; exact hforces)
    3).2 rfl (by decide)

end PluginRuntime

end AbsoluteZero.Plugins

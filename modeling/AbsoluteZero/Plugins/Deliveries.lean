import AbsoluteZero.Plugins.Runtime
import Mathlib.Data.List.Induction

/-!
# Redelivered evidence

The journal takes every message that is handled, whether or not it has been handled before. What a
redelivery may find when it is to change nothing is `Repeats`; two carries with one future are
`Alike`. A run of harmless deliveries shows the health of the run with every message once
(`tolerates_of_harmless`).
-/

namespace AbsoluteZero.Plugins

open Foundations List Option

/-! ### Carries with one future -/

/-- The carries show the same and go on alike. -/
structure Carry.Alike (first second : Carry) : Prop where
  state : first.state = second.state
  disabled : first.disabled = second.disabled
  reliability : first.reliability = second.reliability
  priorsVersion : first.priorsVersion = second.priorsVersion
  failing : first.state = .healthy ∨ first.state = .degraded → first.failures = second.failures
  quarantined : first.state = .quarantined → first.successes = 0 ∧ second.successes = 0
  recovering : first.state = .recovering → first.successes = second.successes
  recovered : first.state = .recovered → first.failures = 0 ∧ second.failures = 0

/-- Repeating the observation changes nothing that is read again. -/
def Carry.Repeats (carry : Carry) : Observation → Prop
  | .live .completed => carry.state = .healthy ∧ carry.failures = 0
  | .live _ => carry.state = .quarantined
  | .priors prior priorsVersion =>
    carry.reliability = prior ∧ carry.priorsVersion = priorsVersion
  | .admin _ => False

theorem legalized_free (state proposed : HealthState) :
    legalized (fun _ _ ↦ true) state proposed = proposed := by
  unfold legalized
  by_cases hsame : proposed = state
  · rw [if_neg (by simp [hsame]), hsame]
  · rw [if_pos ⟨hsame, rfl⟩]

theorem Carry.Alike.refl_initial : initialCarry.Alike initialCarry where
  state := rfl
  disabled := rfl
  reliability := rfl
  priorsVersion := rfl
  failing := fun _ ↦ rfl
  quarantined := nofun
  recovering := nofun
  recovered := nofun

variable {first second : Carry} {thresholds : Thresholds}

theorem freeStep_failure (carry : Carry) {kind : LiveKind} (hkind : kind ≠ .completed) :
    freeStep thresholds carry (.live kind) = { carry with
        state := proposedByFailure thresholds carry.state (carry.failures + 1)
        failures := carry.failures + 1
        successes := 0 } := by
  cases kind with
  | completed => exact absurd rfl hkind
  | failed | timeout => simp only [freeStep, step, legalized_free]

theorem freeStep_completed (carry : Carry) : freeStep thresholds carry (.live .completed) =
      { carry with
        state := proposedBySuccess thresholds carry.state (carry.successes + 1)
        failures := 0
        successes := carry.successes + 1 } := by
  simp only [freeStep, step, legalized_free]

theorem proposedByFailure_cases (thresholds : Thresholds) (state : HealthState) (failures : Int) :
    proposedByFailure thresholds state failures ≠ .recovering ∧
      proposedByFailure thresholds state failures ≠ .recovered ∧
      (state = .quarantined ∨ state = .recovering →
        proposedByFailure thresholds state failures = .quarantined) := by
  by_cases hquarantine : thresholds.failuresToQuarantine ≤ failures
  · cases state <;> simp [proposedByFailure, hquarantine]
  by_cases hdegrade : thresholds.consecutiveFailuresToDegrade ≤ failures
  · cases state <;> simp [proposedByFailure, hquarantine, hdegrade]
  · cases state <;> simp [proposedByFailure, hquarantine, hdegrade]

section

variable (halike : first.Alike second)

include halike

theorem Carry.Alike.failures_or :
    first.failures = second.failures ∨ first.state = .quarantined ∨ first.state = .recovering := by
  cases hstate : first.state with
  | healthy => exact .inl (halike.failing (.inl hstate))
  | degraded => exact .inl (halike.failing (.inr hstate))
  | quarantined => exact .inr (.inl rfl)
  | recovering => exact .inr (.inr rfl)
  | recovered =>
    obtain ⟨hfirst, hsecond⟩ := halike.recovered hstate
    exact .inl (hfirst.trans hsecond.symm)

theorem Carry.Alike.failure {kind : LiveKind} (hkind : kind ≠ .completed) :
    (freeStep thresholds first (.live kind)).Alike (freeStep thresholds second (.live kind)) := by
  rw [freeStep_failure first hkind, freeStep_failure second hkind]
  obtain ⟨hrecovering, hrecovered, -⟩ :=
    proposedByFailure_cases thresholds first.state (first.failures + 1)
  have hstate : proposedByFailure thresholds first.state (first.failures + 1) =
      proposedByFailure thresholds second.state (second.failures + 1) := by
    rw [← halike.state]
    rcases halike.failures_or with hfailures | hcritical
    · rw [hfailures]
    · rw [(proposedByFailure_cases thresholds first.state _).2.2 hcritical,
        (proposedByFailure_cases thresholds first.state _).2.2 hcritical]
  refine ⟨hstate, halike.disabled, halike.reliability, halike.priorsVersion, ?_, fun _ ↦ ⟨rfl, rfl⟩,
    fun hnext ↦ absurd hnext hrecovering, fun hnext ↦ absurd hnext hrecovered⟩
  intro hnext
  rcases halike.failures_or with hfailures | hcritical
  · exact congrArg (· + 1) hfailures
  · simp only [(proposedByFailure_cases thresholds first.state _).2.2 hcritical] at hnext
    rcases hnext with hnext | hnext <;> cases hnext

/-- Carries that are alike count the same successes while a success is read. -/
theorem Carry.Alike.success :
    (freeStep thresholds first (.live .completed)).Alike
      (freeStep thresholds second (.live .completed)) := by
  rw [freeStep_completed, freeStep_completed]
  have hstate : proposedBySuccess thresholds first.state (first.successes + 1) =
      proposedBySuccess thresholds second.state (second.successes + 1) := by
    rw [← halike.state]
    cases hfirst : first.state with
    | recovering => rw [halike.recovering hfirst]
    | _ => rfl
  refine ⟨hstate, halike.disabled, halike.reliability, halike.priorsVersion, fun _ ↦ rfl, ?_, ?_,
    fun _ ↦ ⟨rfl, rfl⟩⟩
  · -- no success leads to quarantine
    intro hnext
    cases hfirst : first.state with
    | recovering =>
      rw [hfirst] at hnext
      unfold proposedBySuccess at hnext
      by_cases hrecover : thresholds.successesToRecover ≤ first.successes + 1
      · simp [hrecover] at hnext
      · simp [hrecover] at hnext
    | _ =>
      rw [hfirst] at hnext
      cases hnext
  · intro hnext
    cases hfirst : first.state with
    | recovering => exact congrArg (· + 1) (halike.recovering hfirst)
    | quarantined =>
      obtain ⟨hzero, hzero'⟩ := halike.quarantined hfirst
      simp only [hzero, hzero']
    | _ =>
      rw [hfirst] at hnext
      cases hnext

theorem Carry.Alike.step (observation : Observation) :
    (freeStep thresholds first observation).Alike (freeStep thresholds second observation) := by
  cases observation with
  | live kind =>
    cases kind with
    | completed => exact halike.success
    | failed | timeout => exact halike.failure (by simp)
  | priors prior priorsVersion => exact { halike with reliability := rfl, priorsVersion := rfl }
  | admin kind =>
    cases kind with
    | disable | enable => exact { halike with disabled := rfl }
    | forceQuarantine | forceRelease =>
      exact ⟨rfl, halike.disabled, halike.reliability, halike.priorsVersion, fun _ ↦ rfl,
        fun _ ↦ ⟨rfl, rfl⟩, fun _ ↦ rfl, fun _ ↦ ⟨rfl, rfl⟩⟩

end

variable {observation : Observation}

/-- A carry that takes a repetition stays alike. -/
theorem Carry.Alike.stutter (halike : first.Alike second) (hrepeats : first.Repeats observation) :
    (freeStep thresholds first observation).Alike second := by
  have hfailure : ∀ {kind : LiveKind}, kind ≠ .completed → first.state = .quarantined →
      (freeStep thresholds first (.live kind)).Alike second := by
    intro kind hkind hquarantined
    have hstays := (proposedByFailure_cases thresholds first.state (first.failures + 1)).2.2
      (.inl hquarantined)
    rw [freeStep_failure first hkind, hstays]
    obtain ⟨-, hzero⟩ := halike.quarantined hquarantined
    exact ⟨hquarantined.symm.trans halike.state, halike.disabled, halike.reliability,
      halike.priorsVersion, by rintro (⟨⟨⟩⟩ | ⟨⟨⟩⟩),
      fun _ ↦ ⟨rfl, hzero⟩, by rintro ⟨⟩, by rintro ⟨⟩⟩
  cases observation with
  | live kind =>
    cases kind with
    | completed =>
      obtain ⟨hhealthy, hfailures⟩ := hrepeats
      rw [freeStep_completed, hhealthy]
      have hzero := (halike.failing (.inl hhealthy)).symm.trans hfailures
      exact ⟨hhealthy.symm.trans halike.state, halike.disabled, halike.reliability,
        halike.priorsVersion, fun _ ↦ hzero.symm, by rintro ⟨⟩, by rintro ⟨⟩, by rintro ⟨⟩⟩
    | failed | timeout => exact hfailure (by simp) hrepeats
  | priors prior priorsVersion =>
    obtain ⟨rfl, rfl⟩ := hrepeats
    exact halike
  | admin kind => exact hrepeats.elim

/-! ### The journal of a run -/

def outcomeEntry (message : Json) (kind : LiveKind) : Option JournalEntry :=
  match payloadOf message with
  | .obj _ => some ⟨message.item "subject_id", .live kind⟩
  | _ => none

variable (floats : Floats)

def entryOf (message : Json) : Option JournalEntry :=
  match eventOf message with
  | .ok .reliabilityUpdated => (priorsEntry floats message).toOption
  | .ok .execFailed => outcomeEntry message .failed
  | .ok .execTimeout => outcomeEntry message .timeout
  | .ok .execCompleted => outcomeEntry message .completed
  | _ => none

namespace PluginRuntime

/-- The health manager folds the journal, and the legality knows the whole table. -/
structure Folding (runtime : PluginRuntime) (thresholds : Thresholds) : Prop where
  synced : runtime.health.Synced runtime.journal
  thresholds : runtime.health.thresholds = thresholds
  table : runtime.healthLegality.table = healthTransitions

/-- `state` and `reliability` read this carry of a provider. -/
def carryOf (runtime : PluginRuntime) (key : DictKey) : Carry :=
  (runtime.health.sync runtime.journal runtime.healthLegality key).1

variable {runtime : PluginRuntime}

theorem Folding.carryOf_eq (hfolding : runtime.Folding thresholds) (key : DictKey) :
    runtime.carryOf key = Plugins.health thresholds (entriesFor runtime.journal key) := by
  rw [← hfolding.thresholds]
  exact hfolding.synced.sync_eq hfolding.table key

theorem folding_new (thresholds : Thresholds) (topics : OrderedDict String (List Json))
    (storage : OrderedDict String String) : (new thresholds topics storage).Folding thresholds :=
  ⟨HealthManager.synced_fresh thresholds, rfl, rfl⟩

section

variable (hfolding : runtime.Folding thresholds)

include hfolding

theorem handleOutcome_keeps (message : Json)
    (kind : LiveKind) : (runtime.handleOutcome message kind).1.Folding thresholds ∧
      (runtime.handleOutcome message kind).1.journal =
        runtime.journal ++ (outcomeEntry message kind).toList := by
  unfold handleOutcome outcomeEntry
  cases payloadOf message with
  | obj fields =>
    have hsynced := hfolding.synced.append [⟨message.item "subject_id", .live kind⟩]
    simp only [recordOutcome]
    split
    · exact ⟨⟨hsynced, hfolding.thresholds, hfolding.table⟩, rfl⟩
    · next key _ =>
      exact ⟨⟨hsynced.sync hfolding.table key, hfolding.thresholds, hfolding.table⟩, rfl⟩
  | _ => exact ⟨hfolding, (append_nil _).symm⟩

theorem handleLifecycle_keeps (message : Json) :
    (runtime.handleLifecycle message).1.Folding thresholds ∧
      (runtime.handleLifecycle message).1.journal = runtime.journal := by
  unfold handleLifecycle
  cases payloadOf message with
  | obj fields =>
    simp only
    cases hhealth : runtime.healthLegality.onLifecycleEvent (.obj fields) with
    | error error => exact ⟨hfolding, rfl⟩
    | ok healthLegality =>
      have htable := (LifecycleLegality.table_of_onLifecycleEvent hhealth).trans hfolding.table
      simp only
      split
      · exact ⟨⟨hfolding.synced, hfolding.thresholds, htable⟩, rfl⟩
      · split
        · exact ⟨⟨hfolding.synced, hfolding.thresholds, htable⟩, rfl⟩
        · split
          · exact ⟨⟨hfolding.synced, hfolding.thresholds, htable⟩, rfl⟩
          · exact ⟨⟨hfolding.synced, hfolding.thresholds, htable⟩, rfl⟩
  | _ => exact ⟨hfolding, rfl⟩

theorem handleEvent_keeps
    (message : Json) : (runtime.handleEvent floats message).1.Folding thresholds ∧
      (runtime.handleEvent floats message).1.journal =
        runtime.journal ++ (entryOf floats message).toList := by
  unfold handleEvent entryOf
  cases eventOf message with
  | error fault => exact ⟨hfolding, (append_nil _).symm⟩
  | ok event =>
    cases event with
    | lifecycleChanged =>
      obtain ⟨hfolding', hjournal⟩ := handleLifecycle_keeps hfolding message
      exact ⟨hfolding', hjournal.trans (append_nil _).symm⟩
    | reliabilityUpdated =>
      simp only [dispatch, consumeReliabilityUpdate]
      cases priorsEntry floats message with
      | error fault => exact ⟨hfolding, (append_nil _).symm⟩
      | ok entry =>
        exact ⟨⟨hfolding.synced.append [entry], hfolding.thresholds, hfolding.table⟩, rfl⟩
    | execFailed => exact handleOutcome_keeps hfolding message .failed
    | execTimeout => exact handleOutcome_keeps hfolding message .timeout
    | execCompleted => exact handleOutcome_keeps hfolding message .completed

end

end PluginRuntime

structure Delivery where
  eventId : String
  message : Json

namespace PluginRuntime

def deliver (runtime : PluginRuntime) (deliveries : List Delivery) :
    PluginRuntime :=
  deliveries.foldl (fun runtime delivery ↦ (runtime.handleEvent floats delivery.message).1) runtime

end PluginRuntime

def firsts (deliveries : List Delivery) : List Delivery :=
  deliveries.foldl (fun kept delivery ↦
    if delivery.eventId ∈ kept.map Delivery.eventId then kept else kept ++ [delivery]) []

def observationFor (key : DictKey) (delivery : Delivery) : Option Observation :=
  match entryOf floats delivery.message with
  | none => none
  | some entry =>
    if entry.providerId.dictKey = .ok key then some entry.observation else none

theorem entriesFor_filterMap (key : DictKey) (deliveries : List Delivery) :
    entriesFor (deliveries.filterMap fun delivery ↦ entryOf floats delivery.message) key =
      deliveries.filterMap (observationFor floats key) := by
  induction deliveries with
  | nil => rfl
  | cons delivery rest ih =>
    rw [filterMap_cons, filterMap_cons, observationFor]
    cases entryOf floats delivery.message with
    | none => exact ih
    | some entry =>
      rw [← ih]
      simp only [entriesFor, filter_cons]
      by_cases hkey : entry.providerId.dictKey = .ok key
      · simp [hkey]
      · simp [hkey]

namespace PluginRuntime

theorem deliver_keeps {runtime : PluginRuntime}
    (hfolding : runtime.Folding thresholds) (deliveries : List Delivery) :
    (runtime.deliver floats deliveries).Folding thresholds ∧
      (runtime.deliver floats deliveries).journal =
        runtime.journal ++ deliveries.filterMap fun delivery ↦ entryOf floats delivery.message := by
  induction deliveries generalizing runtime with
  | nil => exact ⟨hfolding, (append_nil _).symm⟩
  | cons delivery rest ih =>
    obtain ⟨hnext, hjournal⟩ := handleEvent_keeps floats hfolding delivery.message
    obtain ⟨hlast, hjournal'⟩ := ih hnext
    refine ⟨hlast, hjournal'.trans ?_⟩
    rw [hjournal, append_assoc, filterMap_cons]
    cases entryOf floats delivery.message <;> rfl

/-- The health of a provider in a run from a new runtime is the fold over what is observed of it. -/
theorem carryOf_deliver (thresholds : Thresholds)
    (topics : OrderedDict String (List Json)) (storage : OrderedDict String String)
    (deliveries : List Delivery) (key : DictKey) :
    ((new thresholds topics storage).deliver floats deliveries).carryOf key =
      Plugins.health thresholds (deliveries.filterMap (observationFor floats key)) := by
  obtain ⟨hfolding, hjournal⟩ :=
    deliver_keeps floats (folding_new thresholds topics storage) deliveries
  rw [hfolding.carryOf_eq, hjournal]
  exact congrArg (Plugins.health thresholds) (entriesFor_filterMap floats key deliveries)

end PluginRuntime

/-- A version of the priors is a number that is not below another one. -/
def NotOlder (version other : Json) : Prop :=
  ∃ number otherNumber, version.number? = some number ∧ other.number? = some otherNumber ∧
    otherNumber ≤ number

/-- A version of the priors can come into force: it is a number, and not older than the version in
force, if there is one. -/
def Supersedes (version inForce : Json) : Prop :=
  NotOlder version version ∧ (inForce = .null ∨ NotOlder version inForce)

theorem NotOlder.trans {first second third : Json} (hfirst : NotOlder first second)
    (hsecond : NotOlder second third) : NotOlder first third := by
  obtain ⟨high, middle, hhigh, hmiddle, hle⟩ := hfirst
  obtain ⟨middle', low, hmiddle', hlow, hle'⟩ := hsecond
  rw [hmiddle] at hmiddle'
  cases hmiddle'
  exact ⟨high, low, hhigh, hlow, hle'.trans hle⟩

def Observation.update? : Observation → Option (FloatNumber × Json)
  | .priors prior priorsVersion => some (prior, priorsVersion)
  | _ => none

variable (observations : List Observation)

def updates : List (FloatNumber × Json) :=
  observations.filterMap Observation.update?

/-- The reliability is the neutral one before any update, then that of an update that no received
one is newer than. -/
def InForce (reliability : FloatNumber) : Prop :=
  (updates observations = [] ∧ reliability = initialCarry.reliability) ∨
    ∃ update ∈ updates observations, reliability = update.1 ∧
      ∀ other ∈ updates observations, NotOlder update.2 other.2

def Carry.Newest (carry : Carry) (observations : List Observation) : Prop :=
  (updates observations = [] ∧ carry.reliability = initialCarry.reliability ∧
      carry.priorsVersion = .null) ∨
    ((carry.reliability, carry.priorsVersion) ∈ updates observations ∧
      ∀ other ∈ updates observations, NotOlder carry.priorsVersion other.2)

theorem Carry.Newest.inForce {carry : Carry} {observations : List Observation}
    (hnewest : carry.Newest observations) : InForce observations carry.reliability := by
  rcases hnewest with ⟨hnone, hreliability, -⟩ | ⟨hmem, hnewest⟩
  · exact .inl ⟨hnone, hreliability⟩
  · exact .inr ⟨_, hmem, rfl, hnewest⟩

theorem updates_append (observation : Observation) :
    updates (observations ++ [observation]) =
      updates observations ++ observation.update?.toList := by
  unfold updates
  rw [filterMap_append]
  cases observation <;> rfl

theorem Carry.Newest.step {carry : Carry} {observations : List Observation}
    (hnewest : carry.Newest observations)
    (hsupersedes : ∀ update ∈ observation.update?, Supersedes update.2 carry.priorsVersion) :
    (freeStep thresholds carry observation).Newest (observations ++ [observation]) := by
  unfold Newest
  rw [updates_append]
  cases observation with
  | live kind =>
    simp only [Observation.update?, toList_none, append_nil]
    cases kind with
    | completed | failed | timeout => exact hnewest
  | admin kind =>
    simp only [Observation.update?, toList_none, append_nil]
    cases kind <;> exact hnewest
  | priors prior priorsVersion =>
    obtain ⟨hself, hinForce⟩ := hsupersedes (prior, priorsVersion) rfl
    refine .inr ⟨mem_append_right _ mem_cons_self, fun other hother ↦ ?_⟩
    rcases mem_append.mp hother with hearlier | hlast
    · rcases hnewest with ⟨hnone, -⟩ | ⟨-, hnewest⟩
      · rw [hnone] at hearlier
        cases hearlier
      · have hthere := hnewest other hearlier
        rcases hinForce with hnull | hnotOlder
        · rw [hnull] at hthere
          obtain ⟨number, -, hnumber, -⟩ := hthere
          cases hnumber
        · exact hnotOlder.trans hthere
    · rw [mem_singleton.mp hlast]
      exact hself

/-! ### Harmless deliveries -/

variable (deliveries : List Delivery) (delivery : Delivery)

def Delivered : Prop :=
  delivery.eventId ∈ deliveries.map Delivery.eventId

/-- A delivery is harmless in the state before it: a repeated one changes nothing that is read
again, and an update is not older than the one in force. -/
def PluginRuntime.Harmless (runtime : PluginRuntime) (earlier : List Delivery)
    (delivery : Delivery) : Prop :=
  ∀ key, ∀ observation ∈ observationFor floats key delivery,
    (Delivered earlier delivery → (runtime.carryOf key).Repeats observation) ∧
      ∀ update ∈ observation.update?, Supersedes update.2 (runtime.carryOf key).priorsVersion

/-- Every delivery of the run is harmless in the state before it. -/
def HarmlessRun (start : PluginRuntime) (deliveries : List Delivery) : Prop :=
  ∀ earlier delivery later, deliveries = earlier ++ delivery :: later →
    (start.deliver floats earlier).Harmless floats earlier delivery

/-- Every provider has the health state and the reliability that it has when every message is
handled once, and its reliability is that of the newest update. -/
def Tolerates (start : PluginRuntime) (deliveries : List Delivery) : Prop :=
  ∀ key,
    ((start.deliver floats deliveries).carryOf key).effective =
        ((start.deliver floats (firsts deliveries)).carryOf key).effective ∧
      ((start.deliver floats deliveries).carryOf key).reliability =
        ((start.deliver floats (firsts deliveries)).carryOf key).reliability ∧
      InForce (deliveries.filterMap (observationFor floats key))
        ((start.deliver floats deliveries).carryOf key).reliability

theorem firsts_append :
    firsts (deliveries ++ [delivery]) =
      if delivery.eventId ∈ (firsts deliveries).map Delivery.eventId then firsts deliveries
      else firsts deliveries ++ [delivery] := by
  unfold firsts
  rw [foldl_append]
  rfl

theorem delivered_firsts :
    Delivered (firsts deliveries) delivery ↔ Delivered deliveries delivery := by
  unfold Delivered
  induction deliveries using List.reverseRecOn with
  | nil => rfl
  | append_singleton deliveries last ih =>
    rw [firsts_append, map_append, mem_append, ← ih]
    split
    · next hlast =>
      constructor
      · exact .inl
      · rintro (hmem | hmem)
        · exact hmem
        · rw [mem_singleton.mp hmem]
          exact hlast
    · rw [map_append, mem_append]

variable {deliveries : List Delivery}

theorem harmlessRun_append_iff {floats : Floats} {start : PluginRuntime} {delivery : Delivery} :
    HarmlessRun floats start (deliveries ++ [delivery]) ↔ HarmlessRun floats start deliveries ∧
      (start.deliver floats deliveries).Harmless floats deliveries delivery := by
  constructor
  · intro hrun
    refine ⟨fun earlier other later hsplit ↦ ?_, hrun deliveries delivery [] rfl⟩
    refine hrun earlier other (later ++ [delivery]) ?_
    rw [hsplit, append_assoc, cons_append]
  · rintro ⟨hrun, hlast⟩ earlier other later hsplit
    rcases eq_nil_or_concat later with rfl | ⟨before, last, rfl⟩
    · obtain ⟨rfl, rfl⟩ := append_singleton_inj.mp hsplit
      exact hlast
    · rw [concat_eq_append, ← cons_append, ← append_assoc] at hsplit
      obtain ⟨hsplit, -⟩ := append_singleton_inj.mp hsplit
      exact hrun earlier other before hsplit

section Run

variable {floats : Floats} {topics : OrderedDict String (List Json)}
  {storage : OrderedDict String String}

/-- The carry of a harmless run is alike to that of the first deliveries, and holds the newest
update. -/
theorem alike_of_harmless
    (hrun : HarmlessRun floats (.new thresholds topics storage) deliveries) (key : DictKey) :
    (health thresholds (deliveries.filterMap (observationFor floats key))).Alike
        (health thresholds ((firsts deliveries).filterMap (observationFor floats key))) ∧
      (health thresholds (deliveries.filterMap (observationFor floats key))).Newest
        (deliveries.filterMap (observationFor floats key)) := by
  induction deliveries using List.reverseRecOn with
  | nil => exact ⟨Carry.Alike.refl_initial, .inl ⟨rfl, rfl, rfl⟩⟩
  | append_singleton deliveries delivery ih =>
    obtain ⟨hrun, hharmless⟩ := harmlessRun_append_iff.mp hrun
    obtain ⟨halike, hnewest⟩ := ih hrun
    have hobserved : ∀ others : List Delivery,
        (others ++ [delivery]).filterMap (observationFor floats key) =
          others.filterMap (observationFor floats key) ++
            (observationFor floats key delivery).toList := by
      intro others
      cases hobservation : observationFor floats key delivery <;> simp [hobservation]
    rw [firsts_append, hobserved]
    cases hobservation : observationFor floats key delivery with
    | none =>
      rw [toList_none, append_nil]
      refine ⟨?_, hnewest⟩
      split
      · exact halike
      · rw [hobserved, hobservation, toList_none, append_nil]
        exact halike
    | some observation =>
      obtain ⟨hrepeats, hsupersedes⟩ := hharmless key observation hobservation
      rw [PluginRuntime.carryOf_deliver] at hrepeats hsupersedes
      have hstep : ∀ observations : List Observation,
          health thresholds (observations ++ [observation]) =
            freeStep thresholds (health thresholds observations) observation := by
        intro observations
        unfold health
        rw [foldl_append]
        rfl
      rw [toList_some, hstep]
      refine ⟨?_, hnewest.step hsupersedes⟩
      split
      · next hagain =>
        exact halike.stutter (hrepeats ((delivered_firsts deliveries delivery).mp hagain))
      · rw [hobserved, hobservation, toList_some, hstep]
        exact halike.step observation

/-- Assumes: every delivery is harmless in the state before it. Redelivery is tolerated. -/
theorem tolerates_of_harmless
    (hrun : HarmlessRun floats (.new thresholds topics storage) deliveries) :
    Tolerates floats (.new thresholds topics storage) deliveries := by
  intro key
  obtain ⟨halike, hnewest⟩ := alike_of_harmless hrun key
  rw [PluginRuntime.carryOf_deliver, PluginRuntime.carryOf_deliver]
  refine ⟨?_, halike.reliability, hnewest.inForce⟩
  unfold Carry.effective
  rw [halike.state, halike.disabled]

end Run

def failureDelivery (eventId : String) : Delivery :=
  ⟨eventId, .obj [("event_name", .str "exec.failed"), ("subject_id", .str "p"),
    ("payload", .obj [])]⟩

def newRuntime : PluginRuntime := .new defaultThresholds .empty .empty

def tripleFailure : List Delivery := [failureDelivery "e", failureDelivery "e", failureDelivery "e"]

/-- The provider is quarantined after one failure. -/
theorem not_tolerates_tripleFailure : ¬ Tolerates plainFloats newRuntime tripleFailure := by
  intro htolerates
  have hstate := (htolerates (.text "p")).1
  revert hstate
  decide +kernel

/-- The third of three failures is delivered again. -/
def lateRepetition : List Delivery :=
  [failureDelivery "e", failureDelivery "f", failureDelivery "g"] ++ [failureDelivery "g"]

theorem observation_failureDelivery {key : DictKey} {eventId : String}
    (hobservation : observation ∈ observationFor plainFloats key (failureDelivery eventId)) :
    key = .text "p" ∧ observation = .live .failed := by
  unfold observationFor at hobservation
  rw [show entryOf plainFloats (failureDelivery eventId).message =
    some ⟨.str "p", .live .failed⟩ from rfl] at hobservation
  simp only at hobservation
  split at hobservation
  · next hkey =>
    cases hkey
    cases hobservation
    exact ⟨rfl, rfl⟩
  · cases hobservation

theorem tolerates_lateRepetition : Tolerates plainFloats newRuntime lateRepetition := by
  refine tolerates_of_harmless (harmlessRun_append_iff.mpr ⟨?_, ?_⟩)
  · intro earlier delivery later hsplit key observation hobservation
    have hnodup : ((earlier ++ delivery :: later).map Delivery.eventId).Nodup := by
      rw [← hsplit]
      decide
    have hfresh : ¬ Delivered earlier delivery := by
      rw [map_append, map_cons, nodup_middle] at hnodup
      exact fun hdelivered ↦ (nodup_cons.mp hnodup).1 (mem_append_left _ hdelivered)
    have hmem : ∃ eventId, failureDelivery eventId = delivery := by
      have hthere : delivery ∈ ["e", "f", "g"].map failureDelivery := by
        change delivery ∈ [failureDelivery "e", failureDelivery "f", failureDelivery "g"]
        rw [hsplit]
        exact mem_append_right earlier mem_cons_self
      obtain ⟨eventId, -, heq⟩ := mem_map.mp hthere
      exact ⟨eventId, heq⟩
    obtain ⟨eventId, rfl⟩ := hmem
    obtain ⟨-, rfl⟩ := observation_failureDelivery hobservation
    refine ⟨fun hdelivered ↦ absurd hdelivered hfresh, fun update hupdate ↦ ?_⟩
    cases hupdate
  · intro key observation hobservation
    obtain ⟨rfl, rfl⟩ := observation_failureDelivery hobservation
    refine ⟨fun _ ↦ ?_, fun update hupdate ↦ ?_⟩
    · change (PluginRuntime.carryOf _ _).state = .quarantined
      decide +kernel
    · cases hupdate

end AbsoluteZero.Plugins

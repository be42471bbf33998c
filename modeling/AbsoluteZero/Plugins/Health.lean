import AbsoluteZero.Foundations.Checked
import AbsoluteZero.Foundations.ClosedVocabulary
import AbsoluteZero.Foundations.JsonText
import AbsoluteZero.Foundations.PyDict

/-!
# Health of the providers

The health of a provider is a fold over the entries of an append-only journal, kept in a cache that
is brought up to date when it is read. The table of the machine holds every transition that the
evidence can propose (`table_of_failure`, `table_of_success`), so the cache is the fold.
-/

namespace AbsoluteZero.Plugins

open Foundations List

/-- A float: its value and its `repr`. -/
structure FloatNumber where
  value : Rat
  text : String

def FloatNumber.toJson (number : FloatNumber) : Json := .float number.value number.text

/-- `float(value)` with the reader of decimal literals; the `repr` of a float is read back as it. -/
structure Floats where
  reader : JsonText.FloatReader
  convert : Json → Except PyError FloatNumber
  convert_read : ∀ value number, convert value = .ok number →
    reader.read number.text = some (number.value, number.text)
  half_read : reader.read "0.5" = some (1 / 2, "0.5")

/-- Three floats with the texts that they print as. -/
def fewFloats : List (String × Rat) := [("0.0", 0), ("0.5", 1 / 2), ("1.0", 1)]

def plainFloats : Floats where
  reader :=
    { read := fun text ↦ (OrderedDict.find text fewFloats).map fun value ↦ (value, text)
      spells := by
        intro literal value text hread
        obtain ⟨found, hfound, heq⟩ := Option.map_eq_some_iff.mp hread
        cases heq
        have hmem := OrderedDict.mem_of_find hfound
        simp only [fewFloats, List.mem_cons, List.not_mem_nil, or_false, Prod.mk.injEq] at hmem
        rcases hmem with ⟨rfl, rfl⟩ | ⟨rfl, rfl⟩ | ⟨rfl, rfl⟩ <;>
          refine ⟨by decide, by decide +kernel⟩ }
  convert value :=
    match (fewFloats.find? fun item ↦ value.number? = some item.2) with
    | some item => .ok ⟨item.2, item.1⟩
    | none => .error .valueError
  convert_read := by
    intro value number hnumber
    split at hnumber
    · next item hitem =>
      cases hnumber
      have hmem := List.mem_of_find?_eq_some hitem
      simp only [fewFloats, List.mem_cons, List.not_mem_nil, or_false] at hmem
      rcases hmem with rfl | rfl | rfl <;> rfl
    · cases hnumber
  half_read := rfl

/-! ### Legality -/

/-- The states of a provider's health below the administrative bar. -/
inductive HealthState
  | healthy
  | degraded
  | quarantined
  | recovering
  | recovered
  deriving DecidableEq

instance : ClosedVocabulary HealthState where
  all := [.healthy, .degraded, .quarantined, .recovering, .recovered]
  text
    | .healthy => "HEALTHY"
    | .degraded => "DEGRADED"
    | .quarantined => "QUARANTINED"
    | .recovering => "RECOVERING"
    | .recovered => "RECOVERED"

/-- `LOAD_STATES`. -/
inductive LoadState
  | notLoaded
  | loading
  | prepared
  | loaded
  | released
  | unavailable
  deriving DecidableEq

instance : ClosedVocabulary LoadState where
  all := [.notLoaded, .loading, .prepared, .loaded, .released, .unavailable]
  text
    | .notLoaded => "NOT_LOADED"
    | .loading => "LOADING"
    | .prepared => "PREPARED"
    | .loaded => "LOADED"
    | .released => "RELEASED"
    | .unavailable => "UNAVAILABLE"

def healthTransitions : List (HealthState × HealthState) :=
  [(.healthy, .degraded), (.healthy, .quarantined), (.degraded, .quarantined),
    (.degraded, .healthy), (.quarantined, .recovering), (.recovering, .quarantined),
    (.recovering, .recovered), (.recovered, .quarantined), (.recovered, .degraded),
    (.recovered, .healthy)]

def loadTransitions : List (LoadState × LoadState) :=
  [(.notLoaded, .loading), (.notLoaded, .unavailable), (.loading, .prepared),
    (.loading, .unavailable), (.prepared, .loaded), (.prepared, .unavailable),
    (.loaded, .released), (.loaded, .unavailable), (.released, .loading),
    (.released, .unavailable), (.unavailable, .notLoaded)]

/-- `LifecycleLegality`: a table of transitions, and the ones that an event decided for a
subject. -/
structure LifecycleLegality (State : Type) where
  table : List (State × State)
  overrides : List (DictKey × DictKey × DictKey)

/-- Triples of keys are told apart by `==`. -/
instance lawfulBEqKeys : LawfulBEq (DictKey × DictKey × DictKey) := inferInstance

namespace LifecycleLegality

variable {State : Type} [DecidableEq State] [ClosedVocabulary State]

/-- `__call__`. -/
def permits (legality : LifecycleLegality State) (subject : DictKey) (fromState toState : State) :
    Bool :=
  (subject, .text (ClosedVocabulary.text fromState), .text (ClosedVocabulary.text toState)) ∈
      legality.overrides ∨ (fromState, toState) ∈ legality.table

/-- `on_lifecycle_event` for a dict: a payload with the three keys becomes an override. A
`TypeError` when one of the three values has no hash. -/
def onLifecycleEvent (legality : LifecycleLegality State) (event : Json) :
    Except PyError (LifecycleLegality State) :=
  match event.get? "subject_id", event.get? "from_state", event.get? "to_state" with
  | some subject, some fromState, some toState => do
    let subjectKey ← subject.dictKey
    let fromKey ← fromState.dictKey
    let toKey ← toState.dictKey
    let override := (subjectKey, fromKey, toKey)
    return if override ∈ legality.overrides then legality
      else { legality with overrides := override :: legality.overrides }
  | _, _, _ => .ok legality

end LifecycleLegality

def defaultHealthLegality : LifecycleLegality HealthState := ⟨healthTransitions, []⟩

def defaultLoadLegality : LifecycleLegality LoadState := ⟨loadTransitions, []⟩

/-- `_LIVE_KINDS`. -/
inductive LiveKind
  | completed
  | failed
  | timeout

/-- `_ADMIN_KINDS`. -/
inductive AdminKind
  | forceQuarantine
  | forceRelease
  | disable
  | enable

/-- What an entry of the journal observes. -/
inductive Observation
  | live (kind : LiveKind)
  | admin (kind : AdminKind)
  | priors (prior : FloatNumber) (priorsVersion : Json)

structure JournalEntry where
  providerId : Json
  observation : Observation

/-- `EvidenceJournal`, oldest entry first. -/
abbrev EvidenceJournal := List JournalEntry

/-- `entries_for` a provider, whose id hashes to the key. -/
def entriesFor (journal : EvidenceJournal) (key : DictKey) : List Observation :=
  (journal.filter fun entry ↦ entry.providerId.dictKey = .ok key).map JournalEntry.observation

/-! ### The fold -/

/-- The thresholds of the evidence policy. -/
structure Thresholds where
  consecutiveFailuresToDegrade : Int
  failuresToQuarantine : Int
  successesToRecover : Int

def defaultThresholds : Thresholds := ⟨1, 3, 2⟩

/-- What the fold carries from entry to entry. -/
structure Carry where
  state : HealthState
  failures : Int
  successes : Int
  disabled : Bool
  reliability : FloatNumber
  priorsVersion : Json

def initialCarry : Carry := ⟨.healthy, 0, 0, false, ⟨1 / 2, "0.5"⟩, .null⟩

/-- What the state of health displays: the administrative bar is on top of it. -/
inductive Displayed
  | unavailable
  | shown (state : HealthState)
  deriving DecidableEq

def Carry.effective (carry : Carry) : Displayed :=
  if carry.disabled then .unavailable else .shown carry.state

variable (thresholds : Thresholds)

/-- The state that a failure proposes, counted among the consecutive failures. -/
def proposedByFailure (state : HealthState) (failures : Int) :
    HealthState :=
  match state with
  | .recovering => .quarantined
  | .recovered => if thresholds.failuresToQuarantine ≤ failures then .quarantined else .degraded
  | .healthy =>
    if thresholds.failuresToQuarantine ≤ failures then .quarantined
    else if thresholds.consecutiveFailuresToDegrade ≤ failures then .degraded
    else .healthy
  | .degraded | .quarantined =>
    if thresholds.failuresToQuarantine ≤ failures then .quarantined else state

/-- The state that a success proposes, counted among the consecutive successes. -/
def proposedBySuccess (state : HealthState) (successes : Int) :
    HealthState :=
  match state with
  | .quarantined => .recovering
  | .recovering => if thresholds.successesToRecover ≤ successes then .recovered else .recovering
  | .recovered => .healthy
  | .degraded => .healthy
  | .healthy => .healthy

variable (permits : HealthState → HealthState → Bool)

def legalized (state proposed : HealthState) :
    HealthState :=
  if proposed ≠ state ∧ permits state proposed then proposed else state

def step (carry : Carry) :
    Observation → Carry
  | .priors prior priorsVersion =>
    { carry with reliability := prior, priorsVersion := priorsVersion }
  | .admin .disable => { carry with disabled := true }
  | .admin .enable => { carry with disabled := false }
  | .admin .forceQuarantine => { carry with state := .quarantined, failures := 0, successes := 0 }
  | .admin .forceRelease => { carry with state := .healthy, failures := 0, successes := 0 }
  | .live .completed =>
    { carry with
      state := legalized permits carry.state
        (proposedBySuccess thresholds carry.state (carry.successes + 1))
      failures := 0
      successes := carry.successes + 1 }
  | .live _ =>
    { carry with
      state := legalized permits carry.state
        (proposedByFailure thresholds carry.state (carry.failures + 1))
      failures := carry.failures + 1
      successes := 0 }

/-- `HealthManager`: its thresholds, and by provider the carry with the number of entries folded. -/
structure HealthManager where
  thresholds : Thresholds
  cache : OrderedDict DictKey (Carry × Nat)

namespace HealthManager

/-- The carry of a provider with the number of entries folded into it. -/
def cached (manager : HealthManager) (key : DictKey) : Carry × Nat :=
  (manager.cache.get? key).getD (initialCarry, 0)

/-- `_sync`, for a provider whose id hashes to the key: fold what came since. -/
def sync (manager : HealthManager) (journal : EvidenceJournal)
    (legality : LifecycleLegality HealthState) (key : DictKey) : Carry × HealthManager :=
  let entries := entriesFor journal key
  let held := manager.cached key
  let carry := (entries.drop held.2).foldl (step manager.thresholds (legality.permits key)) held.1
  (carry, { manager with cache := manager.cache.insert key (carry, entries.length) })

end HealthManager

/-! ### Legal proposals -/

theorem table_of_failure {thresholds : Thresholds} {state : HealthState} {failures : Int}
    (hchanged : proposedByFailure thresholds state failures ≠ state) :
    (state, proposedByFailure thresholds state failures) ∈ healthTransitions := by
  by_cases hquarantine : thresholds.failuresToQuarantine ≤ failures
  · cases state <;> simp [proposedByFailure, hquarantine, healthTransitions] at hchanged ⊢
  by_cases hdegrade : thresholds.consecutiveFailuresToDegrade ≤ failures
  · cases state <;> simp [proposedByFailure, hquarantine, hdegrade, healthTransitions] at hchanged ⊢
  · cases state <;> simp [proposedByFailure, hquarantine, hdegrade, healthTransitions] at hchanged ⊢

theorem table_of_success {thresholds : Thresholds} {state : HealthState} {successes : Int}
    (hchanged : proposedBySuccess thresholds state successes ≠ state) :
    (state, proposedBySuccess thresholds state successes) ∈ healthTransitions := by
  by_cases hrecover : thresholds.successesToRecover ≤ successes
  · cases state <;> simp [proposedBySuccess, hrecover, healthTransitions] at hchanged ⊢
  · cases state <;> simp [proposedBySuccess, hrecover, healthTransitions] at hchanged ⊢

/-- A permission that holds of the whole table. -/
def Covers : Prop :=
  ∀ pair ∈ healthTransitions, permits pair.1 pair.2 = true

/-- A machine that permits its whole table enacts every proposal from it. -/
theorem legalized_of_table {permits : HealthState → HealthState → Bool} (hpermits : Covers permits)
    {state proposed : HealthState}
    (htable : proposed ≠ state → (state, proposed) ∈ healthTransitions) :
    legalized permits state proposed = proposed := by
  unfold legalized
  by_cases hsame : proposed = state
  · rw [if_neg (by simp [hsame]), hsame]
  · rw [if_pos ⟨hsame, hpermits _ (htable hsame)⟩]

/-- Machines that permit the whole table step alike. -/
theorem step_of_covers {permits permits' : HealthState → HealthState → Bool}
    (hpermits : Covers permits) (hpermits' : Covers permits') (thresholds : Thresholds)
    (carry : Carry) (observation : Observation) :
    step thresholds permits carry observation = step thresholds permits' carry observation := by
  have hfailure := fun (state : HealthState) (failures : Int) ↦
    (legalized_of_table hpermits (@table_of_failure thresholds state failures)).trans
      (legalized_of_table hpermits' table_of_failure).symm
  have hsuccess := fun (state : HealthState) (successes : Int) ↦
    (legalized_of_table hpermits (@table_of_success thresholds state successes)).trans
      (legalized_of_table hpermits' table_of_success).symm
  cases observation with
  | priors prior priorsVersion => rfl
  | admin kind => cases kind <;> rfl
  | live kind => cases kind <;> simp only [step, hfailure, hsuccess]

/-- The step of a machine that never refuses. -/
def freeStep : Carry → Observation → Carry :=
  step thresholds fun _ _ ↦ true

def health (entries : List Observation) : Carry :=
  entries.foldl (freeStep thresholds) initialCarry

theorem foldl_step_of_covers {permits : HealthState → HealthState → Bool}
    (hpermits : Covers permits) (thresholds : Thresholds) (entries : List Observation)
    (carry : Carry) :
    entries.foldl (step thresholds permits) carry = entries.foldl (freeStep thresholds) carry := by
  induction entries generalizing carry with
  | nil => rfl
  | cons entry rest ih =>
    simp only [foldl_cons]
    have hfree : Covers fun _ _ ↦ true := fun _ _ ↦ rfl
    rw [step_of_covers hpermits hfree thresholds carry entry, ih]
    rfl

variable {legality : LifecycleLegality HealthState}

theorem covers_permits (htable : legality.table = healthTransitions) (key : DictKey) :
    Covers (legality.permits key) := by
  rintro ⟨fromState, toState⟩ hpair
  unfold LifecycleLegality.permits
  rw [htable]
  exact decide_eq_true (Or.inr hpair)

/-- An event changes the overrides only. -/
theorem LifecycleLegality.table_of_onLifecycleEvent {State : Type} [DecidableEq State]
    [ClosedVocabulary State] {legality legality' : LifecycleLegality State} {event : Json}
    (hlegality' : legality.onLifecycleEvent event = .ok legality') :
    legality'.table = legality.table := by
  unfold onLifecycleEvent at hlegality'
  split at hlegality'
  · obtain ⟨subjectKey, -, hrest⟩ := Checked.bind_eq_ok_iff.mp hlegality'
    obtain ⟨fromKey, -, hrest⟩ := Checked.bind_eq_ok_iff.mp hrest
    obtain ⟨toKey, -, hrest⟩ := Checked.bind_eq_ok_iff.mp hrest
    cases hrest
    split <;> rfl
  · cases hlegality'
    rfl

theorem entriesFor_append (journal later : EvidenceJournal) (key : DictKey) :
    entriesFor (journal ++ later) key = entriesFor journal key ++ entriesFor later key := by
  unfold entriesFor
  rw [filter_append, map_append]

namespace HealthManager

/-- The cache holds the fold of a prefix of the provider's entries. -/
def Synced (manager : HealthManager) (journal : EvidenceJournal) : Prop :=
  ∀ key, (manager.cached key).2 ≤ (entriesFor journal key).length ∧
    (manager.cached key).1 =
      health manager.thresholds ((entriesFor journal key).take (manager.cached key).2)

variable {manager : HealthManager} {journal : EvidenceJournal}

theorem synced_fresh : Synced ⟨thresholds, .empty⟩ [] :=
  fun _ ↦ ⟨Nat.le_refl 0, rfl⟩

theorem Synced.append (hsynced : manager.Synced journal) (later : EvidenceJournal) :
    manager.Synced (journal ++ later) := by
  intro key
  obtain ⟨hlength, hcarry⟩ := hsynced key
  rw [entriesFor_append]
  refine ⟨?_, ?_⟩
  · rw [length_append]
    exact Nat.le_add_right_of_le hlength
  · rw [take_append_of_le_length hlength]
    exact hcarry

theorem cached_sync (legality : LifecycleLegality HealthState) (key other : DictKey) :
    (manager.sync journal legality key).2.cached other = if key = other then
        ((manager.sync journal legality key).1, (entriesFor journal key).length)
      else manager.cached other := by
  unfold cached sync
  rw [OrderedDict.get?_insert]
  split <;> rfl

/-- What is read is the fold of all entries. -/
theorem Synced.sync_eq (hsynced : manager.Synced journal)
    (htable : legality.table = healthTransitions)
    (key : DictKey) : (manager.sync journal legality key).1 =
      health manager.thresholds (entriesFor journal key) := by
  obtain ⟨-, hcarry⟩ := hsynced key
  unfold sync
  simp only
  rw [foldl_step_of_covers (covers_permits htable key), hcarry]
  unfold health
  rw [← foldl_append, take_append_drop]

theorem Synced.sync (hsynced : manager.Synced journal) (htable : legality.table = healthTransitions)
    (key : DictKey) : (manager.sync journal legality key).2.Synced journal := by
  intro other
  rw [cached_sync]
  split
  · next heq =>
    subst heq
    refine ⟨Nat.le_refl _, ?_⟩
    rw [take_length]
    exact hsynced.sync_eq htable key
  · exact hsynced other

end HealthManager

end AbsoluteZero.Plugins

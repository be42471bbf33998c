import Mathlib.Data.List.Basic

/-!
# Versioned states

A mutation is validated against the current content by a handler that answers the next content or
refuses; an accepted mutation makes the next version, and every version stays readable under its
number (`atVersion_offer`). What the handler preserves holds in every version (`All.offer`).
-/

namespace AbsoluteZero.Foundations

open List

/-- A store with all its versions, oldest first: version `n` is the `n`-th entry, and the last one
is the current content. -/
structure Versioned (State : Type) where
  version : Nat
  current : State
  history : List State
  history_length : history.length = version + 1
  history_last : history[version]? = some current

namespace Versioned

variable {State Mutation Refusal : Type}

def fresh (state : State) : Versioned State := ⟨0, state, [state], rfl, rfl⟩

def commit (store : Versioned State) (working : State) : Versioned State where
  version := store.version + 1
  current := working
  history := store.history ++ [working]
  history_length := by rw [List.length_append, store.history_length, List.length_singleton]
  history_last := by
    rw [← store.history_length, List.getElem?_append_right (Nat.le_refl _), Nat.sub_self]
    rfl

/-- The content of a version, for a number that some version has. -/
def atVersion (store : Versioned State) (number : Int) : Option State :=
  if number < 0 ∨ (store.version : Int) < number then none else store.history[number.toNat]?

/-- Validate a mutation against the current content, then commit what the handler answers. -/
def apply (handler : State → Mutation → Except Refusal State) (store : Versioned State)
    (mutation : Mutation) : Versioned State × Except Refusal Nat :=
  match handler store.current mutation with
  | .error refusal => (store, .error refusal)
  | .ok working => (store.commit working, .ok (store.version + 1))

/-- The store after a sequence of mutations, accepted or refused. -/
def offer (handler : State → Mutation → Except Refusal State) (store : Versioned State)
    (mutations : List Mutation) : Versioned State :=
  mutations.foldl (fun store mutation ↦ (store.apply handler mutation).1) store

/-- How many mutations of a sequence are accepted. -/
def accepted (handler : State → Mutation → Except Refusal State) (store : Versioned State) :
    List Mutation → Nat
  | [] => 0
  | mutation :: rest =>
    (match (store.apply handler mutation).2 with
      | .ok _ => 1
      | .error _ => 0) + accepted handler (store.apply handler mutation).1 rest

section Laws

variable {handler : State → Mutation → Except Refusal State} {store : Versioned State}

/-- A mutation is refused and changes nothing, or its result is the next version. -/
theorem apply_cases (handler : State → Mutation → Except Refusal State) (store : Versioned State)
    (mutation : Mutation) : (∃ refusal, handler store.current mutation = .error refusal ∧
      store.apply handler mutation = (store, .error refusal)) ∨
    ∃ working, handler store.current mutation = .ok working ∧
      store.apply handler mutation = (store.commit working, .ok (store.version + 1)) := by
  unfold apply
  cases handler store.current mutation with
  | error refusal => exact .inl ⟨refusal, rfl, rfl⟩
  | ok working => exact .inr ⟨working, rfl, rfl⟩

theorem apply_of_error {mutation : Mutation} {refusal : Refusal}
    (hrefused : (store.apply handler mutation).2 = .error refusal) :
    (store.apply handler mutation).1 = store := by
  rcases apply_cases handler store mutation with ⟨other, -, heq⟩ | ⟨working, -, heq⟩
  · rw [heq]
  · rw [heq] at hrefused
    cases hrefused

theorem version_offer (handler : State → Mutation → Except Refusal State) (store : Versioned State)
    (mutations : List Mutation) :
    (store.offer handler mutations).version = store.version + accepted handler store mutations := by
  induction mutations generalizing store with
  | nil => rfl
  | cons mutation rest ih =>
    change (offer handler (store.apply handler mutation).1 rest).version = _
    rw [ih, accepted]
    rcases apply_cases handler store mutation with ⟨refusal, -, heq⟩ | ⟨working, -, heq⟩
    · rw [heq]
      simp only [Nat.zero_add]
    · rw [heq]
      simp only [commit]
      omega

variable {state : State} {number : Int}

theorem atVersion_eq_some_iff : store.atVersion number = some state ↔
      0 ≤ number ∧ store.history[number.toNat]? = some state := by
  unfold atVersion
  constructor
  · intro hstate
    split at hstate
    · cases hstate
    · exact ⟨by omega, hstate⟩
  · rintro ⟨hnumber, hstate⟩
    obtain ⟨hlength, -⟩ := List.getElem?_eq_some_iff.mp hstate
    have hbound := store.history_length
    rw [if_neg (by omega)]
    exact hstate

theorem exists_atVersion_iff :
    (∃ state, store.atVersion number = some state) ↔ 0 ≤ number ∧ number ≤ store.version := by
  have hbound := store.history_length
  constructor
  · rintro ⟨state, hstate⟩
    obtain ⟨hnumber, hfound⟩ := atVersion_eq_some_iff.mp hstate
    obtain ⟨hlength, -⟩ := List.getElem?_eq_some_iff.mp hfound
    omega
  · rintro ⟨hnumber, hversion⟩
    exact ⟨_, atVersion_eq_some_iff.mpr ⟨hnumber, getElem?_eq_getElem (by omega)⟩⟩

theorem atVersion_current (store : Versioned State) :
    store.atVersion store.version = some store.current :=
  atVersion_eq_some_iff.mpr ⟨by omega, store.history_last⟩

theorem atVersion_commit (working : State) (hstate : store.atVersion number = some state) :
    (store.commit working).atVersion number = some state := by
  obtain ⟨hnumber, hfound⟩ := atVersion_eq_some_iff.mp hstate
  obtain ⟨hlength, -⟩ := List.getElem?_eq_some_iff.mp hfound
  refine atVersion_eq_some_iff.mpr ⟨hnumber, ?_⟩
  change (store.history ++ [working])[number.toNat]? = some state
  rw [getElem?_append_left hlength, hfound]

/-- A version that exists is never changed. -/
theorem atVersion_offer (mutations : List Mutation) (hstate : store.atVersion number = some state) :
    (store.offer handler mutations).atVersion number = some state := by
  induction mutations generalizing store with
  | nil => exact hstate
  | cons mutation rest ih =>
    refine @ih (store.apply handler mutation).1 ?_
    rcases apply_cases handler store mutation with ⟨refusal, -, heq⟩ | ⟨working, -, heq⟩
    · rwa [heq]
    · rw [heq]
      exact atVersion_commit working hstate

/-- The versions of a new store are those from 0 to the number of accepted mutations, each the same
after whatever is offered next, and a refused mutation leaves the store as it was. -/
theorem lawful_offer {initial : State} {mutations : List Mutation}
    (hstore : store = (fresh initial).offer handler mutations) :
    store.version = accepted handler (fresh initial) mutations ∧
    (∀ number, (∃ state, store.atVersion number = some state) ↔
      0 ≤ number ∧ number ≤ store.version) ∧
    (∀ number state, store.atVersion number = some state →
      ∀ later, ((fresh initial).offer handler (mutations ++ later)).atVersion number = some state) ∧
    ∀ mutation refusal, (store.apply handler mutation).2 = .error refusal →
      (store.apply handler mutation).1 = store := by
  subst hstore
  refine ⟨?_, fun number ↦ exists_atVersion_iff, fun number state hstate later ↦ ?_,
    fun mutation refusal hrefused ↦ apply_of_error hrefused⟩
  · rw [version_offer]
    exact Nat.zero_add _
  · rw [offer, foldl_append]
    exact atVersion_offer later hstate

/-- The content of a version after one mutation is that of a version before, or the next content. -/
theorem history_apply (handler : State → Mutation → Except Refusal State) (store : Versioned State)
    (mutation : Mutation) : (store.apply handler mutation).1.history = store.history ∨
      ∃ working, handler store.current mutation = .ok working ∧
        (store.apply handler mutation).1.history = store.history ++ [working] := by
  rcases apply_cases handler store mutation with ⟨refusal, -, heq⟩ | ⟨working, hworking, heq⟩
  · exact .inl (by rw [heq])
  · exact .inr ⟨working, hworking, by rw [heq]; rfl⟩

/-- A run: the mutations are offered one by one, each to a store in which it may be offered. -/
def Admits (allowed : State → Mutation → Prop) (handler : State → Mutation → Except Refusal State)
    (store : Versioned State) : List Mutation → Prop
  | [] => True
  | mutation :: rest =>
    allowed store.current mutation ∧ Admits allowed handler (store.apply handler mutation).1 rest

theorem admits_true (handler : State → Mutation → Except Refusal State) (store : Versioned State)
    (mutations : List Mutation) : Admits (fun _ _ ↦ True) handler store mutations := by
  induction mutations generalizing store with
  | nil => trivial
  | cons mutation rest ih => exact ⟨trivial, ih _⟩

/-- Every version has the property, the current one included. -/
def All (property : State → Prop) (store : Versioned State) : Prop :=
  ∀ state ∈ store.history, property state

variable {property : State → Prop}

theorem All.current (hall : store.All property) : property store.current :=
  hall _ (mem_of_getElem? store.history_last)

theorem All.atVersion (hall : store.All property)
    (hstate : store.atVersion number = some state) : property state :=
  hall _ (mem_of_getElem? (atVersion_eq_some_iff.mp hstate).2)

theorem all_of_atVersion
    (hversions : ∀ number state, store.atVersion number = some state → property state) :
    store.All property := by
  intro state hstate
  obtain ⟨position, hposition⟩ := mem_iff_getElem?.mp hstate
  exact hversions position state
    (atVersion_eq_some_iff.mpr ⟨Int.natCast_nonneg position, by simpa using hposition⟩)

theorem All.fresh (hstate : property state) : (Versioned.fresh state).All property := by
  intro other hother
  rwa [mem_singleton.mp hother]

variable {allowed : State → Mutation → Prop} {mutations : List Mutation}

/-- Assumes: the handler preserves the property on the mutations that are allowed. Every version of
a run of allowed mutations has the property. -/
theorem All.offer (hstep : ∀ state mutation working, property state → allowed state mutation →
      handler state mutation = .ok working → property working) (hall : store.All property)
    (hallowed : Admits allowed handler store mutations) :
    (store.offer handler mutations).All property := by
  induction mutations generalizing store with
  | nil => exact hall
  | cons mutation rest ih =>
    obtain ⟨hfirst, hrest⟩ := hallowed
    refine @ih (store.apply handler mutation).1 (fun state hstate ↦ ?_) hrest
    rcases history_apply handler store mutation with heq | ⟨working, hworking, heq⟩
    · exact hall state (heq ▸ hstate)
    · rw [heq] at hstate
      rcases mem_append.mp hstate with hold | hnew
      · exact hall state hold
      · rw [mem_singleton.mp hnew]
        exact hstep _ _ _ hall.current hfirst hworking

theorem history_offer (handler : State → Mutation → Except Refusal State)
    (store : Versioned State) (mutations : List Mutation) :
    store.history <+: (store.offer handler mutations).history := by
  induction mutations generalizing store with
  | nil => exact prefix_rfl
  | cons mutation rest ih =>
    refine List.IsPrefix.trans ?_ (ih (store.apply handler mutation).1)
    rcases history_apply handler store mutation with heq | ⟨working, -, heq⟩
    · exact heq ▸ prefix_rfl
    · rw [heq]
      exact prefix_append _ _

/-- Assumes: the handler preserves the property on exactly the mutations that are allowed. Every
version of a run has the property exactly when every accepted mutation of it is allowed. -/
theorem All.offer_iff
    (hstep : ∀ state mutation working, property state → handler state mutation = .ok working →
      (property working ↔ allowed state mutation)) (hall : store.All property) :
    (store.offer handler mutations).All property ↔
      Admits (fun state mutation ↦ ∀ working, handler state mutation = .ok working →
        allowed state mutation) handler store mutations := by
  constructor
  · intro hfinal
    induction mutations generalizing store with
    | nil => trivial
    | cons mutation rest ih =>
      -- the versions up to the first mutation are among the final ones
      have hnext : (store.apply handler mutation).1.All property := fun state hstate ↦
        hfinal state ((history_offer handler (store.apply handler mutation).1 rest).subset hstate)
      refine ⟨fun working hworking ↦ ?_, ih hnext hfinal⟩
      refine (hstep _ _ working hall.current hworking).mp ?_
      rcases apply_cases handler store mutation with ⟨refusal, hrefused, -⟩ | ⟨other, hother, heq⟩
      · rw [hrefused] at hworking
        cases hworking
      · rw [hother] at hworking
        cases hworking
        rw [heq] at hnext
        exact hnext.current
  · intro hallowed
    refine All.offer (fun state mutation working hstate hmutation hworking ↦ ?_) hall hallowed
    exact (hstep state mutation working hstate hworking).mpr (hmutation working hworking)

def Ordered (relation : State → State → Prop) (store : Versioned State) : Prop :=
  store.history.Pairwise relation

theorem Ordered.fresh (relation : State → State → Prop) (state : State) :
    (Versioned.fresh state).Ordered relation := pairwise_singleton relation state

/-- Assumes: the relation is reflexive. Two versions of one store are related in their order. -/
theorem Ordered.atVersion {relation : State → State → Prop} (hordered : store.Ordered relation)
    (hrefl : ∀ state, relation state state) {first second : Int} {state state' : State}
    (hle : first ≤ second) (hfirst : store.atVersion first = some state)
    (hsecond : store.atVersion second = some state') : relation state state' := by
  obtain ⟨hnumber, hfound⟩ := atVersion_eq_some_iff.mp hfirst
  obtain ⟨hnumber', hfound'⟩ := atVersion_eq_some_iff.mp hsecond
  by_cases heq : first = second
  · subst heq
    rw [hfirst] at hsecond
    cases hsecond
    exact hrefl state
  · obtain ⟨hlength, rfl⟩ := List.getElem?_eq_some_iff.mp hfound
    obtain ⟨hlength', rfl⟩ := List.getElem?_eq_some_iff.mp hfound'
    exact pairwise_iff_getElem.mp hordered _ _ hlength hlength' (by omega)

/-- Assumes: the relation is transitive, and the handler relates what it reads to what it answers
on contents with the property, which it preserves. The versions of a run of allowed mutations are
related in their order. -/
theorem Ordered.offer {relation : State → State → Prop}
    (htrans : ∀ first second third, relation first second → relation second third →
      relation first third) (hrefl : ∀ state, relation state state)
    (hstep : ∀ state mutation working, property state → allowed state mutation →
      handler state mutation = .ok working → property working ∧ relation state working)
    (hall : store.All property) (hordered : store.Ordered relation)
    (hallowed : Admits allowed handler store mutations) :
    (store.offer handler mutations).Ordered relation := by
  induction mutations generalizing store with
  | nil => exact hordered
  | cons mutation rest ih =>
    obtain ⟨hfirst, hrest⟩ := hallowed
    have hnext : (store.apply handler mutation).1.All property :=
      All.offer (fun state mutation working hstate hmutation hworking ↦
        (hstep state mutation working hstate hmutation hworking).1) hall
          (show Admits allowed handler store [mutation] from ⟨hfirst, trivial⟩)
    refine @ih (store.apply handler mutation).1 hnext ?_ hrest
    rcases history_apply handler store mutation with heq | ⟨working, hworking, heq⟩
    · unfold Ordered
      rwa [heq]
    · unfold Ordered
      rw [heq]
      refine pairwise_append.mpr ⟨hordered, pairwise_singleton _ _, ?_⟩
      intro state hstate other hother
      rw [mem_singleton.mp hother]
      -- every earlier version is related to the current one, hence to what follows it
      have hcurrent : relation state store.current := by
        obtain ⟨position, hposition⟩ := mem_iff_getElem?.mp hstate
        obtain ⟨hlength, -⟩ := List.getElem?_eq_some_iff.mp hposition
        have hbound := store.history_length
        exact hordered.atVersion hrefl (by omega)
          (atVersion_eq_some_iff.mpr ⟨Int.natCast_nonneg position, hposition⟩)
          store.atVersion_current
      exact htrans _ _ _ hcurrent (hstep _ _ _ hall.current hfirst hworking).2

end Laws

end Versioned

end AbsoluteZero.Foundations

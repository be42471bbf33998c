import AbsoluteZero.Kernel.Core

/-!
# What a run does to the bus

Everything the coordinator sends goes through `_safe_publish`, so what `safePublish` keeps is kept
by a whole run (`Steady.run`). On a bus that never raises admission is never halted
(`steady_delivering`), and every envelope sent carries a reading of the clock (`stamped_run`).
-/

namespace AbsoluteZero.Kernel

open Foundations List

namespace Coordinator

/-! ### Properties kept by publishing -/

def StampedBy (clock : Nat → Json) : Message → Prop
  | .record _ => True
  | .envelope sent => ∃ reading, sent.timestamp = clock reading

/-- A property of the bus, the clock and the halt flag that a publish keeps. -/
structure Steady (Holds : Coordinator → Prop) : Prop where
  frame : ∀ {first second : Coordinator}, Holds first → first.bus = second.bus →
    first.clock = second.clock → first.halted = second.halted → Holds second
  safePublish : ∀ {coord : Coordinator} (topic : Json) {message : Message},
    StampedBy coord.clock message → Holds coord → Holds (coord.safePublish topic message)

namespace Steady

variable {Holds : Coordinator → Prop}

variable {coord : Coordinator}

section

variable (hsteady : Steady Holds)

include hsteady

theorem emit (name requestId payload : Json)
    (config : ConfigView) (eventId : Option String) (hcoord : Holds coord) :
    Holds (coord.emit name requestId payload config eventId) := by
  cases eventId with
  | some eventId => exact hsteady.safePublish name ⟨_, rfl⟩ hcoord
  | none =>
    have hnumbered : Holds { coord with outSeq := coord.outSeq + 1 } :=
      hsteady.frame hcoord rfl rfl rfl
    exact hsteady.safePublish name ⟨_, rfl⟩ hnumbered

theorem fault (reason : String)
    (env : Option Json) (hcoord : Holds coord) : Holds (coord.fault reason env) := by
  unfold Coordinator.fault faultWith
  split
  · exact hsteady.emit _ _ _ _ _ hcoord
  · exact hsteady.emit _ _ _ _ _ hcoord

theorem logRecord (record : Record) (hcoord : Holds coord) : Holds (coord.logRecord record) :=
  hsteady.safePublish logTopic trivial
    (hsteady.frame hcoord rfl rfl rfl)

theorem publishRow (entry : RequestState) (row : Row) (decision : Json)
    (config : ConfigView) (info : Option (List (String × Json))) (names : List Json) :
    ∀ {coord : Coordinator} (index : Nat), Holds coord →
      Holds (coord.publishRow entry row decision config info index names) := by
  induction names with
  | nil => exact fun _ hcoord ↦ hcoord
  | cons name rest ih => exact fun index hcoord ↦ ih (index + 1) (hsteady.emit _ _ _ _ _ hcoord)

theorem transition {coord committed : Coordinator}
    {entry advanced : RequestState} {event eventId : Json} {row : Row} {guardResult : Bool}
    {config : ConfigView} {info : Option (List (String × Json))} (hcoord : Holds coord)
    (htransition : coord.transition entry event eventId row guardResult config info =
      .ok (committed, advanced)) : Holds committed := by
  unfold Coordinator.transition at htransition
  split at htransition
  · cases htransition
  · split at htransition
    · cases htransition
    · cases htransition
      exact hsteady.publishRow _ _ _ _ _ _ _
        (hsteady.logRecord _ (hsteady.frame hcoord rfl rfl rfl))

theorem routeAdmitted (entry : RequestState)
    (chain eventId : Json) (config : ConfigView) (hcoord : Holds coord) :
    Holds (coord.routeAdmitted entry chain eventId config).state := by
  unfold Coordinator.routeAdmitted
  dsimp only
  split
  · exact hcoord
  · exact hcoord
  · exact hcoord
  · split
    · exact hcoord
    · next htransition => exact hsteady.transition hcoord htransition

end

theorem holds_ite {condition : Prop} [Decidable condition] {first second : Outcome Coordinator Unit}
    (hfirst : Holds first.state) (hsecond : Holds second.state) :
    Holds (if condition then first else second).state := by
  split
  · exact hfirst
  · exact hsecond

section

variable (hsteady : Steady Holds)

include hsteady

theorem admitRequest (env : Json) (hcoord : Holds coord) :
    Holds (coord.admitRequest env).state := by
  unfold Coordinator.admitRequest
  split
  · exact hsteady.fault _ _ hcoord
  dsimp only
  split
  · exact hcoord
  next ledger _ =>
  have hcreated : Holds { coord with ledger := ledger } := hsteady.frame hcoord rfl rfl rfl
  split
  · exact hcreated
  · split
    · exact hcreated
    · exact hcreated
    · exact hcreated
    · split
      · exact hcreated
      · next htransition =>
        have hadmitted := hsteady.transition hcreated htransition
        exact holds_ite (hsteady.routeAdmitted _ _ _ _ hadmitted) hadmitted

theorem apply (entry : RequestState)
    (event env : Json) (hcoord : Holds coord) : Holds (coord.apply entry event env).state := by
  unfold Coordinator.apply
  dsimp only
  split
  · exact hcoord
  · exact hsteady.fault _ _ hcoord
  · split
    · exact hcoord
    · exact hsteady.fault _ _ hcoord
    · split
      · exact hcoord
      · next htransition => exact hsteady.transition hcoord htransition

theorem handleConfig (env : Json) (hcoord : Holds coord) : Holds (coord.handleConfig env) := by
  unfold Coordinator.handleConfig
  split
  · exact hsteady.fault _ _ hcoord
  · exact hsteady.logRecord _ (hsteady.frame hcoord rfl rfl rfl)

theorem cleanup (requestId : Json) (hcoord : Holds coord) : Holds (coord.cleanup requestId) := by
  unfold Coordinator.cleanup
  split
  · split
    · exact hsteady.frame (hsteady.logRecord _ hcoord) rfl rfl rfl
    · exact hcoord
  · exact hcoord

theorem handleSession (name : Json) (hcoord : Holds coord) : Holds (coord.handleSession name) := by
  unfold Coordinator.handleSession
  split
  · exact List.foldlRecOn _ _ (hsteady.logRecord _ hcoord) fun _ hlogged requestId _ ↦
      hsteady.cleanup requestId hlogged
  · exact hsteady.logRecord _ hcoord

theorem handleRequest (env : Json)
    (hcoord : Holds coord) : Holds (coord.handleRequest env).state := by
  unfold Coordinator.handleRequest
  dsimp only
  split
  · exact hcoord
  · split
    · split
      · exact hsteady.logRecord _ hcoord
      · split
        · exact hsteady.fault _ _ hcoord
        · exact hsteady.apply _ _ _ hcoord
    · split
      · exact hsteady.admitRequest env hcoord
      · split
        · exact hsteady.fault _ _ hcoord
        · exact hcoord

theorem step (env : Json) (hcoord : Holds coord) :
    Holds (coord.step env) := by
  unfold Coordinator.step handle
  split
  · exact hsteady.fault _ _ hcoord
  · dsimp only
    split
    · exact hsteady.handleConfig env hcoord
    · split
      · exact hsteady.handleSession _ hcoord
      · exact hsteady.handleRequest env hcoord

theorem run (envs : List Json) (hcoord : Holds coord) : Holds (coord.run envs) :=
  List.foldlRecOn envs Coordinator.step hcoord fun _ hstate env _ ↦ hsteady.step env hstate

end

end Steady

def Delivering (coord : Coordinator) : Prop := coord.bus.NeverRaises ∧ coord.halted = false

theorem steady_delivering : Steady Delivering where
  frame hfirst hbus _ hhalted := ⟨hbus ▸ hfirst.1, hhalted ▸ hfirst.2⟩
  safePublish {coord} topic {message} _ hcoord := by
    unfold Coordinator.safePublish
    split
    · next published heq =>
      have hpublished : published = (coord.attempt topic message).1 := by rw [heq]
      rw [hpublished]
      exact hcoord
    · next published heq =>
      have hdelivered : (coord.attempt topic message).2 = true := hcoord.1 _
      rw [heq] at hdelivered
      cases hdelivered

variable {coord : Coordinator}

theorem inputs_of_delivering (hcoord : coord.Delivering) (envs : List Json) :
    coord.inputs envs = envs.map fun env ↦ (false, env) := by
  induction envs generalizing coord with
  | nil => rfl
  | cons env rest ih =>
    rw [inputs, map_cons, ih (steady_delivering.step env hcoord), hcoord.2]

theorem core_run_of_neverRaises (hcoord : coord.Delivering) (envs : List Json) :
    (coord.run envs).core = coord.core.run (envs.map fun env ↦ (false, env)) := by
  rw [core_run, inputs_of_delivering hcoord]

theorem delivering_init (bus : Bus) (hbus : bus.NeverRaises) (clock : Nat → Json)
    (view : ConfigView) : (init bus clock view).Delivering :=
  ⟨hbus, rfl⟩

/-- The clock is a given one, and every message sent is stamped by it. -/
def Stamped (clock : Nat → Json) (coord : Coordinator) : Prop :=
  coord.clock = clock ∧ ∀ call ∈ coord.bus.calls, StampedBy clock call.message

theorem stamped_attempt {clock : Nat → Json} (topic : Json)
    {message : Message} (hmessage : StampedBy clock message) (hcoord : Stamped clock coord) :
    Stamped clock (coord.attempt topic message).1 := by
  refine ⟨hcoord.1, fun call hcall ↦ ?_⟩
  rcases mem_append.mp hcall with hold | hnew
  · exact hcoord.2 call hold
  · rw [mem_singleton.mp hnew]
    exact hmessage

theorem steady_stamped (clock : Nat → Json) : Steady (Stamped clock) where
  frame hfirst hbus hclock _ := ⟨hclock ▸ hfirst.1, hbus ▸ hfirst.2⟩
  safePublish {coord} topic {message} hmessage hcoord := by
    rw [hcoord.1] at hmessage
    have hattempt := stamped_attempt topic hmessage hcoord
    unfold Coordinator.safePublish
    split
    · next published heq => rwa [heq] at hattempt
    · next published heq =>
      rw [heq] at hattempt
      split
      · exact hattempt
      · exact stamped_attempt _ ⟨_, congrFun hattempt.1 _⟩ hattempt

theorem stamped_run {bus : Bus} (hcalls : bus.calls = []) (clock : Nat → Json) (view : ConfigView)
    (envs : List Json) : Stamped clock ((init bus clock view).run envs) :=
  (steady_stamped clock).run envs ⟨rfl, by simp [init, install, hcalls]⟩

/-- The envelopes published that are no alerts about faults, in order. -/
def outbound (coord : Coordinator) : List Outbound :=
  coord.bus.calls.filterMap fun call ↦
    match call.message with
    | .record _ => none
    | .envelope sent => if sent.toEmission.IsFault then none else some sent

theorem map_toEmission_outbound (coord : Coordinator) :
    coord.outbound.map Outbound.toEmission = coord.core.emissions := by
  change _ = (coord.bus.calls.filterMap _).filterMap _
  rw [outbound, filterMap_filterMap, map_filterMap]
  refine filterMap_congr fun call _ ↦ ?_
  rcases call.message with record | sent
  · rfl
  · by_cases hfault : sent.toEmission.IsFault <;>
      simp [Message.publication?, Publication.emission?, hfault]

theorem timestamp_outbound {clock : Nat → Json}
    (hcoord : Stamped clock coord) {sent : Outbound} (hsent : sent ∈ coord.outbound) :
    ∃ reading, sent.timestamp = clock reading := by
  obtain ⟨call, hcall, hmessage⟩ := mem_filterMap.mp hsent
  have hstamped := hcoord.2 call hcall
  rcases hcontent : call.message with record | envelope
  · simp [hcontent] at hmessage
  · rw [hcontent] at hstamped
    simp only [hcontent] at hmessage
    split at hmessage
    · cases hmessage
    · cases hmessage
      exact hstamped

/-- Envelopes with one timestamp are determined by their emissions. -/
theorem eq_of_map_toEmission {first second : List Outbound} (timestamp : Json)
    (hfirst : ∀ sent ∈ first, sent.timestamp = timestamp)
    (hsecond : ∀ sent ∈ second, sent.timestamp = timestamp)
    (hmap : first.map Outbound.toEmission = second.map Outbound.toEmission) : first = second := by
  have hrebuild (sents : List Outbound) (hsents : ∀ sent ∈ sents, sent.timestamp = timestamp) :
      (sents.map Outbound.toEmission).map
        (fun emission ↦ ({ emission with timestamp := timestamp } : Outbound)) = sents := by
    rw [map_map]
    refine (map_congr_left fun sent hsent ↦ ?_).trans (map_id _)
    rw [Function.comp_apply, ← hsents sent hsent]
    rfl
  rw [← hrebuild first hfirst, ← hrebuild second hsecond, hmap]

end Coordinator

end AbsoluteZero.Kernel

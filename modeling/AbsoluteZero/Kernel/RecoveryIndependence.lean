import AbsoluteZero.Kernel.RowSelection

/-!
# What recovery depends on

`recover` keeps the current snapshot, the snapshots cached under the versions seen so far, and the
counter of alerts. Every later recovery behaves like one by a new coordinator if and only if these
three are what a new coordinator has (`Coordinator.recoversLikeFresh_iff`, `Coordinator.Pristine`).
-/

namespace AbsoluteZero.Kernel

open Foundations

namespace Coordinator

/-! ### Histories -/

/-- What is done to a coordinator: a value is handled, or records are recovered. A recovery that is
cut short is the recovery of the records before the cut. -/
inductive Operation
  | handle (env : Json)
  | recover (records : List Record) (published : Option (List (Json × Nat)))

/-- The state after an operation, whether it returned or raised. -/
def operate (coord : Coordinator) : Operation → Coordinator
  | .handle env => coord.step env
  | .recover records published => (coord.recover records published).state

def after (coord : Coordinator) (history : List Operation) : Coordinator :=
  history.foldl operate coord

/-- The current snapshot is cached under its version. -/
def HoldsCurrent (coord : Coordinator) : Prop :=
  coord.configs.at? coord.config.version = some coord.config

theorem holdsCurrent_install (coord : Coordinator) (view : ConfigView) :
    (coord.install view).HoldsCurrent := ConfigCache.at?_put_self

def SameSnapshots (first second : Coordinator) : Prop :=
  first.configs = second.configs ∧ first.config = second.config

theorem HoldsCurrent.of_same {first second : Coordinator} (hfirst : first.HoldsCurrent)
    (hsame : second.SameSnapshots first) : second.HoldsCurrent := by
  unfold HoldsCurrent
  rw [hsame.1, hsame.2]
  exact hfirst

variable {coord : Coordinator}

theorem HoldsCurrent.step (hcoord : coord.HoldsCurrent) (env : Json) :
    (coord.step env).HoldsCurrent := by
  change (coord.step env).core.configs.at? (coord.step env).core.config.version =
    some (coord.step env).core.config
  rw [core_step]
  refine IsPlan.keeps (fun core : Core ↦ core.configs.at? core.config.version = some core.config)
    (fun core action hpossible hcore ↦ ?_) (Core.decide_possible coord.core coord.halted env) hcoord
  cases hpossible with
  | @configure view hinstalls =>
    exact ConfigCache.at?_put_self
  | _ => exact hcore

section

variable (coord : Coordinator)

theorem core_replayDeviation (record : Record) :
    (coord.replayDeviation record).state.core = coord.core :=
  core_fault { coord with halted := true } _ _

theorem sameSnapshots_replayDeviation (record : Record) :
    (coord.replayDeviation record).state.SameSnapshots coord :=
  ⟨congrArg Core.configs (core_replayDeviation coord record),
    congrArg Core.config (core_replayDeviation coord record)⟩

theorem publishRow_fixed (entry : RequestState) (row : Row) (decision : Json)
    (config : ConfigView) (info : Option (List (String × Json))) (names : List Json) :
    (coord.publishRow entry row decision config info 0 names).configs = coord.configs ∧
      (coord.publishRow entry row decision config info 0 names).config = coord.config ∧
      (coord.publishRow entry row decision config info 0 names).ledger = coord.ledger := by
  have hcore := core_publishRow entry row decision config info names coord 0
  exact ⟨congrArg Core.configs hcore, congrArg Core.config hcore, congrArg Core.ledger hcore⟩

theorem replayTransition_spec (record : Record) (entry : RequestState)
    (config : ConfigView) (published : Option (List (Json × Nat))) :
    (coord.replayTransition record entry config published).state.SameSnapshots coord ∧
      ((coord.replayTransition record entry config published).state.ledger = coord.ledger ∨
        ∃ replayed, (coord.replayTransition record entry config published).state.ledger =
          coord.ledger.insert record.requestId replayed) := by
  have hdeviation : (coord.replayDeviation record).state.SameSnapshots coord ∧
      ((coord.replayDeviation record).state.ledger = coord.ledger ∨ ∃ replayed,
        (coord.replayDeviation record).state.ledger =
          coord.ledger.insert record.requestId replayed) :=
    ⟨sameSnapshots_replayDeviation coord record,
      .inl (congrArg Core.ledger (core_replayDeviation coord record))⟩
  unfold replayTransition
  split
  · exact ⟨⟨rfl, rfl⟩, .inl rfl⟩
  · exact hdeviation
  · exact hdeviation
  split
  · exact hdeviation
  dsimp only
  generalize (if record.guardResult then _ else _) = row
  split
  · exact ⟨⟨rfl, rfl⟩, .inl rfl⟩
  split
  · exact hdeviation
  split
  · exact ⟨⟨rfl, rfl⟩, .inl rfl⟩
  split
  · split
    · exact ⟨⟨rfl, rfl⟩, .inr ⟨_, rfl⟩⟩
    · exact ⟨⟨(publishRow_fixed _ _ _ _ _ _ _).1, (publishRow_fixed _ _ _ _ _ _ _).2.1⟩,
        .inr ⟨_, (publishRow_fixed _ _ _ _ _ _ _).2.2⟩⟩
  · exact ⟨⟨rfl, rfl⟩, .inr ⟨_, rfl⟩⟩

end

theorem HoldsCurrent.replayRecord (hcoord : coord.HoldsCurrent)
    (record : Record) (published : Option (List (Json × Nat))) :
    (coord.replayRecord record published).state.HoldsCurrent := by
  unfold Coordinator.replayRecord
  split
  · split
    · exact hcoord.of_same (sameSnapshots_replayDeviation _ _)
    · exact holdsCurrent_install _ _
  split
  · exact hcoord
  split
  · exact hcoord
  split
  · exact hcoord
  split
  · exact hcoord.of_same (sameSnapshots_replayDeviation _ _)
  split
  · exact hcoord.of_same (replayTransition_spec _ _ _ _ _).1
  split
  · exact hcoord.of_same (sameSnapshots_replayDeviation _ _)
  split
  · exact hcoord
  · exact hcoord.of_same (replayTransition_spec _ _ _ _ _).1

theorem HoldsCurrent.replay {published : Option (List (Json × Nat))} (records : List Record)
    (hcoord : coord.HoldsCurrent) : (coord.replay published records).state.HoldsCurrent := by
  induction records generalizing coord with
  | nil => exact hcoord
  | cons record rest ih =>
    have hnext := hcoord.replayRecord record published
    rw [Coordinator.replay]
    split
    · next replayed hrecord =>
      rw [hrecord] at hnext
      exact ih hnext
    · exact hnext

theorem holdsCurrent_after (bus : Bus) (clock : Nat → Json) (view : ConfigView)
    (history : List Operation) : ((init bus clock view).after history).HoldsCurrent := by
  refine List.foldlRecOn history operate (holdsCurrent_install _ view)
    fun coord hcoord operation _ ↦ ?_
  cases operation with
  | handle env => exact hcoord.step env
  | recover records published => exact HoldsCurrent.replay records hcoord

/-- What can be seen of a coordinator: its bus with the calls made, its ledger, its log, its current
snapshot and whether admission is halted. -/
structure Observation where
  bus : Bus
  ledger : Ledger
  log : List Record
  config : ConfigView
  halted : Bool

def observed (coord : Coordinator) : Observation :=
  ⟨coord.bus, coord.ledger, coord.log, coord.config, coord.halted⟩

/-- After the same envelopes, none included, the two look the same, and both return or both raise
the same on the next one. -/
def BehavesLike (first second : Coordinator) : Prop :=
  ∀ envs, (first.run envs).observed = (second.run envs).observed ∧
    ∀ env, ((first.run envs).handle env).result = ((second.run envs).handle env).result

/-- Every recovery gives the result of the recovery by a new coordinator on the given snapshot, and
leaves behind a coordinator that behaves like the one left behind there. -/
def RecoversLikeFresh (view : ConfigView) (coord : Coordinator) : Prop :=
  ∀ records published,
    (coord.recover records published).result =
        ((init coord.bus coord.clock view).recover records published).result ∧
      BehavesLike (coord.recover records published).state
        ((init coord.bus coord.clock view).recover records published).state

/-- What recovery keeps is what a new coordinator has: the given snapshot is current, no other
version is cached, and no alert was numbered. -/
structure Pristine (view : ConfigView) (coord : Coordinator) : Prop where
  config : coord.config = view
  configs : ∀ version other, coord.configs.at? version = some other →
    ConfigView.versionKey? version = ConfigView.versionKey? view.version
  outSeq : coord.outSeq = 0

/-- A pristine coordinator starts recovery in the state in which a new one does. -/
theorem Pristine.recover_eq {view : ConfigView}
    (hpristine : coord.Pristine view) (hcurrent : coord.HoldsCurrent) (records : List Record)
    (published : Option (List (Json × Nat))) : coord.recover records published =
      (init coord.bus coord.clock view).recover records published := by
  obtain ⟨key, hkey⟩ := view.exists_versionKey
  have hconfigs : coord.configs = (init coord.bus coord.clock view).configs := by
    have hinit : (init coord.bus coord.clock view).configs = OrderedDict.empty.insert key view := by
      simp only [init, install, ConfigCache.put, hkey]
    rw [hinit]
    refine OrderedDict.eq_insert_empty _ ?_ fun other content hother ↦ ?_
    · have hview := hcurrent
      rw [HoldsCurrent, hpristine.config] at hview
      simpa only [ConfigCache.at?, hkey] using hview
    · have hversion := hpristine.configs (.int other) content hother
      rw [hkey] at hversion
      exact Option.some.inj hversion
  rw [recover, recover, hconfigs, hpristine.config, hpristine.outSeq]
  rfl

/-- An alert takes the next number. -/
theorem calls_step_null (coord : Coordinator) :
    ∃ sent delivered more, (coord.step .null).bus.calls =
        coord.bus.calls ++ ⟨.str "fault.recorded", .envelope sent, delivered⟩ :: more ∧
      sent.eventId = "out-" ++ toString (coord.outSeq + 1) := by
  obtain ⟨delivered, more, hcalls⟩ := calls_safePublish { coord with outSeq := coord.outSeq + 1 }
    (.str "fault.recorded") (.envelope
      { eventId := "out-" ++ toString (coord.outSeq + 1), eventName := .str "fault.recorded",
        requestId := .null, configVersion := coord.config.version,
        payload := .obj [("reason", .str "envelope.not_mapping")],
        timestamp := coord.clock coord.bus.calls.length })
  exact ⟨_, delivered, more, hcalls, rfl⟩

theorem BehavesLike.outSeq_eq {first second : Coordinator} (halike : BehavesLike first second) :
    first.outSeq = second.outSeq := by
  have hbus : first.bus.calls = second.bus.calls :=
    congrArg (fun seen : Observation ↦ seen.bus.calls) (halike []).1
  have hnext : (first.step .null).bus.calls = (second.step .null).bus.calls :=
    congrArg (fun seen : Observation ↦ seen.bus.calls) (halike [.null]).1
  obtain ⟨sent, delivered, more, hcalls, hid⟩ := calls_step_null first
  obtain ⟨sent', delivered', more', hcalls', hid'⟩ := calls_step_null second
  rw [hcalls, hcalls', hbus, List.append_cancel_left_eq, List.cons.injEq, Call.mk.injEq,
    Message.envelope.injEq] at hnext
  rw [hnext.1.2.1, hid', String.append_right_inj] at hid
  exact Nat.succ.inj (SeparatedText.toString_inj hid).symm

/-- The record of an admission under a snapshot version. -/
def citing (version : Json) : Record where
  requestId := .str "r1"
  sequence := 1
  priorState := .str "created"
  event := .str "request.received"
  guardResult := true
  nextState := .str "initialized"
  configVersion := version
  emittedEvents := []

theorem isTransition_citing (version : Json) : (citing version).IsTransition where
  config := by simp [citing]
  session := by simp [citing, sessionEvents]
  cleanup := by simp [citing]
  verdict := rfl

/-- The state in which the replay loop starts. -/
def reset (coord : Coordinator) : Coordinator :=
  { coord with ledger := .empty, log := [], halted := false }

/-- Replay without the snapshot makes no entry. -/
theorem get?_recover_citing_of_none {version : Json} (hnone : coord.configs.at? version = none) :
    (coord.recover [citing version] none).state.ledger.get? (.str "r1") = none := by
  have hview : coord.reset.configs.at? (citing version).configVersion = none := hnone
  have hrecord : coord.reset.replayRecord (citing version) none =
      coord.reset.replayDeviation (citing version) := by
    rw [replayRecord_of_transition _ (isTransition_citing version)]
    simp only [hview]
  have hledger := congrArg Core.ledger (core_replayDeviation coord.reset (citing version))
  change (coord.reset.replay none [citing version]).state.ledger.get? _ = none
  rw [replay, hrecord]
  change (coord.reset.replayDeviation (citing version)).state.core.ledger.get? _ = none
  rw [hledger]
  rfl

/-- Replay under the snapshot makes an entry, and keeps it whether the record deviates or not. -/
theorem get?_recover_citing_of_some {version : Json} {view : ConfigView}
    (hsome : coord.configs.at? version = some view) :
    (coord.recover [citing version] none).state.ledger.get? (.str "r1") ≠ none := by
  have hview : coord.reset.configs.at? (citing version).configVersion = some view := hsome
  have hsubject : coord.reset.subject? (citing version) =
    some (replayedEntry (citing version)) := rfl
  have hopened : (coord.reset.opened (citing version)).ledger.get? (.str "r1") =
      some (replayedEntry (citing version)) := rfl
  have hkept : (coord.reset.replayRecord (citing version) none).state.ledger.get? (.str "r1") ≠
      none := by
    rw [replayRecord_of_transition _ (isTransition_citing version)]
    simp only [hview, hsubject]
    rcases (replayTransition_spec (coord.reset.opened (citing version)) (citing version)
      (replayedEntry (citing version)) view none).2 with hsame | ⟨replayed, hreplayed⟩
    · rw [hsame, hopened]
      simp
    · have hself : ((coord.reset.opened (citing version)).ledger.insert (.str "r1") replayed).get?
          (.str "r1") = some replayed := OrderedDict.get?_insert_self _ _ _
      rw [hreplayed]
      exact fun hnone ↦ Option.some_ne_none replayed (hself.symm.trans hnone)
  change (coord.reset.replay none [citing version]).state.ledger.get? _ ≠ none
  rw [replay]
  split
  · next next hnext =>
    rw [hnext] at hkept
    exact hkept
  · exact hkept

/-- Recovery is that of a new coordinator on the initial snapshot, after any history, if and only if
the coordinator is pristine. -/
theorem recoversLikeFresh_iff (bus : Bus) (clock : Nat → Json) (view : ConfigView)
    (history : List Operation) : RecoversLikeFresh view ((init bus clock view).after history) ↔
      Pristine view ((init bus clock view).after history) := by
  have hcurrent := holdsCurrent_after bus clock view history
  generalize (init bus clock view).after history = coord at hcurrent ⊢
  constructor
  · intro halike
    obtain ⟨-, hempty⟩ := halike [] none
    refine ⟨congrArg Observation.config (hempty []).1, fun version other hother ↦ ?_,
      hempty.outSeq_eq⟩
    by_contra hversion
    have hnone : (init coord.bus coord.clock view).configs.at? version = none :=
      (Core.at?_init view version).trans (if_neg hversion)
    have hledger := congrArg Observation.ledger ((halike [citing version] none).2 []).1
    refine get?_recover_citing_of_some hother ?_
    rw [← get?_recover_citing_of_none hnone]
    exact congrArg (fun ledger : Ledger ↦ ledger.get? (.str "r1")) hledger
  · intro hpristine records published
    rw [hpristine.recover_eq hcurrent]
    exact ⟨rfl, fun envs ↦ ⟨rfl, fun env ↦ rfl⟩⟩

def nextVersion : Json :=
  Envelope.system "e1" "config.changed" [("snapshot", snapshot [("version", .int 2)])]

/-- After it, recovery from no records at all leaves the new snapshot current. -/
theorem not_recoversLikeFresh_nextVersion :
    ¬RecoversLikeFresh defaultView (selftest.after [.handle nextVersion]) := by
  intro halike
  have hconfig := congrArg (fun seen : Observation ↦ seen.config.version) ((halike [] none).2 []).1
  have hversions : ((selftest.after [.handle nextVersion]).recover [] none).state.config.version ≠
      ((init (selftest.after [.handle nextVersion]).bus (selftest.after [.handle nextVersion]).clock
        defaultView).recover [] none).state.config.version := by
    decide +kernel
  exact hversions hconfig

end Coordinator

end AbsoluteZero.Kernel

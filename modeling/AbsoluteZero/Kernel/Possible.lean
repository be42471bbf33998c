import AbsoluteZero.Foundations.Plan
import AbsoluteZero.Kernel.Core
import Mathlib.Data.List.Induction

/-!
# What one envelope can do, whatever the tables are

`Core.Possible` says when an action may be performed on behalf of an envelope under any snapshot
that passes validation. The decision on an envelope is a plan of possible actions
(`Core.decide_possible`), which gives the rule `Coordinator.step_induction`.
-/

namespace AbsoluteZero.Kernel

open Foundations List

/-- An envelope that is neither a configuration nor a session event. -/
def PerRequest (env : Json) : Prop :=
  env.item "event_name" ≠ .str "config.changed" ∧ env.item "event_name" ∉ sessionEvents

instance (env : Json) : Decidable (PerRequest env) := inferInstanceAs (Decidable (_ ∧ _))

namespace Core

/-- A valid envelope whose request id may be admitted: a nonempty string without an entry. -/
structure Newcomer (core : Core) (env : Json) : Prop where
  valid : Envelope.validate env core.config.inboundEvents = .ok ()
  name : env.item "event_name" = .str "request.received"
  nonempty : (env.item "request_id").nonemptyStr = true
  fresh : core.ledger.get? (env.item "request_id") = none

theorem Newcomer.decide_eq {core : Core} {env : Json} (hnew : core.Newcomer env) (halted : Bool) :
    core.decide halted env = admitDecision core.config halted core.ledger.activeCount env := by
  simp only [decide, hnew.valid, requestDecision, hnew.name, hnew.fresh,
    Json.hashable_of_nonemptyStr hnew.nonempty]
  rfl

/-- The actions that may be performed on behalf of an envelope, under any tables. -/
inductive Possible (core : Core) (env : Json) : Action → Prop
  | configure {view : ConfigView} (hinstalls : core.Installs env view) :
      Possible core env (.configure view)
  | mark (hname : env.item "event_name" ∈ sessionEvents) :
      Possible core env (.mark (env.item "event_name"))
  | absorb {entry : RequestState} (henv : PerRequest env)
      (hentry : core.ledger.get? (env.item "request_id") = some entry) :
      Possible core env (.absorb entry env)
  | strand (hnew : core.Newcomer env) :
      Possible core env (.strand (Coordinator.admittedEntry env core.config))
  | admission {row : Row} {guardResult : Bool} {info : Option (List (String × Json))}
      {unit : Applied} (hnew : core.Newcomer env)
      (happlied : applied (Coordinator.admittedEntry env core.config) (.str "request.received")
        (env.item "event_id") row guardResult core.config info = .ok unit) :
      Possible core env (.commit unit)
  | advance {entry : RequestState} {event : Json} {row : Row} {guardResult : Bool}
      {config : ConfigView} {info : Option (List (String × Json))} {unit : Applied}
      (henv : PerRequest env) (hentry : core.ledger.get? (env.item "request_id") = some entry)
      (happlied : applied entry event (env.item "event_id") row guardResult config info =
        .ok unit) : Possible core env (.commit unit)
  | clean {requestId : Json} {entry : RequestState}
      (hname : env.item "event_name" = .str "session.sleep")
      (hentry : core.ledger.get? requestId = some entry)
      (hterminal : entry.lifecycleState ∈ terminalStates) :
      Possible core env (.clean requestId entry)

/-- The terminal entries of a ledger are entries of it, with distinct ids. -/
theorem settled_spec (ledger : Ledger) :
    (ledger.settled.map Prod.fst).Nodup ∧ ∀ item ∈ ledger.settled,
      ledger.get? item.1 = some item.2 ∧ item.2.lifecycleState ∈ terminalStates := by
  refine ⟨(filter_sublist.map Prod.fst).nodup ledger.nodup, fun item hitem ↦ ?_⟩
  obtain ⟨hmem, hterminal⟩ := mem_filter.mp hitem
  exact ⟨(OrderedDict.get?_eq_some_iff _).mpr hmem, by simpa using hterminal⟩

theorem isPlan_clean {Allowed : Core → Action → Prop} (hclean : ∀ core requestId entry,
    core.ledger.get? requestId = some entry → entry.lifecycleState ∈ terminalStates →
      Allowed core (.clean requestId entry)) (items : List (Json × RequestState))
    (hitems : (items.map Prod.fst).Nodup) (core : Core)
    (hget : ∀ item ∈ items, core.ledger.get? item.1 = some item.2)
    (hterminal : ∀ item ∈ items, item.2.lifecycleState ∈ terminalStates) :
    IsPlan act Allowed core (items.map fun item ↦ .clean item.1 item.2) := by
  induction items generalizing core with
  | nil => trivial
  | cons item rest ih =>
    simp only [map_cons, nodup_cons] at hitems
    refine ⟨hclean _ _ _ (hget _ mem_cons_self) (hterminal _ mem_cons_self),
      ih hitems.2 _ (fun other hother ↦ ?_) fun other hother ↦
        hterminal _ (mem_cons_of_mem _ hother)⟩
    have hne : item.1 ≠ other.1 := fun heq ↦ hitems.1 (heq ▸ mem_map_of_mem hother)
    change (core.ledger.erase item.1).get? other.1 = some other.2
    rw [OrderedDict.get?_erase_of_ne _ hne, hget _ (mem_cons_of_mem _ hother)]

theorem isPlan_sessionDecision {Allowed : Core → Action → Prop} {core : Core} {name : Json}
    (hmark : Allowed core (.mark name)) (hclean : name = .str "session.sleep" →
      ∀ core requestId entry, core.ledger.get? requestId = some entry →
        entry.lifecycleState ∈ terminalStates → Allowed core (.clean requestId entry)) :
    IsPlan act Allowed core (sessionDecision core.ledger name).actions := by
  refine ⟨hmark, ?_⟩
  split
  · next hsleep =>
    obtain ⟨hnodup, hsettled⟩ := settled_spec core.ledger
    exact isPlan_clean (hclean hsleep) _ hnodup _ (fun item hitem ↦ (hsettled item hitem).1)
      fun item hitem ↦ (hsettled item hitem).2
  · trivial

/-- What the decision on an envelope can be: nothing to do, a snapshot to install, a session event,
a duplicate, an event for the entry of its request, or an admission. -/
theorem decide_cases {motive : Decision → Prop} {core : Core} {halted : Bool} {env : Json}
    (quiet : ∀ result, motive { result := result })
    (configure : ∀ view, core.Installs env view → motive { actions := [.configure view] })
    (session : Envelope.validate env core.config.inboundEvents = .ok () →
      env.item "event_name" ∈ sessionEvents →
        motive (sessionDecision core.ledger (env.item "event_name")))
    (absorb : ∀ entry, Envelope.validate env core.config.inboundEvents = .ok () → PerRequest env →
      core.ledger.get? (env.item "request_id") = some entry →
        env.item "event_id" = entry.lastAppliedEventId → motive { actions := [.absorb entry env] })
    (apply : ∀ entry, Envelope.validate env core.config.inboundEvents = .ok () → PerRequest env →
      core.ledger.get? (env.item "request_id") = some entry →
        motive (applyDecision (pinnedView core.configs core.config entry) entry
          (env.item "event_name") (env.item "event_id")))
    (newcomer : core.Newcomer env → PerRequest env →
      motive (admitDecision core.config halted core.ledger.activeCount env)) :
    motive (core.decide halted env) := by
  unfold decide
  cases hvalid : Envelope.validate env core.config.inboundEvents with
  | error reason => exact quiet _
  | ok valid =>
    by_cases hconfig : env.item "event_name" = .str "config.changed"
    · rw [if_pos hconfig, configDecision]
      cases hview : ConfigView.ofData ((env.item "payload").item "snapshot") with
      | error reason => exact quiet _
      | ok view => exact configure view ⟨hvalid, hconfig, hview⟩
    rw [if_neg hconfig]
    by_cases hsession : env.item "event_name" ∈ sessionEvents
    · rw [if_pos hsession]
      exact session hvalid hsession
    rw [if_neg hsession]
    have henv : PerRequest env := ⟨hconfig, hsession⟩
    unfold requestDecision
    dsimp only
    split
    · exact quiet _
    cases hentry : core.ledger.get? (env.item "request_id") with
    | some entry =>
      dsimp only
      split
      · next hduplicate => exact absorb entry hvalid henv hentry hduplicate
      · split
        · exact quiet _
        · exact apply entry hvalid henv hentry
    | none =>
      dsimp only
      by_cases hreceived : env.item "event_name" = .str "request.received"
      · rw [if_pos hreceived]
        cases hnonempty : (env.item "request_id").nonemptyStr with
        | false =>
          rw [admitDecision, hnonempty]
          exact quiet _
        | true => exact newcomer ⟨hvalid, hreceived, hnonempty, hentry⟩ henv
      · rw [if_neg hreceived]
        split <;> exact quiet _

/-! ### Decisions are possible -/

theorem isPlan_ite {Allowed : Core → Action → Prop} {core : Core} {condition : Prop}
    [Decidable condition] {first second : Decision} (hfirst : IsPlan act Allowed core first.actions)
    (hsecond : IsPlan act Allowed core second.actions) :
    IsPlan act Allowed core (if condition then first else second).actions := by
  split
  · exact hfirst
  · exact hsecond

section

variable {core : Core} {env : Json}

variable {entry : RequestState}

section

variable (henv : PerRequest env)

include henv

section

variable (hentry : core.ledger.get? (env.item "request_id") = some entry)

include hentry

theorem possible_commit (event : Json) (row : Row)
    (guardResult : Bool) (config : ConfigView) (info : Option (List (String × Json))) :
    IsPlan act (Possible · env) core (Decision.commit
      (applied entry event (env.item "event_id") row guardResult config info)).actions := by
  cases happlied : applied entry event (env.item "event_id") row guardResult config info with
  | error raised => trivial
  | ok unit => exact ⟨.advance henv hentry happlied, trivial⟩

theorem possible_routeDecision (chain : Json)
    (config : ConfigView) : IsPlan act (Possible · env) core
      (routeDecision entry chain (env.item "event_id") config).actions := by
  unfold routeDecision
  dsimp only
  split
  · trivial
  · trivial
  · trivial
  · exact possible_commit henv hentry _ _ _ _ _

theorem possible_applyDecision (config : ConfigView)
    (event : Json) : IsPlan act (Possible · env) core
      (applyDecision config entry event (env.item "event_id")).actions := by
  unfold applyDecision
  split
  · trivial
  · trivial
  · split
    · trivial
    · trivial
    · exact possible_commit henv hentry _ _ _ _ _

end

theorem possible_admitDecision (hnew : core.Newcomer env) (halted : Bool) (active : Nat) :
    IsPlan act (Possible · env) core (admitDecision core.config halted active env).actions := by
  have hstrand : IsPlan act (Possible · env) core
      [.strand (Coordinator.admittedEntry env core.config)] := ⟨.strand hnew, trivial⟩
  unfold admitDecision
  split
  · trivial
  dsimp only
  split
  · exact hstrand
  · split
    · exact hstrand
    · exact hstrand
    · exact hstrand
    · split
      · exact hstrand
      · next unit happlied =>
        refine isPlan_ite ⟨.admission hnew happlied, possible_routeDecision henv ?_ _ _⟩
          ⟨.admission hnew happlied, trivial⟩
        have hid : unit.record.requestId = env.item "request_id" := (applied_fixed happlied).1
        rw [← hid]
        exact OrderedDict.get?_insert_self _ _ _

end

theorem decide_possible (core : Core) (halted : Bool) (env : Json) :
    IsPlan act (Possible · env) core (core.decide halted env).actions := by
  apply decide_cases (motive := fun decision ↦ IsPlan act (Possible · env) core decision.actions)
  case quiet => exact fun _ ↦ trivial
  case configure => exact fun view hview ↦ ⟨.configure hview, trivial⟩
  case session =>
    exact fun _ hsession ↦ isPlan_sessionDecision (.mark hsession) fun hsleep _ _ _ ↦ .clean hsleep
  case absorb => exact fun entry _ henv hentry _ ↦ ⟨.absorb henv hentry, trivial⟩
  case apply => exact fun entry _ henv hentry ↦ possible_applyDecision henv hentry _ _
  case newcomer => exact fun hnew henv ↦ possible_admitDecision henv hnew halted _

end

end Core

/-- What holds of a new core and is kept by every envelope holds in every run of a new coordinator,
whatever the bus and the clock do. -/
theorem Coordinator.step_induction (Holds : Core → Prop) (accepts : Nat → Bool)
    (clock : Nat → Json) (view : ConfigView) (envs : List Json) (hinit : Holds (Core.init view))
    (hstep : ∀ before env, before ++ [env] <+: envs →
      Holds ((init { accepts := accepts } clock view).run before).core →
        ∀ halted, Holds (((init { accepts := accepts } clock view).run before).core.step
          (halted, env))) :
    Holds ((init { accepts := accepts } clock view).run envs).core := by
  induction envs using List.reverseRecOn with
  | nil => rwa [run, foldl_nil, core_init _ _ _ rfl]
  | append_singleton envs env ih =>
    rw [run_append]
    change Holds (((init { accepts := accepts } clock view).run envs).step env).core
    rw [core_step]
    exact hstep envs env (prefix_refl _) (ih fun before other hbefore ↦
      hstep before other (hbefore.trans (prefix_append envs [env]))) _

end AbsoluteZero.Kernel

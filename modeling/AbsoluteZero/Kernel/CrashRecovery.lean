import AbsoluteZero.Kernel.Replay

/-!
# Crash and redelivery

A crash leaves a prefix of the log. A fresh coordinator recovers from it, and the bus delivers again
every envelope whose records are not all in the prefix. A sleep that is cut is resumed by its
redelivery; an admission that is cut before its routing is dropped (`Coordinator.crash_converges`).
-/

namespace AbsoluteZero.Kernel

open Foundations List

namespace Core

theorem bare_resumed (past core : Core) : (resumed past core).bare = core.bare := rfl

theorem bare_step_congr {first second : Core} (hsame : first.bare = second.bare)
    (input : Bool × Json) : (first.step input).bare = (second.step input).bare := by
  have hstep (core : Core) : (core.step input).bare = (core.bare.step input).bare := by
    rw [← bare_resumed core (core.bare.step input), resumed_step, resumed_bare]
  rw [hstep first, hsame, ← hstep second]

/-- Actions that leave records leave one each. -/
theorem length_log_perform {actions : List Action}
    (hrecorded : ∀ action ∈ actions, action.Recorded) (core : Core) :
    (core.perform actions).log.length = core.log.length + actions.length := by
  induction actions generalizing core with
  | nil => rfl
  | cons action rest ih =>
    obtain ⟨record, hrecord⟩ := (hrecorded action mem_cons_self).exists_record core.config
    change ((core.act action).perform rest).log.length = _
    rw [ih fun other hother ↦ hrecorded other (mem_cons_of_mem _ hother), log_act, hrecord]
    simp only [Option.toList_some, length_append, length_cons, length_nil]
    omega

theorem perform_append (core : Core) (first second : List Action) :
    core.perform (first ++ second) = (core.perform first).perform second := foldl_append

end Core

/-- The ledger without its terminal entries. -/
def Ledger.awake (ledger : Ledger) : Ledger :=
  (ledger.settled.map Prod.fst).foldl OrderedDict.erase ledger

/-- The id of an entry is among those of the terminal entries if and only if the entry is
terminal. -/
theorem Ledger.mem_settled_iff (ledger : Ledger) {item : Json × RequestState}
    (hitem : item ∈ ledger.items) :
    item.1 ∈ ledger.settled.map Prod.fst ↔ item.2.lifecycleState ∈ terminalStates := by
  constructor
  · intro hmem
    obtain ⟨other, hother, hid⟩ := mem_map.mp hmem
    obtain ⟨hfound, hterminal⟩ := (Core.settled_spec ledger).2 other hother
    rw [hid, (OrderedDict.get?_eq_some_iff ledger).mpr hitem] at hfound
    rw [Option.some.inj hfound]
    exact hterminal
  · intro hterminal
    exact mem_map_of_mem (mem_filter.mpr ⟨hitem, by simpa using hterminal⟩)

theorem Ledger.items_awake (ledger : Ledger) :
    ledger.awake.items = ledger.items.filter fun item ↦ item.2.lifecycleState ∉ terminalStates := by
  rw [awake, OrderedDict.items_foldl_erase]
  exact filter_congr fun item hitem ↦
    decide_eq_decide.mpr (not_congr (ledger.mem_settled_iff hitem))

/-- Erasing some terminal entries first does not matter. -/
theorem Ledger.awake_foldl_erase (ledger : Ledger) {requestIds : List Json}
    (hids : requestIds ⊆ ledger.settled.map Prod.fst) :
    Ledger.awake (requestIds.foldl OrderedDict.erase ledger) = ledger.awake := by
  ext1
  rw [items_awake, items_awake, OrderedDict.items_foldl_erase, filter_filter]
  refine filter_congr fun item hitem ↦ ?_
  by_cases hterminal : item.2.lifecycleState ∈ terminalStates
  · simp [hterminal]
  · have hkept : item.1 ∉ requestIds := fun hmem ↦
      hterminal ((ledger.mem_settled_iff hitem).mp (hids hmem))
    simp [hterminal, hkept]

namespace Core

/-- Cleaning some entries one by one erases their ids. -/
theorem bare_perform_clean (items : List (Json × RequestState)) (core : Core) :
    (core.perform (items.map fun item ↦ .clean item.1 item.2)).bare =
      { core.bare with ledger := (items.map Prod.fst).foldl OrderedDict.erase core.ledger } := by
  induction items generalizing core with
  | nil => rfl
  | cons item rest ih => exact ih (core.act (.clean item.1 item.2))

/-- A sleep leaves the entries that are not terminal. -/
theorem bare_step_sleep {core : Core} {env : Json}
    (hvalid : Envelope.validate env core.config.inboundEvents = .ok ())
    (hname : env.item "event_name" = .str "session.sleep") (halted : Bool) :
    (core.step (halted, env)).bare = { core.bare with ledger := core.ledger.awake } := by
  have hdecision : core.decide halted env = sessionDecision core.ledger (.str "session.sleep") := by
    simp only [decide, hvalid, hname]
    rfl
  rw [step, hdecision]
  exact bare_perform_clean core.ledger.settled (core.act (.mark (.str "session.sleep")))

end Core

/-- The record of a permitted admission. -/
def Record.Admits (record : Record) : Prop :=
  record.event = .str "request.received" ∧ record.nextState = .str "initialized" ∧
    record.verdict = none

instance (record : Record) : Decidable record.Admits := inferInstanceAs (Decidable (_ ∧ _ ∧ _))

namespace Core

theorem length_applyDecision (config : ConfigView) (entry : RequestState) (event eventId : Json) :
    (applyDecision config entry event eventId).actions.length ≤ 1 := by
  unfold applyDecision
  split
  · simp
  · simp
  · split
    · simp
    · simp
    · next row guardResult hpick =>
      cases applied entry event eventId row guardResult config none <;> simp [Decision.commit]

/-- A decision has at most one action, is a sleep, or is a permitted admission with its routing. -/
theorem decide_shape {core : Core} (hcore : core.Sound) (halted : Bool) (env : Json) :
    (core.decide halted env).actions.length ≤ 1 ∨
    (Envelope.validate env core.config.inboundEvents = .ok () ∧
      env.item "event_name" = .str "session.sleep") ∨
    ∃ reason routing, (core.decide halted env).actions =
      [.commit (admissionUnit .accept env core.config reason), .commit routing] := by
  by_cases hsleep : Envelope.validate env core.config.inboundEvents = .ok () ∧
      env.item "event_name" = .str "session.sleep"
  · exact .inr (.inl hsleep)
  apply decide_cases (motive := fun decision ↦ decision.actions.length ≤ 1 ∨ _ ∨
    ∃ reason routing, decision.actions =
      [.commit (admissionUnit .accept env core.config reason), .commit routing])
  case quiet => exact fun _ ↦ .inl (Nat.zero_le 1)
  case configure => exact fun _ _ ↦ .inl (Nat.le_refl 1)
  case absorb => exact fun _ _ _ _ _ ↦ .inl (Nat.le_refl 1)
  case session =>
    intro hvalid hsession
    rw [sessionDecision, if_neg fun hname ↦ hsleep ⟨hvalid, hname⟩]
    exact .inl (Nat.le_refl 1)
  case apply => exact fun _ _ _ _ ↦ .inl (length_applyDecision _ _ _ _)
  case newcomer =>
    intro hnew _
    rw [admitDecision_of_shipped hcore.shippedTable _ _ hnew.nonempty]
    rcases admissionDecide env core.config halted core.ledger.activeCount with
      raised | ⟨_ | _, reason⟩
    · simp
    · simp
    · exact Or.inr (Or.inr ⟨reason, _, rfl⟩)

/-- An envelope that was cut after some of its actions is resumed by handling it again, unless the
cut separates an admission from its routing. -/
theorem bare_step_resumed {core : Core} (hcore : core.Sound) (halted : Bool) (env : Json)
    {count : Nat} (hcount : count < (core.decide halted env).actions.length)
    (hcut : ∀ record, (core.perform ((core.decide halted env).actions.take count)).log.getLast? =
      some record → count ≠ 0 → ¬ record.Admits) :
    ((core.perform ((core.decide halted env).actions.take count)).step (halted, env)).bare =
      (core.step (halted, env)).bare := by
  rcases Nat.eq_zero_or_pos count with rfl | hpos
  · rfl
  rcases decide_shape hcore halted env with hshort | ⟨hvalid, hname⟩ | ⟨reason, routing, hactions⟩
  · omega
  · have hdecision : core.decide halted env = sessionDecision core.ledger
        (.str "session.sleep") := by
      simp only [decide, hvalid, hname]
      rfl
    obtain ⟨cleaned, rfl⟩ : ∃ cleaned, count = cleaned + 1 := ⟨count - 1, by omega⟩
    have hcleaned : (core.perform ((core.decide halted env).actions.take (cleaned + 1))).bare =
        { core.bare with
          ledger := ((core.ledger.settled.take cleaned).map Prod.fst).foldl OrderedDict.erase
            core.ledger } := by
      rw [hdecision]
      change ((core.act (.mark (.str "session.sleep"))).perform
        ((core.ledger.settled.map fun item ↦ Action.clean item.1 item.2).take cleaned)).bare = _
      rw [← map_take, bare_perform_clean]
      rfl
    generalize core.perform ((core.decide halted env).actions.take (cleaned + 1)) =
      middle at hcleaned
    have hledger : middle.ledger = ((core.ledger.settled.take cleaned).map Prod.fst).foldl
        OrderedDict.erase core.ledger := congrArg ledger hcleaned
    have hconfig := congrArg config hcleaned
    have hstill : Envelope.validate env middle.config.inboundEvents = .ok () := by
      rw [← hvalid]
      exact congrArg (fun view : ConfigView ↦ Envelope.validate env view.inboundEvents) hconfig
    rw [bare_step_sleep hstill hname, bare_step_sleep hvalid hname, hcleaned, hledger,
      Ledger.awake_foldl_erase]
    exact map_subset Prod.fst (take_subset cleaned _)
  · rw [hactions] at hcount hcut
    obtain rfl : count = 1 := by
      simp only [length_cons, length_nil] at hcount
      omega
    refine absurd ?_ (hcut (admissionUnit .accept env core.config reason).record ?_ (by decide))
    · exact ⟨rfl, rfl, rfl⟩
    · exact getLast?_concat

end Core

/-! ### Redelivery after a crash -/

namespace Coordinator

/-- The envelopes of a run whose log records are not all among the first ones kept. -/
def redelivered (coord : Coordinator) (kept : Nat) : List Json → List Json
  | [] => []
  | env :: rest =>
    if coord.log.length < (coord.step env).log.length ∧ kept < (coord.step env).log.length then
      env :: (coord.step env).redelivered kept rest
    else (coord.step env).redelivered kept rest

theorem log_prefix_run (coord : Coordinator) (envs : List Json) :
    coord.log <+: (coord.run envs).log := by
  induction envs generalizing coord with
  | nil => exact prefix_refl _
  | cons env rest ih =>
    refine .trans ?_ (ih (coord.step env))
    change coord.core.log <+: (coord.step env).core.log
    rw [core_step]
    exact Core.log_prefix_perform _ _

/-- An envelope whose effects are all in its records, and that leaves none, changes nothing. -/
theorem core_step_of_log {coord : Coordinator} (hcoord : coord.core.Sound) {env : Json}
    (htraces : coord.core.Traces coord.halted env)
    (hlog : ¬ coord.log.length < (coord.step env).log.length) :
    (coord.step env).core = coord.core := by
  have hlength := Core.length_log_perform (Core.recorded_decide hcoord htraces) coord.core
  have hstep : (coord.step env).core =
      coord.core.perform (coord.core.decide coord.halted env).actions := core_step coord env
  rw [← hstep] at hlength
  have hnone : (coord.core.decide coord.halted env).actions = [] := by
    rw [← length_eq_zero_iff]
    change (coord.step env).log.length = coord.log.length + _ at hlength
    omega
  rw [hstep, hnone]
  rfl

/-- What a recovered run and the uncrashed run share. -/
def Rejoins (recovered live : Coordinator) : Prop :=
  recovered.Delivering ∧ recovered.core.bare = live.core.bare

theorem Rejoins.step {recovered live : Coordinator} (hrejoins : Rejoins recovered live)
    (hlive : live.Delivering) (env : Json) : Rejoins (recovered.step env) (live.step env) := by
  refine ⟨steady_delivering.step env hrejoins.1, ?_⟩
  rw [core_step, core_step, hrejoins.1.2, hlive.2]
  exact Core.bare_step_congr hrejoins.2 (false, env)

variable {envs : List Json}

/-- After the cut the redelivered envelopes are those that leave records, and the others change
nothing. -/
theorem Rejoins.run {recovered live : Coordinator} (hrejoins : Rejoins recovered live)
    (hlive : live.Delivering) (hsound : live.core.Sound)
    (hships : ∀ env ∈ envs, ShipsTable env) (htraces : live.Traces envs) {kept : Nat}
    (hkept : kept ≤ live.log.length) :
    Rejoins (recovered.run (live.redelivered kept envs)) (live.run envs) := by
  induction envs generalizing recovered live with
  | nil => exact hrejoins
  | cons env rest ih =>
    obtain ⟨hfirst, hrest⟩ := throughout_cons_iff.mp htraces
    have hnext : (live.step env).core.Sound := by
      rw [core_step]
      exact hsound.step (hships env mem_cons_self) live.halted
    have hgrows : live.log.length ≤ (live.step env).log.length :=
      (log_prefix_run live [env]).length_le
    have hlater {recovered' : Coordinator} (hrejoins' : Rejoins recovered' (live.step env)) :=
      ih hrejoins' (steady_delivering.step env hlive) hnext
        (fun other hother ↦ hships other (mem_cons_of_mem _ hother)) hrest
        (Nat.le_trans hkept hgrows)
    rw [redelivered]
    split
    · exact hlater (hrejoins.step hlive env)
    · next hquiet =>
      refine hlater ⟨hrejoins.1, hrejoins.2.trans ?_⟩
      rw [core_step_of_log hsound hfirst fun hlog ↦ hquiet ⟨hlog, by omega⟩]

/-- A log cut anywhere but between an admission and its routing replays to a core from which the
redelivered envelopes lead to the end of the run. -/
theorem exists_resumable (fresh : Coordinator) {live : Coordinator} (hlive : live.Delivering)
    (hcore : live.core.Sound) (hships : ∀ env ∈ envs, ShipsTable env)
    (htraces : live.Traces envs) {kept : Nat} (hkept : live.log.length ≤ kept)
    (hcut : ∀ record, ((live.run envs).log.take kept).getLast? = some record → ¬ record.Admits) :
    ∃ middle : Core, middle.log = (live.run envs).log.take kept ∧ fresh.Replays live.core middle ∧
      ∀ recovered : Coordinator, recovered.Delivering → recovered.core.bare = middle.bare →
        Rejoins (recovered.run (live.redelivered kept envs)) (live.run envs) := by
  induction envs generalizing live with
  | nil =>
    exact ⟨live.core, (take_of_length_le hkept).symm, .refl fresh _,
      fun recovered hrecovered hsame ↦ ⟨hrecovered, hsame⟩⟩
  | cons env rest ih =>
    obtain ⟨hfirst, hrest⟩ := throughout_cons_iff.mp htraces
    have henv := hships env mem_cons_self
    have hfollows := Core.decide_follows hcore live.halted env
    have hrecorded := Core.recorded_decide hcore hfirst
    have hstep : (live.step env).core =
        live.core.perform (live.core.decide live.halted env).actions := core_step live env
    have hnext : (live.step env).core.Sound := by
      rw [core_step]
      exact hcore.step henv live.halted
    have hreplays := replays_perform fresh henv _ hcore hfollows hrecorded
    rw [← hstep] at hreplays
    have hlater : ∀ other ∈ rest, ShipsTable other := fun other hother ↦
      hships other (mem_cons_of_mem _ hother)
    by_cases hwhole : (live.step env).log.length ≤ kept
    · -- The records of the envelope are all kept.
      obtain ⟨middle, hlog, hmiddle, hresumes⟩ := ih (steady_delivering.step env hlive) hnext hlater
        hrest hwhole hcut
      refine ⟨middle, hlog, hreplays.trans hmiddle, ?_⟩
      rw [redelivered, if_neg fun hcut ↦ by omega]
      exact hresumes
    · -- The cut falls into the records of the envelope.
      generalize hactions : (live.core.decide live.halted env).actions = actions at *
      obtain ⟨count, rfl⟩ := Nat.exists_eq_add_of_le hkept
      have hlength := Core.length_log_perform hrecorded live.core
      rw [← hstep] at hlength
      change (live.step env).log.length = live.log.length + actions.length at hlength
      have hcount : count < actions.length := by omega
      have hearlier : ∀ action ∈ actions.take count, action.Recorded := fun action haction ↦
        hrecorded action (mem_of_mem_take haction)
      have hearly : (live.core.perform (actions.take count)).log <+:
          (live.run (env :: rest)).log := by
        refine .trans ?_ (log_prefix_run (live.step env) rest)
        change _ <+: (live.step env).core.log
        rw [hstep]
        conv_rhs => rw [← take_append_drop count actions, Core.perform_append]
        exact Core.log_prefix_perform _ _
      have hlog : (live.core.perform (actions.take count)).log =
          (live.run (env :: rest)).log.take (live.log.length + count) := by
        have htake := prefix_iff_eq_take.mp hearly
        rw [Core.length_log_perform hearlier, length_take, Nat.min_eq_left (by omega)] at htake
        exact htake
      refine ⟨live.core.perform (actions.take count), hlog,
        replays_perform fresh henv _ hcore (IsPlan.take hfollows count) hearlier,
        fun recovered hrecovered hsame ↦ ?_⟩
      rw [redelivered, if_pos ⟨by omega, by omega⟩]
      have hresumed : Rejoins (recovered.step env) (live.step env) := by
        refine ⟨steady_delivering.step env hrecovered, ?_⟩
        rw [core_step, core_step, hrecovered.2, hlive.2, Core.bare_step_congr hsame]
        rw [hlive.2] at hactions
        subst hactions
        exact Core.bare_step_resumed hcore false env hcount fun record hrecord _ ↦
          hcut record (hlog ▸ hrecord)
      exact hresumed.run (steady_delivering.step env hlive) hnext hlater hrest (by omega)

/-- A new coordinator that recovers from a log cut anywhere but between a permitted admission and
its routing, and then handles the redelivered envelopes, ends with the ledger and the snapshot of
the uncrashed run. -/
theorem crash_converges (accepts accepts' : Nat → Bool) (haccepts : ∀ call, accepts call = true)
    (haccepts' : ∀ call, accepts' call = true) (clock clock' : Nat → Json) {view : ConfigView}
    (hview : view.ShippedTable) (hships : ∀ env ∈ envs, ShipsTable env)
    (htraces : (init { accepts := accepts } clock view).Traces envs) (kept : Nat)
    (hcut : ∀ record, (((init { accepts := accepts } clock view).run envs).log.take kept).getLast? =
      some record → ¬ record.Admits) :
    let start := init { accepts := accepts } clock view
    let live := start.run envs
    let recovered := (init { accepts := accepts' } clock' view).recover (live.log.take kept) none
    recovered.result = .ok true ∧
      (recovered.state.run (start.redelivered kept envs)).ledger = live.ledger ∧
      (recovered.state.run (start.redelivered kept envs)).config = live.config := by
  intro start live recovered
  have hstart : start.core = Core.init view := core_init _ _ _ rfl
  obtain ⟨middle, hlog, hreplays, hresumes⟩ := exists_resumable
    (init { accepts := accepts' } clock' view)
    (delivering_init { accepts := accepts } haccepts clock view) (hstart ▸ Core.sound_init hview)
    hships htraces (Nat.zero_le kept) hcut
  have hrecovered : recovered = ⟨(init { accepts := accepts' } clock' view).loaded middle,
      .ok true⟩ := by
    change (init { accepts := accepts' } clock' view).recover (live.log.take kept) none = _
    rw [← hlog]
    exact recover_of_replays hreplays
  obtain ⟨-, hsame⟩ := hresumes recovered.state
    (by rw [hrecovered]; exact delivering_init { accepts := accepts' } haccepts' clock' view)
    (by rw [hrecovered]; rfl)
  refine ⟨by rw [hrecovered], ?_, ?_⟩
  · exact congrArg Core.ledger hsame
  · exact congrArg Core.config hsame

end Coordinator

/-- The crash falls into the sleep, after the cleanup of one of its three terminal entries. -/
theorem crash_converges_eventful :
    let live := Coordinator.selftest.run eventfulRun
    let recovered := Coordinator.selftest.recover (live.log.take 14) none
    recovered.result = .ok true ∧
      (recovered.state.run (Coordinator.selftest.redelivered 14 eventfulRun)).ledger =
        live.ledger ∧
      (recovered.state.run (Coordinator.selftest.redelivered 14 eventfulRun)).config =
        live.config := by
  have hnames : ∀ env ∈ eventfulRun, env.item "event_name" ≠ .str "config.changed" := by
    decide +kernel
  have hstart : Coordinator.selftest.core.Sound := Core.sound_init defaultView_shippedTable
  have htraces := Coordinator.traces_of_returns hstart (shipsTable_of_forall_ne hnames)
    eventfulRun_returns eventfulRun_misfilesNone
  have hcut : ∀ record, ((Coordinator.selftest.run eventfulRun).log.take 14).getLast? =
      some record → ¬ record.Admits := by
    have hlast : ∀ record ∈ ((Coordinator.selftest.run eventfulRun).log.take 14).getLast?,
        ¬ record.Admits := by
      decide +kernel
    exact fun record hrecord ↦ hlast record hrecord
  exact Coordinator.crash_converges (fun _ ↦ true) (fun _ ↦ true) (fun _ ↦ rfl) (fun _ ↦ rfl)
    (fun _ ↦ .int 0) (fun _ ↦ .int 0) defaultView_shippedTable (shipsTable_of_forall_ne hnames)
    htraces 14 hcut

def admittedRun : List Json :=
  [Envelope.inbound "e1" "request.received" "r1" [("declared_type", .str "type.alpha")]]

/-- A crash between the admission and its routing: the redelivered envelope is dropped as a
duplicate, and the request is never scheduled. -/
theorem admittedRun_sticks :
    let live := Coordinator.selftest.run admittedRun
    let recovered := Coordinator.selftest.recover (live.log.take 1) none
    let rejoined := recovered.state.run (Coordinator.selftest.redelivered 1 admittedRun)
    recovered.result = .ok true ∧
      (live.ledger.get? (.str "r1")).map RequestState.lifecycleState = some (.str "scheduled") ∧
      (live.ledger.get? (.str "r1")).map RequestState.routingTarget = some (.str "planning") ∧
      (rejoined.ledger.get? (.str "r1")).map RequestState.lifecycleState =
        some (.str "initialized") ∧
      (rejoined.ledger.get? (.str "r1")).map RequestState.routingTarget = some .null := by
  decide +kernel

end AbsoluteZero.Kernel

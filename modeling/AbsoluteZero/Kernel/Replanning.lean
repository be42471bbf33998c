import AbsoluteZero.Kernel.History
import AbsoluteZero.Kernel.Pinning

/-!
# The replan bound

A failed task replans as long as the replan count is below the bound of the pinned fault policy; a
failed verification after execution goes back without counting (`lateFailureRun_unbounded`). The
count is the number of failed tasks replanned in the lifetime (`Core.Counted`) and never exceeds the
bound (`Core.Bounded`).
-/

namespace AbsoluteZero.Kernel

open Foundations OrderedDict List

/-! ### Counting replans -/

def Record.Replans (record : Record) : Prop :=
  record.event = .str "task.failed" ∧ record.nextState = Phase.scheduled.state

instance (record : Record) : Decidable record.Replans := inferInstanceAs (Decidable (_ ∧ _))

/-- The number of failed tasks replanned among some records. -/
def replans (records : List Record) : Nat := records.countP fun record ↦ record.Replans

/-- A return to `scheduled` from `executing` or `verifying`, by whichever rule. -/
def Record.Returns (record : Record) : Prop :=
  (record.priorState = Phase.executing.state ∨ record.priorState = Phase.verifying.state) ∧
    record.nextState = Phase.scheduled.state

instance (record : Record) : Decidable record.Returns := inferInstanceAs (Decidable (_ ∧ _))

/-- The number of returns to `scheduled` among some records. -/
def returns (records : List Record) : Nat := records.countP fun record ↦ record.Returns

theorem replans_record_unit (rule : Rule) (entry : RequestState) (eventId : Json)
    (config : ConfigView) (info : Option (List (String × Json))) :
    (rule.unit entry eventId config info).record.Replans ↔ rule = .replan := by
  change (Json.str rule.event = .str "task.failed" ∧ rule.target.state = _) ↔ _
  cases rule <;> simp [Rule.event, Rule.target]

theorem replans_append_unit (records : List Record) (rule : Rule) (entry : RequestState)
    (eventId : Json) (config : ConfigView) (info : Option (List (String × Json))) :
    replans (records ++ [(rule.unit entry eventId config info).record]) =
      replans records + if rule = .replan then 1 else 0 := by
  rw [replans, countP_append, countP_singleton]
  simp only [replans_record_unit, decide_eq_true_eq]
  rfl

/-- The replan count of every entry is the number of failed tasks replanned in its lifetime. -/
def Core.Counted (core : Core) : Prop :=
  ∀ requestId entry, core.ledger.get? requestId = some entry →
    entry.replanCount = replans (lifetime requestId core.log)

theorem inductive_counted :
    Inductive fun entry records ↦ entry.replanCount = replans records where
  admitted _ _ := rfl
  unit rule entry eventId config info records hentry := by
    rw [replans_append_unit, replanCount_unit, hentry]

variable {core : Core} {entry : RequestState} {env : Json}

/-- The numbers of the fault policy are not negative. -/
theorem policy_nonneg (view : ConfigView) {key : String}
    (hkey : key ∈ ["max_replans", "max_active_requests"]) :
    0 ≤ ((view.data.item "fault_policy").item key).int?.getD 0 := by
  have hvalid := view.valid
  unfold validate at hvalid
  split at hvalid
  · split at hvalid
    · cases hvalid
    · split at hvalid
      · cases hvalid
      · next hpolicies =>
        have hpolicy := checkAll_eq_ok hpolicies key hkey
        unfold checkPolicy at hpolicy
        split at hpolicy
        · next bound hbound =>
          split at hpolicy
          · cases hpolicy
          · next hnonneg =>
            rw [hbound]
            exact Int.not_lt.mp hnonneg
        · cases hpolicy
  · cases hvalid

theorem maxReplans_nonneg (view : ConfigView) : 0 ≤ view.maxReplans := policy_nonneg view (by simp)

/-- The replan count of every entry is within the bound of the snapshot it is pinned to. -/
def Core.Bounded (core : Core) : Prop :=
  ∀ requestId entry, core.ledger.get? requestId = some entry →
    (entry.replanCount : Int) ≤ (core.pinned entry).maxReplans

/-- A transition by an enabled rule stays within the bound. -/
theorem Core.Bounded.commit (hcore : core.Bounded)
    {rule : Rule} (hentry : (entry.replanCount : Int) ≤ (core.pinned entry).maxReplans)
    (henabled : rule.Enabled entry (core.pinned entry)) (eventId : Json) (config : ConfigView)
    (info : Option (List (String × Json))) :
    (core.act (.commit (rule.unit entry eventId config info))).Bounded := by
  intro requestId found hfound
  change (core.ledger.insert entry.requestId _).get? requestId = some found at hfound
  rw [get?_insert] at hfound
  change _ ≤ (core.pinned found).maxReplans
  split at hfound
  · cases hfound
    have hpinned : core.pinned (rule.unit entry eventId config info).entry = core.pinned entry := by
      rw [Core.pinned, pinnedView, configVersion_unit]
      rfl
    rw [hpinned, replanCount_unit]
    split
    · next hreplan =>
      subst hreplan
      change (entry.replanCount : Int) < (core.pinned entry).maxReplans at henabled
      omega
    · simpa using hentry
  · exact hcore requestId found hfound

/-- Every legal action on behalf of an envelope that leaves the pins alone keeps the bound, and
leaves the pins alone. -/
theorem Core.Bounded.act (hsound : core.Sound) {action : Action}
    (hlegal : core.Legal env action) (hcore : core.Bounded) (hkeeps : core.KeepsPins env) :
    (core.act action).Bounded ∧ (core.act action).KeepsPins env := by
  have hvacuous (next : Core) (hname : env.item "event_name" ≠ .str "config.changed") :
      next.KeepsPins env := fun view hinstalls ↦ absurd hinstalls.2.1 hname
  cases hlegal with
  | @configure view hinstalls =>
    -- The pin of an entry moves only onto the snapshot it is already pinned to.
    have hpinned (requestId : Json) (entry : RequestState)
        (hentry : core.ledger.get? requestId = some entry) :
        (core.act (.configure view)).pinned entry = core.pinned entry := by
      obtain ⟨cached, hcached⟩ := (hsound.entries _ _ hentry).pinned
      change ((core.configs.put view).at? entry.configVersion).getD view = _
      rw [ConfigCache.at?_put]
      split
      · next hversion => exact (hkeeps view hinstalls requestId entry hentry hversion).symm
      · rw [hcached, Core.pinned, pinnedView, hcached]
        rfl
    refine ⟨fun requestId entry hentry ↦ ?_, fun other hother requestId entry hentry hversion ↦ ?_⟩
    · rw [hpinned requestId entry hentry]
      exact hcore requestId entry hentry
    · have hview : view = other := Except.ok.inj (hinstalls.2.2.symm.trans hother.2.2)
      subst hview
      exact (hpinned requestId entry hentry).trans
        (hkeeps view hinstalls requestId entry hentry hversion)
  | mark hname =>
    exact ⟨hcore, hvacuous _ fun hconfig ↦ by rw [hconfig] at hname; revert hname; decide⟩
  | absorb _ _ _ hconfig => exact ⟨hcore, hvacuous _ hconfig⟩
  | strand hnew =>
    refine ⟨fun requestId found hfound ↦ ?_, hvacuous _ (by rw [hnew.name]; decide)⟩
    change (core.ledger.insert (env.item "request_id") _).get? requestId = some found at hfound
    rw [get?_insert] at hfound
    split at hfound
    · cases hfound
      exact maxReplans_nonneg _
    · exact hcore requestId found hfound
  | admission hnew hrule =>
    refine ⟨hcore.commit (maxReplans_nonneg _) ?_ _ _ _, hvacuous _ (by rw [hnew.name]; decide)⟩
    rcases hrule with rfl | rfl <;> trivial
  | advance hconfig hentry hsource henabled =>
    exact ⟨hcore.commit (hcore _ _ hentry) henabled _ _ _, hvacuous _ hconfig⟩
  | @clean requestId entry hname =>
    refine ⟨fun other found hfound ↦ ?_, hvacuous _ (by rw [hname]; decide)⟩
    change (core.ledger.erase requestId).get? other = some found at hfound
    exact hcore other found (get?_of_erase hfound).2

variable (accepts : Nat → Bool) (clock : Nat → Json) {view : ConfigView}

variable {envs : List Json}

theorem Coordinator.counted_run
    (hview : view.ShippedTable) (hships : ∀ env ∈ envs, ShipsTable env) :
    ((init { accepts := accepts } clock view).run envs).core.Counted :=
  (run_induction (fun core ↦ core.Historical ∧ core.Counted) rfl clock hview hships
    ⟨Core.historical_init view, fun _ _ hentry ↦ by cases hentry⟩
    fun _ _ _ hsound hlegal hcore ↦
      ⟨hcore.1.act hsound hlegal, Core.Relates.act inductive_counted hsound hcore.1
        hlegal hcore.2⟩).2

/-- Assumes: every envelope leaves the pins alone. The counts stay within the bounds. -/
theorem Coordinator.bounded_run (hview : view.ShippedTable) (hships : ∀ env ∈ envs, ShipsTable env)
    (hkeeps : ∀ before env, before ++ [env] <+: envs →
      ((init { accepts := accepts } clock view).run before).core.KeepsPins env) :
    ((init { accepts := accepts } clock view).run envs).core.Bounded := by
  induction envs using List.reverseRecOn with
  | nil =>
    intro requestId entry hentry
    cases hentry
  | append_singleton envs env ih =>
    have hearlier : ∀ other ∈ envs, ShipsTable other := fun other hother ↦
      hships other (mem_append_left _ hother)
    have hbounded := ih hearlier fun before other hbefore ↦
      hkeeps before other (hbefore.trans (prefix_append envs [env]))
    have hsound : ((init { accepts := accepts } clock view).run envs).core.Sound :=
      sound_run rfl clock hview hearlier
    rw [run_append]
    change (((init _ clock view).run envs).step env).core.Bounded
    rw [core_step]
    exact (Core.perform_induction (fun core ↦ core.Bounded ∧ core.KeepsPins env)
      (hships env (by simp)) (fun core action hcore hlegal hholds ↦
        hholds.1.act hcore hlegal hholds.2) _ hsound (Core.decide_follows hsound _ env)
      ⟨hbounded, hkeeps envs env (prefix_refl _)⟩).2.1

/-- An envelope that delivers an event to a request: it is valid, it carries the event and the
request id, and the entry has not just applied it. -/
structure Core.Delivers (core : Core) (env : Json) (event requestId : String)
    (entry : RequestState) : Prop where
  valid : Envelope.validate env core.config.inboundEvents = .ok ()
  name : env.item "event_name" = .str event
  request : env.item "request_id" = .str requestId
  found : core.ledger.get? (.str requestId) = some entry
  fresh : env.item "event_id" ≠ entry.lastAppliedEventId

theorem Core.step_taskFailed (hcore : core.Sound) {requestId : String}
    (hdelivers : core.Delivers env "task.failed" requestId entry)
    (hexecuting : entry.lifecycleState = Phase.executing.state) (halted : Bool) :
    (core.step (halted, env)).ledger.get? (.str requestId) =
      some ((if (entry.replanCount : Int) < (core.pinned entry).maxReplans then Rule.replan
        else .exhaust).unit entry (env.item "event_id") (core.pinned entry) none).entry := by
  have hrows : (core.pinned entry).rows entry.lifecycleState (.str "task.failed") =
      .ok (some [Rule.replan.row, Rule.exhaust.row]) := by
    rw [hexecuting, rows_of_shipped (hcore.shippedTable_pinned entry)]
    rfl
  have hpick := pickRow_guarded .replan .exhaust (by decide) rfl rfl rfl entry
    (core.pinned entry)
  rw [Rule.guardName, guardHolds_replans] at hpick
  have hdecision : core.decide halted env =
      applyDecision (core.pinned entry) entry (.str "task.failed") (env.item "event_id") := by
    simp only [decide, hdelivers.valid, hdelivers.name, requestDecision, hdelivers.request,
      hdelivers.found, hdelivers.fresh]
    rfl
  have hid := (hcore.entries _ _ hdelivers.found).id
  rw [step, hdecision]
  by_cases hbelow : (entry.replanCount : Int) < (core.pinned entry).maxReplans
  · have happly : applyDecision (core.pinned entry) entry (.str "task.failed")
        (env.item "event_id") = .commit (applied entry (.str Rule.replan.event)
          (env.item "event_id") Rule.replan.row (!Rule.replan.blocks)
            (core.pinned entry) none) := by
      simp only [applyDecision, hrows, hpick, hbelow]
      rfl
    rw [happly, applied_rule, if_pos hbelow]
    change (core.ledger.insert entry.requestId _).get? _ = _
    rw [hid]
    exact get?_insert_self _ _ _
  · have happly : applyDecision (core.pinned entry) entry (.str "task.failed")
        (env.item "event_id") = .commit (applied entry (.str Rule.exhaust.event)
          (env.item "event_id") Rule.exhaust.row (!Rule.exhaust.blocks) (core.pinned entry)
          none) := by
      simp only [applyDecision, hrows, hpick, hbelow]
      rfl
    rw [happly, applied_rule, if_neg hbelow]
    change (core.ledger.insert entry.requestId _).get? _ = _
    rw [hid]
    exact get?_insert_self _ _ _

/-- In every run under the shipped table, the failed tasks of a request replanned since its
admission stay within the bound of the snapshot it is pinned to, as long as no envelope moves the
pins; and a failed task of an executing request returns it to `scheduled` below the bound and fails
it at the bound. -/
theorem Coordinator.replans_bounded (hview : view.ShippedTable)
    (hships : ∀ env ∈ envs, ShipsTable env) :
    let coord := (init { accepts := accepts } clock view).run envs
    ((∀ before env, before ++ [env] <+: envs →
        ((init { accepts := accepts } clock view).run before).core.KeepsPins env) →
      ∀ (requestId : String) (entry : RequestState),
        coord.ledger.get? (.str requestId) = some entry →
          (replans (lifetime (.str requestId) coord.log) : Int) ≤ (coord.pinned entry).maxReplans) ∧
    ∀ (requestId : String) (entry : RequestState) (env : Json),
      coord.core.Delivers env "task.failed" requestId entry →
        entry.lifecycleState = Phase.executing.state →
          ∃ after, (coord.step env).ledger.get? (.str requestId) = some after ∧
            after.lifecycleState =
              if (replans (lifetime (.str requestId) coord.log) : Int) <
                (coord.pinned entry).maxReplans then Phase.scheduled.state
              else Phase.failed.state := by
  intro coord
  have hcounted := counted_run accepts clock hview hships
  refine ⟨fun hkeeps requestId entry hentry ↦ ?_,
    fun requestId entry env hdelivers hexecuting ↦ ?_⟩
  · have hbounded := bounded_run accepts clock hview hships hkeeps _ entry hentry
    rw [hcounted _ entry hentry] at hbounded
    exact hbounded
  · have hsound : coord.core.Sound := sound_run rfl clock hview hships
    have hafter := Core.step_taskFailed hsound hdelivers hexecuting coord.halted
    rw [← core_step] at hafter
    refine ⟨_, hafter, ?_⟩
    have hcount : entry.replanCount = replans (lifetime (.str requestId) coord.log) :=
      hcounted _ entry hdelivers.found
    rw [state_unit, ← hcount]
    exact (apply_ite (fun rule : Rule ↦ rule.target.state) _ _ _).trans rfl

/-- Three plans, each executed, completed without a verdict and then failed by a late one. -/
def lateFailureRun : List Json :=
  [Envelope.inbound "e1" "request.received" "r1" [("declared_type", .str "type.alpha")],
    Envelope.inbound "p1" "plan.created" "r1" [], Envelope.inbound "t1" "task.completed" "r1" [],
    Envelope.inbound "v1" "verify.failed" "r1" [], Envelope.inbound "p2" "plan.created" "r1" [],
    Envelope.inbound "t2" "task.completed" "r1" [], Envelope.inbound "v2" "verify.failed" "r1" [],
    Envelope.inbound "p3" "plan.created" "r1" [], Envelope.inbound "t3" "task.completed" "r1" [],
    Envelope.inbound "v3" "verify.failed" "r1" []]

/-- The request returns to `scheduled` three times under a bound of two. -/
theorem lateFailureRun_unbounded :
    ∃ entry ∈ (Coordinator.selftest.run lateFailureRun).ledger.get? (.str "r1"),
      ((Coordinator.selftest.run lateFailureRun).pinned entry).maxReplans = 2 ∧
      returns (lifetime (.str "r1") (Coordinator.selftest.run lateFailureRun).log) = 3 := by
  decide +kernel

/-- Two failed tasks replanned, and a third plan being executed. -/
def replannedRun : List Json :=
  [Envelope.inbound "e1" "request.received" "r1" [("declared_type", .str "type.alpha")],
    Envelope.inbound "p1" "plan.created" "r1" [], Envelope.inbound "t1" "task.failed" "r1" [],
    Envelope.inbound "p2" "plan.created" "r1" [], Envelope.inbound "t2" "task.failed" "r1" [],
    Envelope.inbound "p3" "plan.created" "r1" []]

theorem replans_bounded_replanned : (∀ (requestId : String) (entry : RequestState),
      (Coordinator.selftest.run replannedRun).ledger.get? (.str requestId) = some entry →
        (replans (lifetime (.str requestId) (Coordinator.selftest.run replannedRun).log) : Int) ≤
          ((Coordinator.selftest.run replannedRun).pinned entry).maxReplans) ∧
    ∃ after, ((Coordinator.selftest.run replannedRun).step
        (Envelope.inbound "t3" "task.failed" "r1" [])).ledger.get? (.str "r1") = some after ∧
      after.lifecycleState = Phase.failed.state := by
  have hnames : ∀ env ∈ replannedRun, env.item "event_name" ≠ .str "config.changed" := by
    decide +kernel
  have hbounded := Coordinator.replans_bounded (fun _ ↦ true) (fun _ ↦ .int 0)
    defaultView_shippedTable (shipsTable_of_forall_ne hnames)
  have hentry : ∃ entry ∈ (Coordinator.selftest.run replannedRun).ledger.get? (.str "r1"),
      Json.str "t3" ≠ entry.lastAppliedEventId ∧
      entry.lifecycleState = Phase.executing.state ∧
      ¬ (replans (lifetime (.str "r1") (Coordinator.selftest.run replannedRun).log) : Int) <
        ((Coordinator.selftest.run replannedRun).pinned entry).maxReplans := by
    decide +kernel
  obtain ⟨entry, hfound, hfresh, hexecuting, hreached⟩ := hentry
  refine ⟨hbounded.1 fun before env hbefore ↦ Core.keepsPins_of_forall_ne hnames hbefore _, ?_⟩
  obtain ⟨after, hafter, hstate⟩ := hbounded.2 "r1" entry
    (Envelope.inbound "t3" "task.failed" "r1" [])
    ⟨by decide +kernel, rfl, rfl, hfound, hfresh⟩ hexecuting
  exact ⟨after, hafter, hstate.trans (if_neg hreached)⟩

end AbsoluteZero.Kernel

import AbsoluteZero.Kernel.History

/-!
# Completion and verdicts

A request completes on a recorded verdict, which outlives the attempt it was given in: after a
failed task and a new plan the gate still permits (`staleRun_completes`). What the table does
guarantee is that the last verdict event applied since the admission passed
(`Coordinator.completes_verified`, by `Core.Verified`).
-/

namespace AbsoluteZero.Kernel

open Foundations OrderedDict List

def verdictEvents : List Json := [.str "verify.passed", .str "verify.failed"]

variable (records : List Record)

def lastVerdict : Option Json :=
  ((records.map Record.event).filter (· ∈ verdictEvents)).getLast?

/-- A `verify.passed` among some records with no `verify.failed` after it. -/
def Passed : Prop := lastVerdict records = some (.str "verify.passed")

instance (records : List Record) : Decidable (Passed records) := inferInstanceAs (Decidable (_ = _))

theorem lastVerdict_append (record : Record) :
    lastVerdict (records ++ [record]) =
      if record.event ∈ verdictEvents then some record.event else lastVerdict records := by
  unfold lastVerdict
  by_cases hevent : record.event ∈ verdictEvents <;> simp [hevent]

/-- `Passed` in terms of the records: one of them is a `verify.passed`, and no later one is a
`verify.failed`. -/
theorem passed_iff :
    Passed records ↔ ∃ earlier passed later, records = earlier ++ passed :: later ∧
      passed.event = .str "verify.passed" ∧ ∀ record ∈ later, record.event ≠ .str
        "verify.failed" := by
  constructor
  · intro hpassed
    induction records using List.reverseRecOn with
    | nil => cases hpassed
    | append_singleton records record ih =>
      rw [Passed, lastVerdict_append] at hpassed
      split at hpassed
      · exact ⟨records, record, [], rfl, Option.some.inj hpassed, by simp⟩
      · next hevent =>
        obtain ⟨earlier, passed, later, rfl, hevents, hlater⟩ := ih hpassed
        refine ⟨earlier, passed, later ++ [record], by simp, hevents, fun other hother ↦ ?_⟩
        rcases mem_append.mp hother with hold | hnew
        · exact hlater other hold
        · rw [mem_singleton.mp hnew]
          exact fun hfailed ↦ hevent (by simp [verdictEvents, hfailed])
  · rintro ⟨earlier, passed, later, rfl, hpassed, hlater⟩
    induction later using List.reverseRecOn with
    | nil => rw [Passed, lastVerdict_append, hpassed, if_pos (by simp [verdictEvents])]
    | append_singleton later record ih =>
      have hbefore := ih fun other hother ↦ hlater other (mem_append_left _ hother)
      rw [← cons_append, ← append_assoc, Passed, lastVerdict_append]
      split
      · next hevent =>
        rcases mem_cons.mp hevent with hagain | hfailed
        · rw [hagain]
        · exact absurd (mem_singleton.mp hfailed) (hlater record (by simp))
      · exact hbefore

/-- The records after the most recent `plan.created`. -/
def currentAttempt : List Record :=
  (records.reverse.takeWhile fun record ↦ record.event ≠ .str "plan.created").reverse

/-- A record with which a request enters `completed`. -/
def Record.Completes (record : Record) : Prop :=
  record.nextState = Phase.completed.state ∧ record.priorState ≠ Phase.completed.state

instance (record : Record) : Decidable record.Completes := inferInstanceAs (Decidable (_ ∧ _))

/-- A true verdict of an entry is the last verdict event of its lifetime, and every record that
completes a request does so on such a verdict. -/
structure Core.Verified (core : Core) : Prop where
  recorded : ∀ requestId entry, core.ledger.get? requestId = some entry →
    ∀ verdict, entry.recordedVerdicts.get? verdict = some true →
      verdict = "verification" ∧ Passed (lifetime requestId core.log)
  completed : ∀ requestId, requestId ≠ .null → ∀ before record, before ++ [record] <+: core.log →
    record.Concerns requestId → record.Completes →
      Passed (lifetime requestId (before ++ [record]))

/-! ### Steps -/

variable {entry : RequestState}

theorem exists_verdict_of_gate {config : ConfigView}
    (hgate : guardHolds (.str "gate:completion") entry config = .ok true) :
    ∃ verdict, entry.recordedVerdicts.get? verdict = some true := by
  have hgate : evaluateGate entry (config.gates.getD "completion" (.obj [])) = .ok true := by
    rw [← hgate]
    simp [guardHolds, stripStart]
  unfold evaluateGate at hgate
  split at hgate
  · cases hgate
  · split at hgate
    · cases hgate
    · split at hgate
      · unfold verdictTrue at hgate
        split at hgate
        · next verdict _ => exact ⟨verdict, by simpa using hgate⟩
        · split at hgate <;> cases hgate
      · cases hgate

variable {rule : Rule}

theorem eq_of_target_completed (htarget : rule.target = .completed)
    (hsource : rule.source ≠ .completed) : rule = .complete ∨ rule = .passLate := by
  cases rule
  case settle => exact absurd htarget hsource
  all_goals first | exact Or.inl rfl | exact Or.inr rfl | cases htarget

theorem event_mem_verdictEvents (rule : Rule) :
    Json.str rule.event ∈ verdictEvents ↔ rule.action? = some "record_verdict" := by
  cases rule <;> simp [Rule.event, Rule.action?, verdictEvents]

/-- A transition that goes with the verdicts of its entry: a true verdict is the last verdict event
of the lifetime, now extended by the record of the transition. -/
theorem recorded_unit {records : List Record}
    (hentry : ∀ verdict, entry.recordedVerdicts.get? verdict = some true →
      verdict = "verification" ∧ Passed records) (rule : Rule) (eventId : Json)
    (config : ConfigView) (info : Option (List (String × Json))) (verdict : String)
    (hverdict : (rule.unit entry eventId config info).entry.recordedVerdicts.get? verdict =
      some true) : verdict = "verification" ∧
      Passed (records ++ [(rule.unit entry eventId config info).record]) := by
  have hevent : (rule.unit entry eventId config info).record.event = .str rule.event := rfl
  rw [recordedVerdicts_unit] at hverdict
  rw [Passed, lastVerdict_append, hevent]
  by_cases hrecords : rule.action? = some "record_verdict"
  · rw [if_pos hrecords, get?_insert] at hverdict
    rw [if_pos ((event_mem_verdictEvents rule).mpr hrecords)]
    split at hverdict
    · next hname =>
      have hpassed : rule.event = "verify.passed" := by simpa using hverdict
      exact ⟨hname.symm, by rw [hpassed]⟩
    · next hname => exact absurd (hentry verdict hverdict).1.symm hname
  · rw [if_neg hrecords] at hverdict
    rw [if_neg fun hmem ↦ hrecords ((event_mem_verdictEvents rule).mp hmem)]
    exact hentry verdict hverdict

variable {view : ConfigView}

/-- A transition that enters `completed` is verified. -/
theorem passed_of_completes {records : List Record}
    (hentry : ∀ verdict, entry.recordedVerdicts.get? verdict = some true →
      verdict = "verification" ∧ Passed records)
    (hsource : entry.lifecycleState = rule.source.state) (henabled : rule.Enabled entry view)
    (eventId : Json) (config : ConfigView) (info : Option (List (String × Json)))
    (hcompletes : (rule.unit entry eventId config info).record.Completes) :
    Passed (records ++ [(rule.unit entry eventId config info).record]) := by
  have htarget : rule.target = .completed := Phase.state_injective hcompletes.1
  have hleaves : rule.source ≠ .completed := fun heq ↦
    hcompletes.2 (hsource.trans (congrArg Phase.state heq))
  rw [Passed, lastVerdict_append]
  rcases eq_of_target_completed htarget hleaves with rfl | rfl
  · obtain ⟨verdict, hverdict⟩ := exists_verdict_of_gate henabled
    exact (hentry verdict hverdict).2
  · rfl

variable {core : Core}

theorem Core.Verified.completed_extend (hcore : core.Verified) {next : Core} {record : Record}
    (hlog : next.log = core.log ++ [record]) (hcompleted : ∀ requestId, requestId ≠ .null →
      record.Concerns requestId → record.Completes →
        Passed (extendLifetime requestId (lifetime requestId core.log) record))
    (requestId : Json) (hnull : requestId ≠ .null) (before : List Record) (other : Record)
    (hbefore : before ++ [other] <+: next.log) (hconcerns : other.Concerns requestId)
    (hcompletes : other.Completes) : Passed (lifetime requestId (before ++ [other])) := by
  rw [hlog, prefix_concat_iff] at hbefore
  rcases hbefore with heq | hbefore
  · obtain ⟨rfl, hrecord⟩ := append_inj' heq rfl
    obtain rfl := singleton_inj.mp hrecord
    rw [lifetime_append]
    exact hcompleted requestId hnull hconcerns hcompletes
  · exact hcore.completed requestId hnull before other hbefore hconcerns hcompletes

theorem inductive_recorded : Inductive fun entry records ↦
    ∀ verdict, entry.recordedVerdicts.get? verdict = some true →
      verdict = "verification" ∧ Passed records where
  admitted _ _ verdict hverdict := by cases hverdict
  unit rule _ eventId config info _ hentry := recorded_unit hentry rule eventId config info

theorem passed_of_concerns {config : ConfigView} (view : ConfigView)
    (hentry : ∀ verdict, entry.recordedVerdicts.get? verdict = some true →
      verdict = "verification" ∧ Passed (lifetime entry.requestId core.log))
    (hsource : entry.lifecycleState = rule.source.state) (henabled : rule.Enabled entry view)
    (eventId : Json) (info : Option (List (String × Json))) {requestId : Json}
    (hconcerns : (rule.unit entry eventId config info).record.Concerns requestId)
    (hcompletes : (rule.unit entry eventId config info).record.Completes) :
    Passed (extendLifetime requestId (lifetime requestId core.log)
      (rule.unit entry eventId config info).record) := by
  rw [← (show entry.requestId = requestId from hconcerns.1), extendLifetime_unit]
  exact passed_of_completes hentry hsource henabled eventId config info hcompletes

theorem Core.Verified.act (hsound : core.Sound) (hhistorical : core.Historical) {env : Json}
    {action : Action} (hlegal : core.Legal env action) (hcore : core.Verified) :
    (core.act action).Verified := by
  refine ⟨Core.Relates.act inductive_recorded hsound hhistorical hlegal hcore.recorded, ?_⟩
  cases hlegal with
  | configure | mark =>
    exact hcore.completed_extend rfl fun _ hnull hconcerns ↦ absurd hconcerns.1.symm hnull
  | absorb =>
    exact hcore.completed_extend rfl fun _ _ hconcerns ↦ absurd hconcerns.2 (Option.some_ne_none _)
  | strand => exact hcore.completed
  | admission hnew hrule =>
    refine hcore.completed_extend rfl fun _ _ ↦ passed_of_concerns core.config ?_ ?_ ?_ _ _
    · exact fun verdict hverdict ↦ by cases hverdict
    · rcases hrule with rfl | rfl <;> rfl
    · rcases hrule with rfl | rfl <;> trivial
  | advance _ hentry hsource henabled =>
    refine hcore.completed_extend rfl fun _ _ ↦ passed_of_concerns _ ?_ hsource henabled _ _
    rw [(hsound.entries _ _ hentry).id]
    exact hcore.recorded _ _ hentry
  | clean =>
    refine hcore.completed_extend rfl fun _ _ _ hcompletes ↦ ?_
    exact absurd (Json.str.inj hcompletes.1) (by decide)

theorem Core.verified_init (view : ConfigView) : (Core.init view).Verified where
  recorded requestId entry hentry := by cases hentry
  completed requestId _ before record hbefore := by
    have hnil : before ++ [record] = [] := prefix_nil.mp hbefore
    simp at hnil

theorem Coordinator.verified_run (accepts : Nat → Bool) (clock : Nat → Json)
    (hview : view.ShippedTable) {envs : List Json} (hships : ∀ env ∈ envs, ShipsTable env) :
    ((init { accepts := accepts } clock view).run envs).core.Verified :=
  (run_induction (fun core ↦ core.Historical ∧ core.Verified) rfl clock hview hships
    ⟨Core.historical_init view, Core.verified_init view⟩ fun _ _ _ hsound hlegal hcore ↦
      ⟨hcore.1.act hsound hlegal, hcore.2.act hsound hcore.1 hlegal⟩).2

/-- Whenever a request enters `completed`, the records of its lifetime up to then meet a
standard. -/
def Coordinator.CompletesOnlyOn (coord : Coordinator) (standard : List Record → Prop) : Prop :=
  ∀ (requestId : String) (before : List Record) (record : Record),
    before ++ [record] <+: coord.log → record.Concerns (.str requestId) → record.Completes →
      standard (lifetime (.str requestId) (before ++ [record]))

/-- In every run under the shipped table, whenever a request enters `completed` a `verify.passed`
was applied to it since its admission, and no `verify.failed` after that one. -/
theorem Coordinator.completes_verified (accepts : Nat → Bool) (clock : Nat → Json)
    (hview : view.ShippedTable) {envs : List Json} (hships : ∀ env ∈ envs, ShipsTable env) :
    ((init { accepts := accepts } clock view).run envs).CompletesOnlyOn fun records ↦
      ∃ earlier passed later, records = earlier ++ passed :: later ∧
        passed.event = .str "verify.passed" ∧
        ∀ record ∈ later, record.event ≠ .str "verify.failed" := by
  intro requestId before record hbefore hconcerns hcompletes
  have hverified := verified_run accepts clock hview hships
  exact (passed_iff _).mp
    (hverified.completed (.str requestId) (by simp) before record hbefore hconcerns hcompletes)

theorem Coordinator.not_completesOnlyOn {coord : Coordinator} {standard : List Record → Prop}
    {requestId : String} {record : Record} (hlast : record ∈ coord.log.getLast?)
    (hconcerns : record.Concerns (.str requestId)) (hcompletes : record.Completes)
    (hfails : ¬ standard (lifetime (.str requestId) coord.log)) :
    ¬ coord.CompletesOnlyOn standard := by
  intro hstandard
  have hlog : coord.log.dropLast ++ [record] = coord.log :=
    dropLast_append_getLast? record hlast
  have hmet := hstandard requestId coord.log.dropLast record ⟨[], by rw [append_nil, hlog]⟩
    hconcerns hcompletes
  rw [hlog] at hmet
  exact hfails hmet

/-- A verdict in the first attempt, a failed task, a second plan, and no verdict after it. -/
def staleRun : List Json :=
  [Envelope.inbound "e1" "request.received" "r1" [("declared_type", .str "type.alpha")],
    Envelope.inbound "e2" "plan.created" "r1" [], Envelope.inbound "e3" "verify.passed" "r1" [],
    Envelope.inbound "e4" "task.failed" "r1" [], Envelope.inbound "e5" "plan.created" "r1" [],
    Envelope.inbound "e6" "task.completed" "r1" []]

/-- The verdict of the first attempt lets the second one complete. -/
theorem staleRun_completes : ¬ (Coordinator.selftest.run staleRun).CompletesOnlyOn fun records ↦
      Passed (currentAttempt records) := by
  have hlast : ∃ record ∈ (Coordinator.selftest.run staleRun).log.getLast?,
      record.Concerns (.str "r1") ∧ record.Completes ∧
        ¬ Passed (currentAttempt (lifetime (.str "r1")
          (Coordinator.selftest.run staleRun).log)) := by
    decide +kernel
  obtain ⟨record, hmem, hconcerns, hcompletes, hfails⟩ := hlast
  exact Coordinator.not_completesOnlyOn hmem hconcerns hcompletes hfails

theorem completes_verified_stale : (Coordinator.selftest.run staleRun).CompletesOnlyOn fun records ↦
      ∃ earlier passed later, records = earlier ++ passed :: later ∧
        passed.event = .str "verify.passed" ∧
        ∀ record ∈ later, record.event ≠ .str "verify.failed" :=
  Coordinator.completes_verified (fun _ ↦ true) (fun _ ↦ .int 0) defaultView_shippedTable
    (shipsTable_of_forall_ne (by decide +kernel))

end AbsoluteZero.Kernel

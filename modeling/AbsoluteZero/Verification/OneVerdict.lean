import AbsoluteZero.Verification.Coherence

/-!
# One verdict for each artifact

An artifact gets at most one judgment, and its verdict event is a function of its record, so however
often it is published it is one and the same (`verdicts_agree`). The record is stored first, and a
rejected write leaves a fault unless the bus refuses the fault too (`one_verdict`).
-/

namespace AbsoluteZero.Verification

open Foundations OrderedDict

variable {registry : StaticRegistry} {digest : String → String} {quotient : Nat → Nat → Rat}
  {policy : DerivationPolicy} {storage : OrderedDict String String} {engine : Engine}

def Envelope.IsVerdict (envelope : Envelope) : Prop :=
  envelope.eventName = "verify.passed" ∨ envelope.eventName = "verify.failed"

instance (envelope : Envelope) : Decidable envelope.IsVerdict := inferInstanceAs (Decidable (_ ∨ _))

theorem Judgment.Step.not_complete {judgment next : Judgment} (hstep : judgment.Step next) :
    ¬ judgment.Complete := by
  intro hcomplete
  have hterminal : ∀ check delegation, judgment.delegations.get? check = some delegation →
      delegation.state.terminal = true := fun check delegation hfound ↦
    hcomplete.2 delegation (List.mem_map_of_mem ((get?_eq_some_iff _).mp hfound))
  cases hstep with
  | acknowledge check delegation hfound hstate
  | settle check delegation after outcome level hfound hstate =>
    have hterminal := hterminal check delegation hfound
    rw [hstate] at hterminal
    cases hterminal
  | static check outcome level hpending =>
    rw [hcomplete.1] at hpending
    cases hpending

theorem VerdictOf.unique {artifactRef : String} {record : EvidenceRecord} {first second : Envelope}
    (hfirst : VerdictOf digest artifactRef record first)
    (hsecond : VerdictOf digest artifactRef record second) : first = second := by
  obtain ⟨eventName, eventId, payload, hbuilt, rfl⟩ := hfirst
  obtain ⟨otherName, otherId, otherPayload, hother, rfl⟩ := hsecond
  rw [hbuilt] at hother
  cases hother
  rfl

namespace Engine

/-! ### The invariant -/

/-- The verdict events of an artifact are those of its open judgment, if it has one; a free artifact
has none. -/
structure Unanimous (digest : String → String) (quotient : Nat → Nat → Rat)
    (policy : DerivationPolicy) (engine : Engine) : Prop where
  free : ∀ artifactRef, engine.intake.Free artifactRef →
    ∀ envelope ∈ engine.bus, envelope.IsVerdict → envelope.subjectRef ≠ .str artifactRef
  opened : ∀ artifactRef judgment, engine.judgments.get? artifactRef = some judgment →
    judgment.artifactRef = artifactRef ∧ ¬ engine.intake.Free artifactRef ∧
      engine.intake.terminalVerdicts.get? artifactRef = none ∧
      ∀ envelope ∈ engine.bus, envelope.IsVerdict → envelope.subjectRef = .str artifactRef →
        judgment.Complete ∧ ∃ record, attachDerivation quotient policy judgment.record = .ok record
          ∧ VerdictOf digest artifactRef record envelope
  agree : ∀ first ∈ engine.bus, ∀ second ∈ engine.bus, first.IsVerdict → second.IsVerdict →
    first.subjectRef = second.subjectRef → first = second

theorem unanimous_new : (Engine.new storage).Unanimous digest quotient policy := by
  refine ⟨fun artifactRef _ envelope henvelope ↦ ?_, fun artifactRef judgment hfound ↦ ?_,
    fun first hfirst ↦ ?_⟩
  · cases henvelope
  · cases hfound
  · cases hfirst

theorem mem_telling {told : Envelope} {envelope : Envelope} :
    envelope ∈ (engine.telling told).bus ↔ envelope ∈ engine.bus ∨ envelope = told := by
  change envelope ∈ engine.bus ++ [told] ↔ _
  rw [List.mem_append, List.mem_singleton]

variable {judgment : Judgment}

theorem not_isVerdict_fault {recordHash : String} :
    ¬ (faultEnvelope judgment recordHash).IsVerdict := by
  rintro (hname | hname)
  · exact absurd (show "fault.recorded" = _ from hname) (by decide)
  · exact absurd (show "fault.recorded" = _ from hname) (by decide)

theorem Unanimous.fewer {next : Engine} (hunanimous : engine.Unanimous digest quotient policy)
    (hbus : ∀ envelope ∈ next.bus, envelope.IsVerdict → envelope ∈ engine.bus)
    (hfree : ∀ artifactRef, next.intake.Free artifactRef → engine.intake.Free artifactRef)
    (hterminal : next.intake.terminalVerdicts = engine.intake.terminalVerdicts)
    (hjudgments : ∀ artifactRef judgment, next.judgments.get? artifactRef = some judgment →
      engine.judgments.get? artifactRef = some judgment) :
    next.Unanimous digest quotient policy := by
  refine ⟨fun artifactRef hnext envelope henvelope hverdict ↦ ?_, fun artifactRef judgment hfound ↦
    ?_, fun first hfirst second hsecond hverdict hother ↦ ?_⟩
  · exact hunanimous.free artifactRef (hfree artifactRef hnext) envelope
      (hbus envelope henvelope hverdict) hverdict
  · obtain ⟨hartifact, hheld, hnone, hverdicts⟩ :=
      hunanimous.opened artifactRef judgment (hjudgments artifactRef judgment hfound)
    exact ⟨hartifact, fun hnext ↦ hheld (hfree artifactRef hnext), hterminal ▸ hnone,
      fun envelope henvelope hverdict ↦
        hverdicts envelope (hbus envelope henvelope hverdict) hverdict⟩
  · exact hunanimous.agree first (hbus first hfirst hverdict) second (hbus second hsecond hother)
      hverdict hother

theorem free_of_opening {intake : Intake} {eventId artifactRef judgmentId other : String}
    (hfree : ((intake.seeing eventId).opening artifactRef judgmentId).Free other) :
    intake.Free other ∧ artifactRef ≠ other := by
  obtain ⟨hterminal, hopen⟩ := hfree
  change (intake.openJudgments.insert artifactRef judgmentId).get? other = none at hopen
  rw [get?_insert] at hopen
  split at hopen
  · cases hopen
  · next hother => exact ⟨⟨hterminal, hopen⟩, hother⟩

variable {record : EvidenceRecord} {artifactRef : String}

theorem Unanimous.tell (hunanimous : engine.Unanimous digest quotient policy) {envelope : Envelope}
    (hfound : engine.judgments.get? artifactRef = some judgment) (hcomplete : judgment.Complete)
    (hrecord : attachDerivation quotient policy judgment.record = .ok record)
    (hverdict : VerdictOf digest judgment.artifactRef record envelope) :
    ((engine.storing digest record).telling envelope).Unanimous digest quotient policy := by
  obtain ⟨hartifact, hheld, hnone, hverdicts⟩ := hunanimous.opened artifactRef judgment hfound
  rw [hartifact] at hverdict
  have hsubject : envelope.subjectRef = .str artifactRef := by
    obtain ⟨eventName, eventId, payload, -, rfl⟩ := hverdict
    rfl
  have hsame : ∀ other ∈ engine.bus, other.IsVerdict → other.subjectRef = .str artifactRef →
      other = envelope := by
    intro other hmem hother htold
    obtain ⟨-, attached, hattached, hevent⟩ := hverdicts other hmem hother htold
    rw [hrecord] at hattached
    cases hattached
    exact hevent.unique hverdict
  refine ⟨fun other hfree told htold hother ↦ ?_, fun other held hheld' ↦ ?_,
    fun first hfirst second hsecond hone hother heq ↦ ?_⟩
  · rcases mem_telling.mp htold with hmem | rfl
    · exact hunanimous.free other hfree told hmem hother
    · rw [hsubject]
      rintro heq
      cases heq
      exact hheld hfree
  · obtain ⟨hartifact', hheld'', hnone', hverdicts'⟩ := hunanimous.opened other held hheld'
    refine ⟨hartifact', hheld'', hnone', fun told htold hother heq ↦ ?_⟩
    rcases mem_telling.mp htold with hmem | rfl
    · exact hverdicts' told hmem hother heq
    · rw [hsubject] at heq
      cases heq
      change engine.judgments.get? artifactRef = some held at hheld'
      rw [hfound] at hheld'
      cases hheld'
      exact ⟨hcomplete, record, hrecord, hverdict⟩
  · rcases mem_telling.mp hfirst with hearlier | rfl
    · rcases mem_telling.mp hsecond with hlater | rfl
      · exact hunanimous.agree first hearlier second hlater hone hother heq
      · exact hsame first hearlier hone (heq.trans hsubject)
    · rcases mem_telling.mp hsecond with hlater | rfl
      · exact (hsame second hlater hother (heq.symm.trans hsubject)).symm
      · rfl

theorem Unanimous.change (hunanimous : engine.Unanimous digest quotient policy) {call : Call}
    {next : Engine} (hcall : ∀ artifactRef check polled, call ≠ .lateResult artifactRef
      check polled)
    (hchange : engine.Change digest quotient policy call next) :
    next.Unanimous digest quotient policy := by
  cases hchange with
  | unchanged => exact hunanimous
  | ingested | seen =>
    exact hunanimous.fewer (fun _ henvelope _ ↦ henvelope) (fun _ hfree ↦ hfree) rfl
      fun _ _ hfound ↦ hfound
  | stranded demand refusal hfresh hrefused =>
    exact hunanimous.fewer (fun _ henvelope _ ↦ henvelope) (fun _ hfree ↦ (free_of_opening hfree).1)
      rfl fun _ _ hfound ↦ hfound
  | opened demand judgment hfresh hopened =>
    obtain ⟨-, rules, -, hby⟩ := judgmentOf_eq_ok hopened
    refine ⟨fun artifactRef hfree ↦ hunanimous.free artifactRef (free_of_opening hfree).1,
      fun artifactRef held hheld ↦ ?_, hunanimous.agree⟩
    rw [get?_insert] at hheld
    split at hheld
    · next hartifact =>
      cases hheld
      subst hartifact
      refine ⟨hby.artifactRef, fun hfree ↦ (free_of_opening hfree).2 rfl, hfresh.2.2.1, ?_⟩
      intro envelope henvelope hverdict hsubject
      exact absurd hsubject (hunanimous.free _ hfresh.2.2 envelope henvelope hverdict)
    · obtain ⟨hartifact, hheld', hnone, hverdicts⟩ := hunanimous.opened artifactRef held hheld
      exact ⟨hartifact, fun hfree ↦ hheld' (free_of_opening hfree).1, hnone, hverdicts⟩
  | advanced _ artifactRef judgment next hfound hstep =>
    refine ⟨hunanimous.free, fun other held hheld ↦ ?_, hunanimous.agree⟩
    rw [get?_insert] at hheld
    split at hheld
    · next hartifact =>
      cases hheld
      subst hartifact
      obtain ⟨hartifact, hheld', hnone, hverdicts⟩ := hunanimous.opened artifactRef judgment hfound
      refine ⟨?_, hheld', hnone, fun envelope henvelope hverdict hsubject ↦ ?_⟩
      · rw [← hartifact]
        cases hstep <;> rfl
      · exact absurd (hverdicts envelope henvelope hverdict hsubject).1 hstep.not_complete
    · exact hunanimous.opened other held hheld
  | heard artifactRef check polled => exact absurd rfl (hcall artifactRef check polled)
  | faulted artifactRef judgment record hfound hcomplete hrecord =>
    refine hunanimous.fewer (fun envelope henvelope hverdict ↦ ?_) (fun _ hfree ↦ hfree) rfl
      fun _ _ hheld ↦ (get?_of_erase hheld).2
    rcases mem_telling.mp henvelope with hmem | rfl
    · exact hmem
    · exact absurd hverdict not_isVerdict_fault
  | faultedRaising artifactRef judgment record =>
    refine hunanimous.fewer (fun envelope henvelope hverdict ↦ ?_) (fun _ hfree ↦ hfree) rfl
      fun _ _ hfound ↦ hfound
    rcases mem_telling.mp henvelope with hmem | rfl
    · exact hmem
    · exact absurd hverdict not_isVerdict_fault
  | stored =>
    exact hunanimous.fewer (fun _ henvelope _ ↦ henvelope) (fun _ hfree ↦ hfree) rfl
      fun _ _ hfound ↦ hfound
  | toldRaising artifactRef judgment record envelope answer hanswer hfound hcomplete
      hrecord hverdict =>
    exact hunanimous.tell hfound hcomplete hrecord hverdict
  | emitted artifactRef judgment record envelope hfound hcomplete hnone hrecord hverdict =>
    have htold := hunanimous.tell hfound hcomplete hrecord hverdict
    obtain ⟨hartifact, -⟩ := hunanimous.opened artifactRef judgment hfound
    have hfree : ∀ other, (engine.intake.terminal judgment.artifactRef
        ("storage:" ++ storageKey (contentHash digest record))).Free other →
        engine.intake.Free other ∧ artifactRef ≠ other := by
      rintro other ⟨hterminal, hopen⟩
      change (engine.intake.terminalVerdicts.insert judgment.artifactRef _).get? other = none
        at hterminal
      change (engine.intake.openJudgments.erase judgment.artifactRef).get? other = none at hopen
      rw [hartifact, get?_insert] at hterminal
      split at hterminal
      · cases hterminal
      · next hne =>
        rw [hartifact, get?_erase, if_neg hne] at hopen
        exact ⟨⟨hterminal, hopen⟩, hne⟩
    refine ⟨fun other hother ↦ htold.free other (hfree other hother).1, fun other held hheld ↦ ?_,
      htold.agree⟩
    obtain ⟨hne, hkept⟩ := get?_of_erase hheld
    obtain ⟨hsame, hheld', hterminal, hverdicts⟩ := htold.opened other held hkept
    refine ⟨hsame, fun hother ↦ hheld' (hfree other hother).1, ?_, hverdicts⟩
    change (engine.intake.terminalVerdicts.insert judgment.artifactRef _).get? other = none
    rw [hartifact, get?_insert, if_neg hne]
    exact hterminal

/-- A committed write is in the storage also when the bus does not take the event. -/
theorem after_down {account : Account} (hfound : engine.judgments.get? artifactRef = some judgment)
    (hcomplete : judgment.Complete)
    (hnone : engine.intake.terminalVerdicts.get? judgment.artifactRef = none)
    (hrecord : attachDerivation quotient policy judgment.record = .ok record)
    (haccount : record.derivationAccount = account.toJson) :
    engine.after registry digest quotient policy (.tryCloseAndEmit artifactRef .committed .down) =
      engine.storing digest record := by
  obtain ⟨hopen, hfirst, hsealed⟩ := emittable_sealed hnone hrecord
  have hname : verdictName account.verdict ∈ published := by
    cases account.verdict <;> decide
  change (engine.tryCloseAndEmit digest quotient policy artifactRef .committed .down).2 = _
  rw [tryCloseAndEmit_of_complete hfound hcomplete]
  simp only [emitVerdict, if_neg hopen, if_neg hfirst, hsealed, announce,
    buildVerdictEnvelope_of_account _ _ _ haccount, buildEnvelope, if_pos hname, publish]
  rfl

/-- A rejected write leaves a fault on the bus, and no verdict; when the bus is down the call
raises. -/
theorem after_rejected
    (answer : PublishAnswer) (hfound : engine.judgments.get? artifactRef = some judgment)
    (hcomplete : judgment.Complete)
    (hnone : engine.intake.terminalVerdicts.get? judgment.artifactRef = none)
    (hrecord : attachDerivation quotient policy judgment.record = .ok record) : (answer ≠ .down →
      (engine.after registry digest quotient policy
        (.tryCloseAndEmit artifactRef .rejected answer)).bus =
        engine.bus ++ [faultEnvelope judgment (contentHash digest record)]) ∧ (answer = .down →
      engine.after registry digest quotient policy (.tryCloseAndEmit artifactRef .rejected answer) =
        engine ∧
      ∃ refusal, (engine.tryCloseAndEmit digest quotient policy artifactRef .rejected answer).1 =
        .error refusal) := by
  obtain ⟨hopen, hfirst, hsealed⟩ := emittable_sealed hnone hrecord
  simp only [after]
  rw [tryCloseAndEmit_of_complete hfound hcomplete]
  simp only [emitVerdict, if_neg hopen, if_neg hfirst, hsealed]
  cases answer with
  | taken | takenThenRaised => exact ⟨fun _ ↦ rfl, fun hdown ↦ by cases hdown⟩
  | down => exact ⟨fun hne ↦ absurd rfl hne, fun _ ↦ ⟨rfl, _, rfl⟩⟩

end Engine

def Call.NotLate (call : Call) : Prop :=
  ∀ artifactRef check polled, call ≠ .lateResult artifactRef check polled

theorem verdicts_agree {calls : List Call} (hcalls : ∀ call ∈ calls, call.NotLate) :
    ((Engine.new storage).run registry digest quotient policy calls).Unanimous digest quotient
      policy := by
  revert hcalls
  refine run_invariant (fun calls engine ↦
    (∀ call ∈ calls, call.NotLate) → engine.Unanimous digest quotient policy) ?_ ?_ calls
  · exact fun _ ↦ Engine.unanimous_new
  · intro calls call next ih hchange hcalls
    have hbefore := ih fun other hother ↦ hcalls other (List.mem_append_left _ hother)
    exact hbefore.change (hcalls call (by simp)) hchange

theorem stored_before_published {call : Call} {envelope : Envelope}
    (hunanimous : engine.Unanimous digest quotient policy)
    (hpublished : (engine.after registry digest quotient policy call).bus =
      engine.bus ++ [envelope])
    (hverdict : envelope.IsVerdict) : ∃ artifactRef answer record,
      call = .tryCloseAndEmit artifactRef .committed answer ∧
      envelope.payload.get? "evidence_record_ref" =
        some (.str ("storage:" ++ storageKey (contentHash digest record))) ∧
      (engine.after registry digest quotient policy
        (.tryCloseAndEmit artifactRef .committed .down)).bus = engine.bus ∧
      (engine.after registry digest quotient policy
        (.tryCloseAndEmit artifactRef .committed .down)).storage.get?
          (storageKey (contentHash digest record)) = some (canonical record) := by
  have hchange := @Engine.change_after registry digest quotient policy engine call
  generalize engine.after registry digest quotient policy call = next at *
  have hsilent : next.bus ≠ engine.bus := fun hsame ↦ by simp [hsame] at hpublished
  have htold : ∀ other, next.bus = engine.bus ++ [other] → other = envelope :=
    fun other hother ↦ by simpa [hother] using hpublished
  cases hchange with
  | faulted artifactRef judgment record | faultedRaising artifactRef judgment record =>
    rw [← htold _ rfl] at hverdict
    exact absurd hverdict Engine.not_isVerdict_fault
  | toldRaising artifactRef judgment record other answer hanswer hfound hcomplete hrecord hevent
  | emitted artifactRef judgment record other hfound hcomplete hnone hrecord hevent =>
    obtain rfl := htold other rfl
    refine ⟨artifactRef, _, record, rfl, ?_⟩
    obtain ⟨hartifact, -, hunsettled, -⟩ := hunanimous.opened artifactRef judgment hfound
    obtain ⟨account, haccount, -, rfl⟩ := attachDerivation_eq_ok_iff.mp hrecord
    rw [verdictOf_iff rfl] at hevent
    rw [← hartifact] at hunsettled
    rw [Engine.after_down hfound hcomplete hunsettled hrecord rfl, hevent]
    refine ⟨rfl, rfl, ?_⟩
    change (engine.storage.insert _ _).get? _ = _
    rw [get?_insert, if_pos rfl]
  | _ => exact (hsilent rfl).elim

/-- Assumes: no call of the run records a late result. All verdict events of an artifact have one
event id; a verdict event names a record that a committed write put under that key before the event
was published; and a rejected write of a complete judgment publishes a fault and no verdict, unless
the bus refuses the fault, which the call then raises. -/
theorem one_verdict (calls : List Call) (hcalls : ∀ call ∈ calls, call.NotLate) :
    let engine := (Engine.new storage).run registry digest quotient policy calls
    (∀ first ∈ engine.bus, ∀ second ∈ engine.bus, first.IsVerdict → second.IsVerdict →
      first.subjectRef = second.subjectRef → first.eventId = second.eventId) ∧
    (∀ call envelope, (engine.after registry digest quotient policy call).bus =
        engine.bus ++ [envelope] → envelope.IsVerdict →
      ∃ artifactRef answer record, call = .tryCloseAndEmit artifactRef .committed answer ∧
        envelope.payload.get? "evidence_record_ref" =
          some (.str ("storage:" ++ storageKey (contentHash digest record))) ∧
        (engine.after registry digest quotient policy
          (.tryCloseAndEmit artifactRef .committed .down)).bus = engine.bus ∧
        (engine.after registry digest quotient policy
          (.tryCloseAndEmit artifactRef .committed .down)).storage.get?
            (storageKey (contentHash digest record)) = some (canonical record)) ∧
    ∀ artifactRef judgment record answer, engine.judgments.get? artifactRef = some judgment →
      judgment.Complete → attachDerivation quotient policy judgment.record = .ok record →
      (answer ≠ .down → (engine.after registry digest quotient policy
          (.tryCloseAndEmit artifactRef .rejected answer)).bus =
        engine.bus ++ [Engine.faultEnvelope judgment (contentHash digest record)]) ∧
      (answer = .down → engine.after registry digest quotient policy
          (.tryCloseAndEmit artifactRef .rejected answer) = engine ∧
        ∃ refusal, (engine.tryCloseAndEmit digest quotient policy artifactRef .rejected answer).1 =
          .error refusal) := by
  intro engine
  have hunanimous : engine.Unanimous digest quotient policy := verdicts_agree hcalls
  refine ⟨fun first hfirst second hsecond hone hother hsubject ↦ ?_, ?_, ?_⟩
  · rw [hunanimous.agree first hfirst second hsecond hone hother hsubject]
  · exact fun call envelope hpublished hverdict ↦
      stored_before_published hunanimous hpublished hverdict
  · intro artifactRef judgment record answer hfound hcomplete hrecord
    obtain ⟨hartifact, -, hnone, -⟩ := hunanimous.opened artifactRef judgment hfound
    rw [← hartifact] at hnone
    exact Engine.after_rejected answer hfound hcomplete hnone hrecord

theorem notLate_of_partialCalls : ∀ call ∈ partialCalls, call.NotLate := by
  intro call hcall artifactRef check polled hlate
  subst hlate
  simp [partialCalls] at hcall

theorem one_verdict_partial : ∃ artifactRef answer record,
      plainEmission = .tryCloseAndEmit artifactRef .committed answer ∧
      partialVerdict.payload.get? "evidence_record_ref" =
        some (.str ("storage:" ++ storageKey (contentHash plainDigest record))) ∧
      (plainRun (partialCalls ++ [.tryCloseAndEmit artifactRef .committed .down])).bus = [] ∧
      (plainRun (partialCalls ++ [.tryCloseAndEmit artifactRef .committed .down])).storage.get?
        (storageKey (contentHash plainDigest record)) = some (canonical record) :=
  (@one_verdict builtInChecks plainDigest plainQuotient plainPolicy .empty partialCalls
    notLate_of_partialCalls).2.1 plainEmission partialVerdict (by decide +kernel) (Or.inl rfl)

/-- A rejected write and a bus that is down: the artifact gets neither a verdict nor a fault. -/
theorem not_faulted :
    ¬ ∀ (calls : List Call) (artifactRef : String) (judgment : Judgment) (record : EvidenceRecord)
        (answer : PublishAnswer), (∀ call ∈ calls, call.NotLate) →
      (plainRun calls).judgments.get? artifactRef = some judgment → judgment.Complete →
      attachDerivation plainQuotient plainPolicy judgment.record = .ok record →
      ∃ envelope ∈ (plainRun (calls ++ [.tryCloseAndEmit artifactRef .rejected answer])).bus,
        envelope.eventName = "fault.recorded" := by
  intro hlaw
  obtain ⟨judgment, hfound, hcomplete⟩ := Option.map_eq_some_iff.mp (show
    ((plainRun partialCalls).judgments.get? "artifact:a1").map
      (fun judgment ↦ (decide judgment.Complete, ((attachDerivation plainQuotient plainPolicy
        judgment.record).toOption.isSome))) = some (true, true) by decide +kernel)
  cases hrecord : attachDerivation plainQuotient plainPolicy judgment.record with
  | error refusal =>
    rw [hrecord] at hcomplete
    cases (Prod.mk.inj hcomplete).2
  | ok record =>
    obtain ⟨envelope, henvelope, -⟩ := hlaw partialCalls "artifact:a1" judgment record .down
      notLate_of_partialCalls hfound (of_decide_eq_true (Prod.mk.inj hcomplete).1) hrecord
    cases henvelope

end AbsoluteZero.Verification

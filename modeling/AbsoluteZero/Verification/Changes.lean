import AbsoluteZero.Verification.Runtime

/-!
# What a call does to the engine

`Engine.Change` lists what one call can do, whether it returns or raises. `change_after` is the one
place where the operations are taken apart; the laws of the engine are proved from the changes.
-/

namespace AbsoluteZero.Verification

open Foundations

namespace Intake

variable {intake next : Intake} {result : IntakeResult}
  {eventName eventId artifactRef judgmentId : String}

def seeing (intake : Intake) (eventId : String) : Intake :=
  { intake with seenEventIds := eventId :: intake.seenEventIds }

def opening (intake : Intake) (artifactRef judgmentId : String) : Intake :=
  { intake with openJudgments := intake.openJudgments.insert artifactRef judgmentId }

/-- The artifact has neither a verdict nor an open judgment in the intake. -/
def Free (intake : Intake) (artifactRef : String) : Prop :=
  intake.terminalVerdicts.get? artifactRef = none ∧ intake.openJudgments.get? artifactRef = none

section

variable (hnext : intake.receive eventName eventId artifactRef judgmentId = .ok (result, next))

include hnext

/-- A demand is at most remembered, or it opens a judgment: its event is then consumed and new and
its artifact free. -/
theorem receive_cases :
    result.action ≠ .opened ∧ (next = intake ∨ next = intake.seeing eventId) ∨
      result.action = .opened ∧ eventName ∈ consumed ∧ eventId ∉ intake.seenEventIds ∧
        intake.Free artifactRef ∧
        next = (intake.seeing eventId).opening artifactRef judgmentId := by
  unfold receive at hnext
  split at hnext
  · cases hnext
  next hconsumed =>
  split at hnext
  · cases hnext
    exact .inl ⟨by simp, .inl rfl⟩
  next hseen =>
  cases hterminal : intake.terminalVerdicts.get? artifactRef with
  | some verdictRef =>
    rw [hterminal] at hnext
    cases hnext
    exact .inl ⟨by simp, .inr rfl⟩
  | none =>
    cases hopen : intake.openJudgments.get? artifactRef with
    | some held =>
      rw [hterminal, hopen] at hnext
      cases hnext
      exact .inl ⟨by simp, .inr rfl⟩
    | none =>
      rw [hterminal, hopen] at hnext
      cases hnext
      exact .inr ⟨rfl, not_not.mp hconsumed, hseen, ⟨hterminal, hopen⟩, rfl⟩

/-- A demand opens a judgment exactly when its event is consumed and new and its artifact free. -/
theorem receive_opened (hopened : result.action = .opened) :
    eventName ∈ consumed ∧ eventId ∉ intake.seenEventIds ∧ intake.Free artifactRef ∧
      next = (intake.seeing eventId).opening artifactRef judgmentId :=
  ((receive_cases hnext).resolve_left fun hother ↦ hother.1 hopened).2

end

theorem receive_of_free (hconsumed : eventName ∈ consumed) (hseen : eventId ∉ intake.seenEventIds)
    (hfree : intake.Free artifactRef) : intake.receive eventName eventId artifactRef judgmentId =
      .ok (⟨.opened, artifactRef, some judgmentId, none⟩,
        (intake.seeing eventId).opening artifactRef judgmentId) := by
  unfold receive
  rw [if_neg (not_not_intro hconsumed), if_neg hseen, hfree.1, hfree.2]
  rfl

def terminal (intake : Intake) (artifactRef verdictRef : String) : Intake :=
  { intake with
    terminalVerdicts := intake.terminalVerdicts.insert artifactRef verdictRef
    openJudgments := intake.openJudgments.erase artifactRef }

theorem markTerminal_of_none {verdictRef : String}
    (hnone : intake.terminalVerdicts.get? artifactRef = none) :
    intake.markTerminal artifactRef verdictRef = .ok (intake.terminal artifactRef verdictRef) := by
  unfold markTerminal
  rw [hnone]
  rfl

end Intake

/-! ### Changes -/

variable (registry : StaticRegistry) (digest : String → String) (quotient : Nat → Nat → Rat)
  (policy : DerivationPolicy)

def VerdictOf (artifactRef : String) (record : EvidenceRecord) (envelope : Envelope) : Prop :=
  ∃ eventName eventId payload,
    buildVerdictEnvelope (contentHash digest record) record = .ok (eventName, eventId, payload) ∧
      envelope = ⟨eventName, eventId, .str artifactRef, payload⟩

namespace Engine

def storing (engine : Engine) (record : EvidenceRecord) : Engine :=
  { engine with
    storage := engine.storage.insert (storageKey (contentHash digest record)) (canonical record) }

def telling (engine : Engine) (envelope : Envelope) : Engine :=
  { engine with bus := engine.bus ++ [envelope] }

/-- A demand opens a judgment, or would if it were well formed. -/
def Fresh (engine : Engine) (demand : Demand) : Prop :=
  demand.eventName ∈ consumed ∧ demand.eventId ∉ engine.intake.seenEventIds ∧
    engine.intake.Free demand.artifactRef

def received (engine : Engine) (demand : Demand) : Intake :=
  (engine.intake.seeing demand.eventId).opening demand.artifactRef demand.judgmentId

inductive Change (engine : Engine) : Call → Engine → Prop
  | unchanged (call : Call) : Change engine call engine
  | ingested (version : Int) (specs : OrderedDict String RulesSpec) (rulesStore : RulesStore)
      (hingest : engine.rulesStore.ingest version specs = .ok rulesStore) :
      Change engine (.ingest version specs) { engine with rulesStore := rulesStore }
  | seen (demand : Demand) : Change engine (.handleDemand demand)
      { engine with intake := engine.intake.seeing demand.eventId }
  | stranded (demand : Demand) (refusal : Refusal) (hfresh : engine.Fresh demand)
      (hrefused : judgmentOf engine.rulesStore demand = .error refusal) :
      Change engine (.handleDemand demand) { engine with intake := engine.received demand }
  | opened (demand : Demand) (judgment : Judgment) (hfresh : engine.Fresh demand)
      (hopened : judgmentOf engine.rulesStore demand = .ok judgment) :
      Change engine (.handleDemand demand) { engine with
        intake := engine.received demand
        judgments := engine.judgments.insert demand.artifactRef judgment }
  | advanced (call : Call) (artifactRef : String) (judgment next : Judgment)
      (hfound : engine.judgments.get? artifactRef = some judgment) (hstep : judgment.Step next) :
      Change engine call { engine with judgments := engine.judgments.insert artifactRef next }
  | heard (artifactRef check : String) (polled : Option String) (judgment next : Judgment)
      (hfound : engine.judgments.get? artifactRef = some judgment) (hheard : judgment.Heard next) :
      Change engine (.lateResult artifactRef check polled)
        { engine with judgments := engine.judgments.insert artifactRef next }
  | faulted (artifactRef : String) (judgment : Judgment) (record : EvidenceRecord)
      (hfound : engine.judgments.get? artifactRef = some judgment) (hcomplete : judgment.Complete)
      (hrecord : attachDerivation quotient policy judgment.record = .ok record) :
      Change engine (.tryCloseAndEmit artifactRef .rejected .taken)
        { engine.telling (faultEnvelope judgment (contentHash digest record)) with
          judgments := engine.judgments.erase artifactRef }
  | faultedRaising (artifactRef : String) (judgment : Judgment) (record : EvidenceRecord)
      (answer : PublishAnswer) (hanswer : answer ≠ .taken) :
      Change engine (.tryCloseAndEmit artifactRef .rejected answer)
        (engine.telling (faultEnvelope judgment (contentHash digest record)))
  | stored (artifactRef : String) (judgment : Judgment) (record : EvidenceRecord)
      (answer : PublishAnswer) (hfound : engine.judgments.get? artifactRef = some judgment)
      (hcomplete : judgment.Complete)
      (hrecord : attachDerivation quotient policy judgment.record = .ok record) :
      Change engine (.tryCloseAndEmit artifactRef .committed answer) (engine.storing digest record)
  | toldRaising (artifactRef : String) (judgment : Judgment) (record : EvidenceRecord)
      (envelope : Envelope) (answer : PublishAnswer) (hanswer : answer ≠ .taken)
      (hfound : engine.judgments.get? artifactRef = some judgment)
      (hcomplete : judgment.Complete)
      (hrecord : attachDerivation quotient policy judgment.record = .ok record)
      (hverdict : VerdictOf digest judgment.artifactRef record envelope) :
      Change engine (.tryCloseAndEmit artifactRef .committed answer)
        ((engine.storing digest record).telling envelope)
  | emitted (artifactRef : String) (judgment : Judgment) (record : EvidenceRecord)
      (envelope : Envelope) (hfound : engine.judgments.get? artifactRef = some judgment)
      (hcomplete : judgment.Complete)
      (hnone : engine.intake.terminalVerdicts.get? judgment.artifactRef = none)
      (hrecord : attachDerivation quotient policy judgment.record = .ok record)
      (hverdict : VerdictOf digest judgment.artifactRef record envelope) :
      Change engine (.tryCloseAndEmit artifactRef .committed .taken)
        { (engine.storing digest record).telling envelope with
          intake := engine.intake.terminal judgment.artifactRef
            ("storage:" ++ storageKey (contentHash digest record))
          judgments := engine.judgments.erase artifactRef }

variable {registry digest quotient policy} {engine : Engine}

theorem change_ingest (version : Int) (specs : OrderedDict String RulesSpec) :
    engine.Change digest quotient policy (.ingest version specs)
      (engine.ingest version specs).2 := by
  unfold ingest
  split
  · exact .unchanged _
  · next rulesStore hingest => exact .ingested version specs rulesStore hingest

theorem change_handleDemand (demand : Demand) :
    engine.Change digest quotient policy (.handleDemand demand) (engine.handleDemand demand).2 := by
  unfold handleDemand
  split
  · exact .unchanged _
  next result intake hreceived =>
  split
  · next hopened =>
    obtain ⟨hconsumed, hseen, hfree, rfl⟩ := Intake.receive_opened hreceived hopened
    split
    · next refusal hrefused => exact .stranded demand refusal ⟨hconsumed, hseen, hfree⟩ hrefused
    · next judgment hjudgment => exact .opened demand judgment ⟨hconsumed, hseen, hfree⟩ hjudgment
  · next hopened =>
    have hother := (Intake.receive_cases hreceived).resolve_right fun hopens ↦ hopened hopens.1
    rcases hother.2 with rfl | rfl
    · exact .unchanged _
    · exact .seen demand

/-- An operation on an open judgment changes nothing, or replaces the judgment by what it made. -/
theorem advance_cases (artifactRef : String) (operation : Judgment → Except Refusal Judgment) :
    (engine.advance artifactRef operation).2 = engine ∨
      ∃ judgment next, engine.judgments.get? artifactRef = some judgment ∧
        operation judgment = .ok next ∧ (engine.advance artifactRef operation).2 =
          { engine with judgments := engine.judgments.insert artifactRef next } := by
  unfold advance
  split
  · exact Or.inl rfl
  next judgment hfound =>
  split
  · exact Or.inl rfl
  · next next hnext => exact Or.inr ⟨judgment, next, hfound, hnext, rfl⟩

theorem change_advance (call : Call) (artifactRef : String)
    {operation : Judgment → Except Refusal Judgment}
    (hoperation : ∀ judgment next, operation judgment = .ok next →
      next = judgment ∨ judgment.Step next) :
    engine.Change digest quotient policy call (engine.advance artifactRef operation).2 := by
  rcases advance_cases artifactRef operation with hsame | ⟨judgment, next, hfound, hnext, hafter⟩
  · rw [hsame]
    exact .unchanged _
  · rw [hafter]
    rcases hoperation judgment next hnext with rfl | hstep
    · rw [OrderedDict.insert_of_get? _ hfound]
      exact .unchanged _
    · exact .advanced call artifactRef judgment next hfound hstep

theorem change_lateResult (artifactRef check : String) (polled : Option String) :
    engine.Change digest quotient policy (.lateResult artifactRef check polled)
      (engine.lateResult artifactRef check polled).2 := by
  rcases advance_cases artifactRef fun judgment ↦ judgment.recordLateResult check polled with
    hsame | ⟨judgment, next, hfound, hnext, hafter⟩
  · rw [lateResult, hsame]
    exact .unchanged _
  · rw [lateResult, hafter]
    rcases Judgment.heard_of_late hnext with rfl | hheard
    · rw [OrderedDict.insert_of_get? _ hfound]
      exact .unchanged _
    · exact .heard artifactRef check polled judgment next hfound hheard

def announced (digest : String → String) (judgment : Judgment) (record : EvidenceRecord)
    (envelope : Envelope) : EmissionResult :=
  ⟨.emitted, judgment.artifactRef, storageKey (contentHash digest record), envelope,
    some ("storage:" ++ storageKey (contentHash digest record)),
    record.derivationAccount.get? "verdict"⟩

/-- What announcing a stored record leaves behind: nothing more, the event alone, or the verdict. -/
theorem announce_cases (judgment : Judgment) (record : EvidenceRecord) (answer : PublishAnswer)
    (hnone : engine.intake.terminalVerdicts.get? judgment.artifactRef = none) :
    (∃ refusal, engine.announce digest judgment record answer = (.error refusal, engine)) ∨
    ∃ envelope, VerdictOf digest judgment.artifactRef record envelope ∧
      ((∃ refusal, answer ≠ .taken ∧ engine.announce digest judgment record answer =
          (.error refusal, engine.telling envelope)) ∨
        answer = .taken ∧ engine.announce digest judgment record answer =
          (.ok (announced digest judgment record envelope), { engine.telling envelope with
              intake := engine.intake.terminal judgment.artifactRef
                ("storage:" ++ storageKey (contentHash digest record)) })) := by
  cases hbuilt : buildVerdictEnvelope (contentHash digest record) record with
  | error refusal => exact Or.inl ⟨refusal, by simp only [announce, hbuilt]⟩
  | ok built =>
    obtain ⟨eventName, eventId, payload⟩ := built
    cases hchecked : buildEnvelope eventName eventId (.str judgment.artifactRef) payload with
    | error refusal => exact Or.inl ⟨refusal, by simp only [announce, hbuilt, hchecked]⟩
    | ok envelope =>
      have hverdict : VerdictOf digest judgment.artifactRef record envelope := by
        refine ⟨eventName, eventId, payload, hbuilt, ?_⟩
        unfold buildEnvelope at hchecked
        split at hchecked
        · exact (Except.ok.inj hchecked).symm
        · cases hchecked
      cases answer with
      | down => exact Or.inl ⟨_, by simp only [announce, hbuilt, hchecked, publish]; rfl⟩
      | takenThenRaised =>
        exact Or.inr ⟨envelope, hverdict,
          Or.inl ⟨.unavailable "communication.unavailable", by simp, by
            simp only [announce, hbuilt, hchecked, publish]
            rfl⟩⟩
      | taken =>
        refine Or.inr ⟨envelope, hverdict, Or.inr ⟨rfl, ?_⟩⟩
        simp only [announce, hbuilt, hchecked, publish, Intake.markTerminal_of_none hnone]
        rfl

def refused (digest : String → String) (judgment : Judgment) (record : EvidenceRecord) :
    EmissionResult :=
  ⟨.rejected, judgment.artifactRef, storageKey (contentHash digest record),
    faultEnvelope judgment (contentHash digest record), none, none⟩

/-- What `emitVerdict` does with a closed judgment whose artifact has no verdict yet. -/
theorem emitVerdict_cases (judgment : Judgment) (write : StorageAnswer) (answer : PublishAnswer)
    (hclosed : judgment.closed = true)
    (hnone : engine.intake.terminalVerdicts.get? judgment.artifactRef = none) :
    (∃ refusal, engine.emitVerdict digest quotient policy judgment write answer =
      (.error refusal, engine)) ∨
    ∃ record, attachDerivation quotient policy judgment.record = .ok record ∧ (write = .rejected ∧
          ((∃ refusal, answer ≠ .taken ∧
              engine.emitVerdict digest quotient policy judgment write answer = (.error refusal,
                engine.telling (faultEnvelope judgment (contentHash digest record)))) ∨
            answer = .taken ∧ engine.emitVerdict digest quotient policy judgment write answer =
              (.ok (refused digest judgment record),
                engine.telling (faultEnvelope judgment (contentHash digest record)))) ∨
        write = .committed ∧ engine.emitVerdict digest quotient policy judgment write answer =
          (engine.storing digest record).announce digest judgment record answer) := by
  have hopen : ¬ judgment.closed = false := by simp [hclosed]
  have hfirst : ¬ (engine.intake.terminalVerdicts.get? judgment.artifactRef).isSome = true := by
    simp [hnone]
  cases hrecord : attachDerivation quotient policy judgment.record with
  | error refusal =>
    exact Or.inl ⟨refusal, by simp only [emitVerdict, if_neg hopen, if_neg hfirst, hrecord]⟩
  | ok record =>
    cases write with
    | other text =>
      exact Or.inl ⟨_, by simp only [emitVerdict, if_neg hopen, if_neg hfirst, hrecord]; rfl⟩
    | committed =>
      refine Or.inr ⟨record, rfl, Or.inr ⟨rfl, ?_⟩⟩
      simp only [emitVerdict, if_neg hopen, if_neg hfirst, hrecord]
      rfl
    | rejected =>
      cases answer with
      | down =>
        refine Or.inl ⟨.unavailable "communication.unavailable", ?_⟩
        simp only [emitVerdict, if_neg hopen, if_neg hfirst, hrecord, publish]
      | takenThenRaised =>
        refine Or.inr ⟨record, rfl, Or.inl ⟨rfl, Or.inl
          ⟨.unavailable "communication.unavailable", by simp, ?_⟩⟩⟩
        simp only [emitVerdict, if_neg hopen, if_neg hfirst, hrecord, publish]
        rfl
      | taken =>
        refine Or.inr ⟨record, rfl, Or.inl ⟨rfl, Or.inr ⟨rfl, ?_⟩⟩⟩
        simp only [emitVerdict, if_neg hopen, if_neg hfirst, hrecord, publish]
        rfl

theorem emitVerdict_of_terminal {judgment : Judgment} {write : StorageAnswer}
    {answer : PublishAnswer} (hclosed : judgment.closed = true)
    (hterminal : engine.intake.terminalVerdicts.get? judgment.artifactRef ≠ none) :
    engine.emitVerdict digest quotient policy judgment write answer =
      (.error (.alreadyEmitted ("emission.already_emitted:" ++ judgment.artifactRef)), engine) := by
  have hopen : ¬ judgment.closed = false := by simp [hclosed]
  unfold emitVerdict
  rw [if_neg hopen, if_pos (Option.isSome_iff_ne_none.mpr hterminal)]

/-- The judgment that `close` seals. -/
def sealed (judgment : Judgment) : Judgment := { judgment with closed := true }

theorem close_of_complete {judgment : Judgment} (hcomplete : judgment.Complete) :
    judgment.close = .ok (sealed judgment) := by
  unfold Judgment.close sealed
  cases hclosed : judgment.closed with
  | true =>
    cases judgment
    cases hclosed
    rfl
  | false => rw [if_neg (by simp), if_pos hcomplete]

/-- `tryCloseAndEmit` on a complete judgment. -/
theorem tryCloseAndEmit_of_complete {artifactRef : String} {judgment : Judgment}
    (hfound : engine.judgments.get? artifactRef = some judgment) (hcomplete : judgment.Complete)
    (write : StorageAnswer) (answer : PublishAnswer) :
    engine.tryCloseAndEmit digest quotient policy artifactRef write answer = retire artifactRef
        (engine.emitVerdict digest quotient policy (sealed judgment) write answer) := by
  simp only [tryCloseAndEmit, hfound, if_pos hcomplete, close_of_complete hcomplete]

/-- Nothing stops the emission for a judgment that can be derived, if its artifact has no
verdict. -/
theorem emittable_sealed {judgment : Judgment} {record : EvidenceRecord}
    (hnone : engine.intake.terminalVerdicts.get? judgment.artifactRef = none)
    (hrecord : attachDerivation quotient policy judgment.record = .ok record) :
    ¬ (sealed judgment).closed = false ∧
      ¬ (engine.intake.terminalVerdicts.get? (sealed judgment).artifactRef).isSome = true ∧
      attachDerivation quotient policy (sealed judgment).record = .ok record :=
  ⟨by simp [sealed], by simp [sealed, hnone], hrecord⟩

theorem change_tryCloseAndEmit (artifactRef : String) (write : StorageAnswer)
    (answer : PublishAnswer) : engine.Change digest quotient policy
      (.tryCloseAndEmit artifactRef write answer)
      (engine.tryCloseAndEmit digest quotient policy artifactRef write answer).2 := by
  cases hfound : engine.judgments.get? artifactRef with
  | none =>
    simp only [tryCloseAndEmit, hfound]
    exact .unchanged _
  | some judgment =>
    by_cases hcomplete : judgment.Complete
    swap
    · simp only [tryCloseAndEmit, hfound, if_neg hcomplete]
      exact .unchanged _
    rw [tryCloseAndEmit_of_complete hfound hcomplete]
    by_cases hnone : engine.intake.terminalVerdicts.get? judgment.artifactRef = none
    swap
    · rw [@emitVerdict_of_terminal _ _ _ _ (sealed judgment) _ _ rfl hnone]
      exact .unchanged _
    rcases @emitVerdict_cases digest quotient policy engine (sealed judgment) write answer rfl hnone
      with ⟨refusal, hemit⟩ | ⟨record, hrecord, hemit⟩
    · rw [hemit]
      exact .unchanged _
    rcases hemit with ⟨rfl, ⟨refusal, hanswer, hemit⟩ | ⟨rfl, hemit⟩⟩ | ⟨rfl, hemit⟩
    · rw [hemit]
      exact .faultedRaising artifactRef (sealed judgment) record answer hanswer
    · rw [hemit]
      exact .faulted artifactRef judgment record hfound hcomplete hrecord
    · rw [hemit]
      have hnone' : (engine.storing digest record).intake.terminalVerdicts.get?
          (sealed judgment).artifactRef = none := hnone
      rcases @announce_cases digest _ (sealed judgment) record answer hnone' with
        ⟨refusal, hannounce⟩ |
          ⟨envelope, hverdict, ⟨refusal, hanswer, hannounce⟩ | ⟨rfl, hannounce⟩⟩
      · rw [hannounce]
        exact .stored artifactRef judgment record answer hfound hcomplete hrecord
      · rw [hannounce]
        exact .toldRaising artifactRef judgment record envelope answer hanswer hfound hcomplete
          hrecord hverdict
      · rw [hannounce]
        exact .emitted artifactRef judgment record envelope hfound hcomplete hnone hrecord hverdict

theorem change_after (call : Call) : engine.Change digest quotient policy call
      (engine.after registry digest quotient policy call) := by
  cases call with
  | ingest version specs => exact change_ingest version specs
  | handleDemand demand => exact change_handleDemand demand
  | dispatch artifactRef check acknowledged =>
    exact change_advance _ artifactRef fun _ _ ↦ Judgment.step_of_dispatch
  | resolve artifactRef check polled now =>
    refine change_advance _ artifactRef fun judgment next hnext ↦ ?_
    split at hnext
    · exact Judgment.step_of_resolve hnext
    · cases hnext
  | lateResult artifactRef check polled => exact change_lateResult artifactRef check polled
  | runStatic artifactRef check metadata =>
    exact change_advance _ artifactRef fun _ _ hnext ↦ Or.inr (Judgment.step_of_static hnext)
  | tryCloseAndEmit artifactRef write answer =>
    exact change_tryCloseAndEmit artifactRef write answer

end Engine

end AbsoluteZero.Verification

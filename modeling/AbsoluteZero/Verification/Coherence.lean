import AbsoluteZero.Verification.Claims
import AbsoluteZero.Verification.RequiredChecks

/-!
# Intake and open judgments

The intake remembers a demand before the judgment is built, a rejected write retires the judgment
but not the intake's entry, and levels are looked at only when the judgment is derived. As long as
no fresh demand is ill formed and no write rejected, the two views agree (`coherent_run`).
-/

namespace AbsoluteZero.Verification

open Foundations OrderedDict

variable {registry : StaticRegistry} {digest : String → String} {quotient : Nat → Nat → Rat}
  {policy : DerivationPolicy} {storage : OrderedDict String String} {engine : Engine}

def Demand.Canonical (demand : Demand) : Prop :=
  ∀ check level, demand.level? check = some level →
    ∃ word : VerificationLevel, level = ClosedVocabulary.text word

namespace Engine

variable {demand : Demand}

theorem handleDemand_of_fresh (hfresh : engine.Fresh demand) :
    engine.handleDemand demand = match judgmentOf engine.rulesStore demand with
      | .error refusal => (.error refusal, { engine with intake := engine.received demand })
      | .ok judgment =>
        (.ok ⟨.opened, demand.artifactRef, some demand.judgmentId, none⟩, { engine with
          intake := engine.received demand
          judgments := engine.judgments.insert demand.artifactRef judgment }) := by
  unfold handleDemand
  rw [Intake.receive_of_free hfresh.1 hfresh.2.1 hfresh.2.2]
  rfl

/-- A demand that is not fresh raises only for its event name, before anything is remembered. -/
theorem handleDemand_of_not_fresh {refusal : Refusal}
    (hfresh : ¬ engine.Fresh demand) (hraised : (engine.handleDemand demand).1 = .error refusal) :
    (engine.handleDemand demand).2 = engine := by
  unfold handleDemand at hraised ⊢
  split at hraised
  · rfl
  next result intake hreceived =>
  split at hraised
  · next hopened =>
    obtain ⟨hconsumed, hseen, hfree, -⟩ := Intake.receive_opened hreceived hopened
    exact absurd ⟨hconsumed, hseen, hfree⟩ hfresh
  · cases hraised

/-- A demand that raises leaves the intake and the open judgments as they were, exactly when it is
well formed in case it is fresh. -/
theorem untouched_iff (hrules : engine.rulesStore.Monotonic) (demand : Demand) :
    (∀ refusal, (engine.handleDemand demand).1 = .error refusal →
      (engine.handleDemand demand).2.intake = engine.intake ∧
        (engine.handleDemand demand).2.judgments = engine.judgments) ↔
      (engine.Fresh demand → demand.WellFormed engine.rulesStore) := by
  by_cases hfresh : engine.Fresh demand
  · rw [handleDemand_of_fresh hfresh, ← exists_judgmentOf_iff hrules]
    cases hjudgment : judgmentOf engine.rulesStore demand with
    | ok judgment =>
      refine ⟨fun _ _ ↦ ⟨judgment, rfl⟩, fun _ refusal hraised ↦ ?_⟩
      cases hraised
    | error refusal =>
      constructor
      · intro huntouched
        have hlength := congrArg (fun intake ↦ intake.seenEventIds.length)
          (huntouched refusal rfl).1
        change engine.intake.seenEventIds.length + 1 = engine.intake.seenEventIds.length at hlength
        omega
      · intro hopens
        obtain ⟨judgment, hother⟩ := hopens hfresh
        cases hother
  · refine ⟨fun _ h ↦ absurd h hfresh, fun _ refusal hraised ↦ ?_⟩
    rw [handleDemand_of_not_fresh hfresh hraised]
    exact ⟨rfl, rfl⟩

theorem exists_attached {judgment : Judgment}
    (haccounted : judgment.Accounted demand) (hcanonical : demand.Canonical) :
    ∃ (record : EvidenceRecord) (account : Account),
      attachDerivation quotient policy judgment.record = .ok record ∧
        record.derivationAccount = account.toJson := by
  have htextual : ∀ item ∈ judgment.record.items, item.Textual := by
    intro item hitem
    obtain ⟨check, source, result, kind, level, -, -, rfl⟩ := haccounted.items item hitem
    exact ⟨"rule." ++ check, rfl⟩
  have hlevelled : ∀ item ∈ judgment.record.items, item.Levelled := by
    intro item hitem
    obtain ⟨check, source, result, kind, level, hlevel, -, rfl⟩ := haccounted.items item hitem
    rw [haccounted.levels] at hlevel
    obtain ⟨word, rfl⟩ := hcanonical check level hlevel
    exact ⟨word, rfl⟩
  obtain ⟨account, haccount⟩ := (exists_derive_iff quotient policy htextual).mpr hlevelled
  exact ⟨_, account, attachDerivation_eq_ok_iff.mpr
    ⟨account, haccount, haccounted.account, rfl⟩, rfl⟩

theorem announce_of_account {judgment : Judgment} {record : EvidenceRecord} {account : Account}
    (hrecord : record.derivationAccount = account.toJson)
    (hnone : engine.intake.terminalVerdicts.get? judgment.artifactRef = none) :
    ∃ result told, engine.announce digest judgment record .taken = (.ok result, told) := by
  have hname : verdictName account.verdict ∈ published := by
    cases account.verdict <;> decide
  simp only [announce, buildVerdictEnvelope_of_account _ _ _ hrecord, buildEnvelope, if_pos hname,
    publish, Intake.markTerminal_of_none hnone]
  exact ⟨_, _, rfl⟩

/-- A complete judgment that can be derived, for an artifact without a verdict, is answered by a
storage and a bus that answer. -/
theorem returns_of_complete {artifactRef : String} {judgment : Judgment} {record : EvidenceRecord}
    {account : Account} (hfound : engine.judgments.get? artifactRef = some judgment)
    (hcomplete : judgment.Complete)
    (hnone : engine.intake.terminalVerdicts.get? judgment.artifactRef = none)
    (hrecord : attachDerivation quotient policy judgment.record = .ok record)
    (haccount : record.derivationAccount = account.toJson) {write : StorageAnswer}
    (hwrite : write = .committed ∨ write = .rejected) :
    ∃ result, (engine.tryCloseAndEmit digest quotient policy artifactRef write .taken).1 =
      .ok (some result) := by
  rw [tryCloseAndEmit_of_complete hfound hcomplete]
  obtain ⟨hopen, hfirst, hsealed⟩ := emittable_sealed hnone hrecord
  rcases hwrite with rfl | rfl
  · have hnone' : (engine.storing digest record).intake.terminalVerdicts.get?
        (sealed judgment).artifactRef = none := hnone
    obtain ⟨result, told, hannounce⟩ := @announce_of_account digest _ (sealed judgment) record
      account haccount hnone'
    refine ⟨result, ?_⟩
    simp only [emitVerdict, if_neg hopen, if_neg hfirst, hsealed]
    change (retire artifactRef ((engine.storing digest record).announce digest (sealed judgment)
      record .taken)).1 = _
    rw [hannounce]
    rfl
  · simp only [emitVerdict, if_neg hopen, if_neg hfirst, hsealed, publish]
    exact ⟨_, rfl⟩

/-- The condition on a call: a fresh demand is well formed and its levels are of the closed five; no
write for a complete judgment is rejected with the fault published. -/
def Admissible (engine : Engine) : Call → Prop
  | .handleDemand demand =>
    engine.Fresh demand → demand.WellFormed engine.rulesStore ∧ demand.Canonical
  | .tryCloseAndEmit artifactRef write answer =>
    ∀ judgment, engine.judgments.get? artifactRef = some judgment → judgment.Complete →
      ¬ (write = .rejected ∧ answer = .taken)
  | _ => True

/-- Intake and open judgments agree, and every open judgment can be derived once it is complete. -/
structure Coherent (engine : Engine) : Prop where
  monotonic : engine.rulesStore.Monotonic
  views : ∀ artifactRef, (∃ judgmentId, engine.intake.openJudgments.get? artifactRef =
    some judgmentId) ↔ ∃ judgment, engine.judgments.get? artifactRef = some judgment
  accounted : ∀ artifactRef judgment, engine.judgments.get? artifactRef = some judgment →
    engine.intake.terminalVerdicts.get? artifactRef = none ∧
      ∃ demand, demand.artifactRef = artifactRef ∧ judgment.Accounted demand ∧ demand.Canonical

theorem Coherent.replace (hcoherent : engine.Coherent) {artifactRef : String}
    {judgment next : Judgment} (hfound : engine.judgments.get? artifactRef = some judgment)
    (hkept : ∀ demand, judgment.Accounted demand → next.Accounted demand) :
    Coherent { engine with judgments := engine.judgments.insert artifactRef next } := by
  refine ⟨hcoherent.monotonic, fun other ↦ ?_, fun other held hheld ↦ ?_⟩
  · rw [hcoherent.views other, get?_insert]
    by_cases hother : artifactRef = other
    · subst hother
      simp [hfound]
    · rw [if_neg hother]
  · rw [get?_insert] at hheld
    split at hheld
    · next hother =>
      cases hheld
      subst hother
      obtain ⟨hnone, demand, hartifact, haccounted, hcanonical⟩ :=
        hcoherent.accounted artifactRef judgment hfound
      exact ⟨hnone, demand, hartifact, hkept demand haccounted, hcanonical⟩
    · exact hcoherent.accounted other held hheld

theorem Coherent.change (hcoherent : engine.Coherent) {call : Call} {next : Engine}
    (hadmissible : engine.Admissible call) (hchange : engine.Change digest quotient
      policy call next) :
    next.Coherent := by
  cases hchange with
  | unchanged => exact hcoherent
  | ingested version specs rulesStore hingest =>
    exact ⟨hcoherent.monotonic.ingest hingest, hcoherent.views, hcoherent.accounted⟩
  | seen demand => exact { hcoherent with }
  | stranded demand refusal hfresh hrefused =>
    obtain ⟨judgment, hjudgment⟩ :=
      (exists_judgmentOf_iff hcoherent.monotonic).mpr (hadmissible hfresh).1
    rw [hrefused] at hjudgment
    cases hjudgment
  | opened demand judgment hfresh hopened =>
    obtain ⟨-, rules, -, hby⟩ := judgmentOf_eq_ok hopened
    refine ⟨hcoherent.monotonic, fun other ↦ ?_, fun other held hheld ↦ ?_⟩
    · change (∃ judgmentId, (engine.intake.openJudgments.insert _ _).get? other =
        some judgmentId) ↔ _
      rw [get?_insert, get?_insert]
      by_cases hother : demand.artifactRef = other
      · simp [hother]
      · rw [if_neg hother, if_neg hother]
        exact hcoherent.views other
    · rw [get?_insert] at hheld
      split at hheld
      · next hother =>
        cases hheld
        subst hother
        exact ⟨hfresh.2.2.1, demand, rfl, hby.accounted, (hadmissible hfresh).2⟩
      · exact hcoherent.accounted other held hheld
  | advanced _ artifactRef judgment next hfound hstep =>
    exact hcoherent.replace hfound fun demand haccounted ↦ haccounted.step hstep
  | heard artifactRef check polled judgment next hfound hheard =>
    exact hcoherent.replace hfound fun demand haccounted ↦ haccounted.heard hheard
  | faulted artifactRef judgment record hfound hcomplete hrecord =>
    exact absurd ⟨rfl, rfl⟩ (hadmissible judgment hfound hcomplete)
  | faultedRaising | stored
  | toldRaising => exact { hcoherent with }
  | emitted artifactRef judgment record envelope hfound hcomplete hnone hrecord hverdict =>
    obtain ⟨-, demand, hartifact, haccounted, -⟩ := hcoherent.accounted artifactRef judgment hfound
    have hsame : judgment.artifactRef = artifactRef := haccounted.artifactRef.trans hartifact
    refine ⟨hcoherent.monotonic, fun other ↦ ?_, fun other held hheld ↦ ?_⟩
    · change (∃ judgmentId, (engine.intake.openJudgments.erase judgment.artifactRef).get? other =
        some judgmentId) ↔ _
      rw [hsame, get?_erase, get?_erase]
      by_cases hother : artifactRef = other
      · simp [hother]
      · rw [if_neg hother, if_neg hother]
        exact hcoherent.views other
    · obtain ⟨hne, hheld'⟩ := get?_of_erase hheld
      obtain ⟨hterminal, rest⟩ := hcoherent.accounted other held hheld'
      refine ⟨?_, rest⟩
      change (engine.intake.terminalVerdicts.insert judgment.artifactRef _).get? other = none
      rw [hsame, get?_insert, if_neg hne]
      exact hterminal

end Engine

/-! ### The law -/

def AdmissibleRun (registry : StaticRegistry) (digest : String → String)
    (quotient : Nat → Nat → Rat) (policy : DerivationPolicy) (storage : OrderedDict String String)
    (calls : List Call) : Prop :=
  ∀ before call after, calls = before ++ call :: after →
    ((Engine.new storage).run registry digest quotient policy before).Admissible call

theorem coherent_of_admissible {calls : List Call}
    (hadmissible : AdmissibleRun registry digest quotient policy storage calls) :
    ((Engine.new storage).run registry digest quotient policy calls).Coherent := by
  revert hadmissible
  refine run_invariant (fun calls engine ↦
    AdmissibleRun registry digest quotient policy storage calls → engine.Coherent) ?_ ?_ calls
  · refine fun _ ↦ ⟨RulesStore.monotonic_new, fun artifactRef ↦ ?_,
      fun artifactRef judgment hfound ↦ ?_⟩
    · constructor
      · rintro ⟨judgmentId, hopen⟩
        cases hopen
      · rintro ⟨judgment, hfound⟩
        cases hfound
    · cases hfound
  · intro calls call next ih hchange hadmissible
    have hbefore : AdmissibleRun registry digest quotient policy storage calls := by
      rintro before other after rfl
      exact hadmissible before other (after ++ [call]) (by simp)
    exact (ih hbefore).change (hadmissible calls call [] rfl) hchange

/-- Assumes: in the run no fresh demand was ill formed or gave a level outside the closed five, and
no write for a complete judgment was rejected. Then a demand that raises leaves intake and open
judgments as they were exactly when it is well formed in case it is fresh; an artifact is open in
the intake exactly when an open judgment exists for it; and a complete judgment gets its result from
a storage that answers and a bus that takes the event. -/
theorem coherent_run (calls : List Call)
    (hadmissible : AdmissibleRun registry digest quotient policy storage calls) :
    let engine := (Engine.new storage).run registry digest quotient policy calls
    (∀ demand, (∀ refusal, (engine.handleDemand demand).1 = .error refusal →
        (engine.handleDemand demand).2.intake = engine.intake ∧
          (engine.handleDemand demand).2.judgments = engine.judgments) ↔
      (engine.Fresh demand → demand.WellFormed engine.rulesStore)) ∧
    (∀ artifactRef, (∃ judgmentId, engine.intake.openJudgments.get? artifactRef = some judgmentId) ↔
      ∃ judgment, engine.judgments.get? artifactRef = some judgment) ∧
    ∀ artifactRef judgment write, engine.judgments.get? artifactRef = some judgment →
      judgment.Complete → write = .committed ∨ write = .rejected →
      ∃ result, (engine.tryCloseAndEmit digest quotient policy artifactRef write .taken).1 =
        .ok (some result) := by
  intro engine
  have hcoherent : engine.Coherent := coherent_of_admissible hadmissible
  refine ⟨engine.untouched_iff hcoherent.monotonic, hcoherent.views, ?_⟩
  intro artifactRef judgment write hfound hcomplete hwrite
  obtain ⟨hnone, demand, hartifact, haccounted, hcanonical⟩ :=
    hcoherent.accounted artifactRef judgment hfound
  obtain ⟨record, account, hrecord, haccount⟩ := Engine.exists_attached haccounted hcanonical
  rw [← hartifact, ← haccounted.artifactRef] at hnone
  exact Engine.returns_of_complete hfound hcomplete hnone hrecord haccount hwrite

/-- The rules are taken and a well-formed demand opens its judgment. -/
def openingCalls : List Call := [.ingest 1 pluginSpecs, .handleDemand partialDemand]

theorem coherent_run_opening :
    (∃ judgmentId, (plainRun openingCalls).intake.openJudgments.get? "artifact:a1" =
      some judgmentId) ↔
      ∃ judgment, (plainRun openingCalls).judgments.get? "artifact:a1" = some judgment := by
  refine (@coherent_run builtInChecks plainDigest plainQuotient plainPolicy .empty openingCalls
    ?_).2.1 "artifact:a1"
  intro before call after hsplit
  rcases before with _ | ⟨first, _ | ⟨second, rest⟩⟩
  · cases hsplit
    trivial
  · cases hsplit
    intro hfresh
    have hmonotonic := (@sound_run builtInChecks plainDigest plainQuotient plainPolicy .empty
      [.ingest 1 pluginSpecs]).monotonic
    have hopens : (judgmentOf (plainRun [.ingest 1 pluginSpecs]).rulesStore
        partialDemand).toOption.map Judgment.judgmentId = some "judgment:a1" := by decide +kernel
    obtain ⟨judgment, hjudgment, -⟩ := Checked.exists_of_toOption_map hopens
    refine ⟨(exists_judgmentOf_iff hmonotonic).mp ⟨judgment, hjudgment⟩,
      fun check level hlevel ↦ ?_⟩
    refine ⟨.system, ?_⟩
    change (OrderedDict.find check [("reference_wellformed", "system")]).or none =
      some level at hlevel
    rw [find_cons] at hlevel
    split at hlevel
    · cases hlevel
      rfl
    · cases hlevel
  · have hlength := congrArg List.length hsplit
    simp [openingCalls] at hlength

/-- A demand for rules that are not there raises, and stays in the intake without a judgment. -/
theorem not_untouched : ¬ ∀ (calls : List Call) (demand : Demand) (refusal : Refusal),
      ((plainRun calls).handleDemand demand).1 = .error refusal →
        ((plainRun calls).handleDemand demand).2.intake = (plainRun calls).intake ∧
          ((plainRun calls).handleDemand demand).2.judgments = (plainRun calls).judgments := by
  intro hlaw
  have hraised : ((plainRun []).handleDemand partialDemand).1 =
      .error (.unknownVersion "rules.unknown_version:1") := by rfl
  have hsame := congrArg Intake.seenEventIds (hlaw [] partialDemand _ hraised).1
  exact absurd hsame (by decide)

end AbsoluteZero.Verification

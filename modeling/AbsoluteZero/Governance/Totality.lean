import AbsoluteZero.Governance.Evaluation

/-!
# Totality

The compiler demands a rule of the system scope with the selector `*` for every declared operation,
and does not look at its condition. A well-formed question is therefore answered exactly if some
rule about it is not ruled out by its condition (`answered_iff`).
-/

namespace AbsoluteZero.Governance

open Foundations

/-- The rule is about the question, and its condition is absent or not false on the facts. -/
def ScopedRule.Remains (entry : ScopedRule) (question : Question) : Prop :=
  entry.targets question.domain question.operation question.resource = true ∧
    guardSatisfied (factDict question.facts) entry.rule.condition ≠ .ok false

instance (entry : ScopedRule) (question : Question) : Decidable (entry.Remains question) :=
  inferInstanceAs (Decidable (_ ∧ _))

section Retrieval

variable {assembled : List Assembled} {snapshot : CompiledSnapshot} {question : Question}

theorem matchAndWin_of_none_remains (hcompiled : CompiledFrom assembled snapshot)
    (hnone : ∀ entry ∈ scopedRules assembled, ¬ entry.Remains question) :
    ∃ text, matchAndWin snapshot question.domain question.operation question.resource
      (factDict question.facts) = .error (.totalityHole text) := by
  have hfalse : ∀ entry ∈ scopedRules assembled,
      entry.targets question.domain question.operation question.resource = true →
        guardSatisfied (factDict question.facts) entry.rule.condition = .ok false :=
    fun entry hentry htargets ↦ by_contra fun hnot ↦ hnone entry hentry ⟨htargets, hnot⟩
  have hdetermined : Determined assembled question.domain question.operation question.resource
      (factDict question.facts) := fun entry hentry htargets ↦ ⟨false, hfalse entry hentry htargets⟩
  have hmatched : matchedEntries assembled question.domain question.operation question.resource
      (factDict question.facts) = [] := by
    refine List.eq_nil_iff_forall_not_mem.mpr fun entry hentry ↦ ?_
    obtain ⟨rule, hrule, rfl⟩ := mem_matchedEntries.mp hentry
    obtain ⟨hmem, htargets, hsatisfied⟩ := mem_matchingRules.mp hrule
    cases hsatisfied.symm.trans (hfalse rule hmem htargets)
  rw [matchAndWin, hcompiled.entries, satisfiedEntries_snapshotEntries hdetermined, hmatched]
  exact ⟨_, rfl⟩

/-- If a rule remains, the retrieval has a winner, or ends at a condition that cannot be
evaluated. -/
theorem matchAndWin_of_remains (hcompiled : CompiledFrom assembled snapshot) {entry : ScopedRule}
    (hentry : entry ∈ scopedRules assembled) (hremains : entry.Remains question) :
    (∃ won, matchAndWin snapshot question.domain question.operation question.resource
      (factDict question.facts) = .ok won) ∨
    ∃ interruption, matchAndWin snapshot question.domain question.operation question.resource
      (factDict question.facts) = .error interruption ∧ interruption.snapshotIntegrity = false := by
  by_cases hdetermined : Determined assembled question.domain question.operation question.resource
      (factDict question.facts)
  · obtain ⟨satisfied, hsatisfied⟩ := hdetermined entry hentry hremains.1
    have htrue : satisfied = true := by
      by_contra hne
      exact hremains.2 (by rw [hsatisfied, Bool.eq_false_iff.mpr hne])
    have hmatching := List.ne_nil_of_mem (mem_matchingRules.mpr
      ⟨hentry, hremains.1, htrue ▸ hsatisfied⟩)
    obtain ⟨winner, fallback, -, hwon⟩ := matchAndWin_eq_ok hcompiled.entries hcompiled.conflicts
      hcompiled.distinct hdetermined hmatching
    exact .inl ⟨_, hwon⟩
  · exact .inr (matchAndWin_of_undetermined hcompiled hdetermined)

end Retrieval

/-- Assumes: the snapshot is compiled and the question is well formed. The evaluation returns
exactly if some rule about the question is not ruled out by its condition. -/
theorem answered_iff (digest : Json → String) {store : PolicyStore} {position rulesetVersion : Nat}
    {result : CompileResult} {snapshot : CompiledSnapshot}
    (hresult : compileSnapshot digest store position rulesetVersion = .ok result)
    (hsnapshot : result.snapshot = some snapshot) {question : Question} {stamps : Stamps}
    (hinputs : checkInputs stamps = none)
    (hdefect : questionDefect snapshot question stamps = none) (slice : List GrantRecord) :
    (∃ outcome, (evaluate digest snapshot slice question stamps none).1 = .ok outcome) ↔
      ∃ entry ∈ scopedRules (assemble store position), entry.Remains question := by
  have hcompiled := compiledFrom_assemble hresult hsnapshot
  rw [evaluate_of_wellFormed digest slice hinputs hdefect, exists_outcome_iff]
  constructor
  · rintro ⟨-, hanswered⟩
    by_contra hnone
    obtain ⟨text, hhole⟩ := matchAndWin_of_none_remains hcompiled
      fun entry hentry hremains ↦ hnone ⟨entry, hentry, hremains⟩
    refine hanswered (.totalityHole text) ?_ rfl
    rw [decideQuestion, hhole]
    rfl
  · rintro ⟨entry, hentry, hremains⟩
    refine ⟨never_missing_decideQuestion digest slice hcompiled hdefect, ?_⟩
    rcases matchAndWin_of_remains hcompiled hentry hremains with
      ⟨won, hwon⟩ | ⟨interruption, hstopped, hintegrity⟩
    · exact never_integrity_of_won digest slice hwon
    · rw [decideQuestion, hstopped]
      exact .error (by simp [hintegrity])

/-! ### A conditional default -/

/-- Running is allowed on every resource below a budget. -/
def budgetedRun : Rule where
  ruleId := "r1"
  target := ⟨"execution", "run", "*"⟩
  effect := .allow
  condition := some (.comparison "usage.tokens" .lt (.ofInt 1000))
  final := false

/-- The vocabulary that declares running and its budget. -/
def runVocabulary : Vocabulary where
  version := 2
  domains := defaultVocabulary.domains
  operations := .ofList ["execution.run"]
  factNames := .ofList ["usage.tokens"]

/-- A desk whose only rule for running is conditional. -/
def budgetedDesk : StoreDesk :=
  (StoreDesk.fresh ⟨.empty, []⟩).run [.vocabulary defaultVocabulary, .vocabulary runVocabulary,
    .document (sampleDocument "baseline" budgetedRun) true]

def budgetedResult : CompileResult :=
  compileAssembled Json.repr (assemble budgetedDesk.store 3) 3 runVocabulary 1

/-- A question about running with some usage. -/
def usageQuestion (tokens : Int) : Question :=
  runQuestion "db" [("usage.tokens", .ofInt tokens)]

/-- Below the budget the question is answered. -/
theorem answered_sample : ∃ snapshot, budgetedResult.snapshot = some snapshot ∧ ∃ outcome,
      (evaluate Json.repr snapshot [] (usageQuestion 500) ⟨1, 0, 1⟩ none).1 = .ok outcome := by
  have hresult : compileSnapshot Json.repr budgetedDesk.store 3 1 = .ok budgetedResult := rfl
  have hdefects : budgetedResult.snapshot.map (fun snapshot ↦
    questionDefect snapshot (usageQuestion 500) ⟨1, 0, 1⟩) = some none := by decide +kernel
  obtain ⟨snapshot, hsnapshot, hdefect⟩ := Option.map_eq_some_iff.mp hdefects
  exact ⟨snapshot, hsnapshot, (answered_iff Json.repr hresult hsnapshot rfl hdefect []).mpr
    (by decide +kernel)⟩

/-- The constitution compiles without an error, and a well-formed question beyond the budget raises
for want of an answer. -/
theorem conditional_default_unanswered :
    compileSnapshot Json.repr budgetedDesk.store 3 1 = .ok budgetedResult ∧
      budgetedResult.report.errors = [] ∧ budgetedResult.snapshot.map (fun snapshot ↦
        (questionDefect snapshot (usageQuestion 2000) ⟨1, 0, 1⟩,
          refusalKind (evaluate Json.repr snapshot [] (usageQuestion 2000) ⟨1, 0, 1⟩ none).1)) =
        some (none, some .snapshotIntegrity) :=
  ⟨rfl, by decide +kernel, by decide +kernel⟩

end AbsoluteZero.Governance

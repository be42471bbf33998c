import AbsoluteZero.Governance.Evaluation

/-!
# The three-rule reference

The direct definition of the answer on the raw rules: among the rules that match, those of the
highest scope; among permissions, a denial before an approval requirement before an allowance; among
limits, the smallest. The compiled snapshot retrieves a winner with that effect
(`retrieved_effect_eq_reference`).
-/

namespace AbsoluteZero.Governance

open Foundations List

/-! ### The reference -/

/-- The rules of the highest scope among some. -/
def topRules (rules : List ScopedRule) : List ScopedRule :=
  rules.filter fun rule ↦ rules.all fun other ↦ other.scope.rank ≤ rule.scope.rank

def limitBelow (first second : Effect) : Bool :=
  match first.value.numeric?, second.value.numeric? with
  | some number, some number' => number < number'
  | _, _ => false

def anyKind (kind : EffectKind) (rules : List ScopedRule) : Bool :=
  rules.any fun rule ↦ rule.rule.effect.kind = kind

def isSmallest (rules : List ScopedRule) (rule : ScopedRule) : Bool :=
  rules.all fun other ↦ !limitBelow other.rule.effect rule.rule.effect

/-- The effect of the rules that match: scope precedence, then deny-overrides, then the minimum
limit. -/
def referenceEffect (rules : List ScopedRule) : Option Effect :=
  let top := topRules rules
  if anyKind .deny top then some .deny
  else if anyKind .requireApproval top then some .requireApproval
  else if anyKind .allow top then some .allow
  else (top.find? (isSmallest top)).map fun rule ↦ rule.rule.effect

variable {rules : List ScopedRule}

theorem anyKind_eq_true {kind : EffectKind} :
    anyKind kind rules = true ↔ ∃ rule ∈ rules, rule.rule.effect.kind = kind := by
  rw [anyKind, any_eq_true]
  simp only [decide_eq_true_eq]

theorem mem_topRules {rule : ScopedRule} : rule ∈ topRules rules ↔
      rule ∈ rules ∧ ∀ other ∈ rules, other.scope.rank ≤ rule.scope.rank := by
  rw [topRules, mem_filter, all_eq_true]
  simp only [decide_eq_true_eq]

theorem rank_eq_of_mem_topRules {first second : ScopedRule}
    (hfirst : first ∈ topRules rules) (hsecond : second ∈ topRules rules) :
    first.scope.rank = second.scope.rank :=
  le_antisymm ((mem_topRules.mp hsecond).2 first (mem_topRules.mp hfirst).1)
    ((mem_topRules.mp hfirst).2 second (mem_topRules.mp hsecond).1)

namespace Strongest

variable {rules : List ScopedRule} {winner other : ScopedRule}

section

variable (hwinner : Strongest rules winner)

include hwinner

theorem mem_topRules : winner ∈ topRules rules :=
  Governance.mem_topRules.mpr ⟨hwinner.1, fun other hother ↦ not_lt.mp fun hlt ↦
    absurd (strength_lt_of_rank hlt) (not_lt.mpr (hwinner.2 other hother))⟩

theorem priority_le (hother : other ∈ topRules rules) :
    other.rule.effect.kind.priority ≤ winner.rule.effect.kind.priority := by
  refine not_lt.mp fun hlt ↦ ?_
  have hrank := rank_eq_of_mem_topRules hwinner.mem_topRules hother
  exact absurd (strength_lt_of_priority hrank hlt)
    (not_lt.mpr (hwinner.2 other (Governance.mem_topRules.mp hother).1))

/-- No limit of the highest scope is below a limit that is the strongest. -/
theorem not_limitBelow (hother : other ∈ topRules rules)
    (hkind : winner.rule.effect.kind = other.rule.effect.kind) :
    limitBelow other.rule.effect winner.rule.effect = false := by
  rw [← Bool.not_eq_true]
  intro hbelow
  unfold limitBelow at hbelow
  split at hbelow
  · next number number' hnumber hnumber' =>
    have hrank := rank_eq_of_mem_topRules hwinner.mem_topRules hother
    exact absurd (strength_lt_of_limit hrank (by rw [hkind]) hnumber hnumber'
      (of_decide_eq_true hbelow)) (not_lt.mpr (hwinner.2 other
        (Governance.mem_topRules.mp hother).1))
  · cases hbelow

theorem anyKind_self :
    anyKind winner.rule.effect.kind (topRules rules) = true :=
  anyKind_eq_true.mpr ⟨winner, hwinner.mem_topRules, rfl⟩

/-- No rule of the highest scope has an effect of a kind before that of the strongest. -/
theorem anyKind_eq_false (kind : EffectKind)
    (hlt : winner.rule.effect.kind.priority < kind.priority) :
    anyKind kind (topRules rules) = false := by
  rw [← Bool.not_eq_true, anyKind_eq_true]
  rintro ⟨rule, hrule, rfl⟩
  exact absurd hlt (not_lt.mpr (hwinner.priority_le hrule))

end

end Strongest

/-- The two effects are one, or equal by value. -/
def Effect.Agrees (first second : Effect) : Prop := first = second ∨ first.pyEq second = true

theorem Effect.Agrees.of_kind {first second : Effect} (hkind : first.kind = second.kind)
    (hpermission : first.kind ≠ .limit) : first.Agrees second :=
  .inl (eq_of_kind hkind hpermission)

section Matching

variable {assembled : List Assembled} {domain operation resource : String} {facts : FactMap}
  {winner : ScopedRule}

theorem smallest_agrees (hconflicts : conflictErrors assembled = []) {top : List ScopedRule}
    (htop : top = topRules (matchingRules assembled domain operation resource facts))
    (hwinner : Strongest (matchingRules assembled domain operation resource facts) winner)
    (hlimit : winner.rule.effect.kind = .limit) :
    ∃ smallest, top.find? (isSmallest top) = some smallest ∧
      winner.rule.effect.Agrees smallest.rule.effect := by
  subst htop
  have hshape : ∀ rule ∈ topRules (matchingRules assembled domain operation resource facts),
      rule ≠ winner → winner.rule.effect.kind = rule.rule.effect.kind ∧
        winner.rule.effect.value.numeric?.isSome ∧ rule.rule.effect.value.numeric?.isSome := by
    intro rule hrule hne
    have hrank := rank_eq_of_mem_topRules hwinner.mem_topRules hrule
    rcases shape_of_matching hconflicts hwinner.1 (mem_topRules.mp hrule).1 (Ne.symm hne) hrank with
      ⟨-, hlimit', hnumbers⟩ | ⟨hpermission, -⟩
    · exact ⟨hlimit.trans hlimit'.symm, hnumbers⟩
    · exact absurd hlimit hpermission
  have hwinner' : isSmallest (topRules (matchingRules assembled domain operation resource facts))
      winner = true := by
    refine all_eq_true.mpr fun other hother ↦ ?_
    by_cases heq : other = winner
    · rw [heq, hwinner.not_limitBelow hwinner.mem_topRules rfl]
      rfl
    · rw [hwinner.not_limitBelow hother (hshape other hother heq).1]
      rfl
  obtain ⟨smallest, hsmallest⟩ := Option.isSome_iff_exists.mp
    (find?_isSome.mpr ⟨winner, hwinner.mem_topRules, hwinner'⟩)
  refine ⟨smallest, hsmallest, ?_⟩
  by_cases heq : smallest = winner
  · exact .inl (by rw [heq])
  · have hmem := mem_of_find?_eq_some hsmallest
    obtain ⟨hkind, hsome, hsome'⟩ := hshape smallest hmem heq
    obtain ⟨number, hnumber⟩ := Option.isSome_iff_exists.mp hsome
    obtain ⟨number', hnumber'⟩ := Option.isSome_iff_exists.mp hsome'
    have hleast := find?_some hsmallest
    have hbelow := all_eq_true.mp hleast winner hwinner.mem_topRules
    have hbelow' := all_eq_true.mp hwinner' smallest hmem
    simp only [limitBelow, hnumber, hnumber', Bool.not_eq_true', decide_eq_false_iff_not,
      not_lt] at hbelow hbelow'
    exact .inr (Effect.pyEq_iff.mpr ⟨hkind, (Json.pyEq_iff_of_numeric? hnumber hnumber').mpr
      (le_antisymm hbelow' hbelow)⟩)

theorem referenceEffect_of_strongest (hconflicts : conflictErrors assembled = [])
    (hwinner : Strongest (matchingRules assembled domain operation resource facts) winner) :
    ∃ reference,
      referenceEffect (matchingRules assembled domain operation resource facts) = some reference ∧
        winner.rule.effect.Agrees reference := by
  have hself := hwinner.anyKind_self
  unfold referenceEffect
  cases hkind : winner.rule.effect.kind with
  | deny =>
    rw [hkind] at hself
    exact ⟨.deny, by rw [if_pos hself], .of_kind hkind (by simp [hkind])⟩
  | requireApproval =>
    have hdeny := hwinner.anyKind_eq_false .deny (by simp [hkind, EffectKind.priority])
    rw [hkind] at hself
    refine ⟨.requireApproval, ?_, .of_kind hkind (by simp [hkind])⟩
    simp [hdeny, hself]
  | allow =>
    have hdeny := hwinner.anyKind_eq_false .deny (by simp [hkind, EffectKind.priority])
    have happroval := hwinner.anyKind_eq_false .requireApproval
      (by simp [hkind, EffectKind.priority])
    rw [hkind] at hself
    refine ⟨.allow, ?_, .of_kind hkind (by simp [hkind])⟩
    simp [hdeny, happroval, hself]
  | limit =>
    have hdeny := hwinner.anyKind_eq_false .deny (by simp [hkind, EffectKind.priority])
    have happroval := hwinner.anyKind_eq_false .requireApproval
      (by simp [hkind, EffectKind.priority])
    have hallow := hwinner.anyKind_eq_false .allow (by simp [hkind, EffectKind.priority])
    obtain ⟨smallest, hsmallest, hagrees⟩ := smallest_agrees hconflicts rfl hwinner hkind
    refine ⟨smallest.rule.effect, ?_, hagrees⟩
    simp only [hdeny, happroval, hallow, Bool.false_eq_true, if_false, hsmallest]
    rfl

end Matching

section

variable (digest : Json → String)

variable {snapshot : CompiledSnapshot}

/-- No evaluation ends for want of an answer once the retrieval has a winner. -/
theorem refusalKind_evaluate_of_won {question : Question} {won : IndexEntry × List Citation × Bool}
    (hwon : matchAndWin snapshot question.domain question.operation question.resource
      (factDict question.facts) = .ok won) (slice : List GrantRecord) (stamps : Stamps) :
    refusalKind (evaluate digest snapshot slice question stamps none).1 ≠
      some .snapshotIntegrity := by
  cases hinputs : checkInputs stamps with
  | some refusal =>
    simp only [evaluate, hinputs]
    unfold checkInputs at hinputs
    split at hinputs
    · cases hinputs
      intro heq
      cases heq
    · split at hinputs
      · cases hinputs
        intro heq
        cases heq
      · cases hinputs
  | none =>
    cases hdefect : questionDefect snapshot question stamps with
    | some verdict =>
      simp only [evaluate, hinputs, hdefect]
      intro heq
      cases heq
    | none =>
      rw [evaluate_of_wellFormed digest slice hinputs hdefect, ne_eq, refusalKind_conclude]
      rintro ⟨interruption, hresult, hintegrity⟩
      exact never_integrity_of_won digest slice hwon interruption hresult hintegrity

/-- The decision on a question whose retrieval has a winner names the winner first, and without
grants it has the winner's effect. -/
theorem decision_of_won
    {question : Question} {winner : IndexEntry} {matched : List Citation} {fallback : Bool}
    (hwon : matchAndWin snapshot question.domain question.operation question.resource
      (factDict question.facts) = .ok (winner, matched, fallback)) {slice : List GrantRecord}
    {stamps : Stamps} {decision : Decision}
    (hdecision : (evaluate digest snapshot slice question stamps none).1 =
      .ok (.decision decision)) : decision.explanation.head? =
        some (.index matched winner.citation winner.decidedBy winner.final fallback) ∧
      decision.effect = decidedEffect winner (grantOverlay digest slice question winner) := by
  cases hinputs : checkInputs stamps with
  | some refusal => simp [evaluate, hinputs] at hdecision
  | none =>
    cases hdefect : questionDefect snapshot question stamps with
    | some verdict => simp [evaluate, hinputs, hdefect] at hdecision
    | none =>
      rw [evaluate_of_wellFormed digest slice hinputs hdefect,
        decideQuestion_of_won digest slice hwon] at hdecision
      cases hconstraints : attachConstraints snapshot question
          (decidedEffect winner (grantOverlay digest slice question winner)) with
      | error interruption =>
        rw [hconstraints] at hdecision
        cases interruption <;> cases hdecision
      | ok constraints =>
        rw [hconstraints] at hdecision
        cases hdecision
        exact ⟨rfl, rfl⟩

/-- Assumes: the snapshot is compiled, some rule matches the question, and no condition of a rule
that is about it fails to compare. Then the winner that is retrieved has the effect of the direct
definition on the raw rules, no evaluation ends for want of an answer, and every decision names this
winner; without grants it has its effect. -/
theorem retrieved_effect_eq_reference {store : PolicyStore}
    {position rulesetVersion : Nat} {result : CompileResult}
    (hresult : compileSnapshot digest store position rulesetVersion = .ok result)
    (hsnapshot : result.snapshot = some snapshot) (question : Question)
    (hdetermined : Determined (assemble store position) question.domain question.operation
      question.resource (factDict question.facts))
    (hmatching : matchingRules (assemble store position) question.domain question.operation
      question.resource (factDict question.facts) ≠ []) : ∃ winner matched fallback reference,
      matchAndWin snapshot question.domain question.operation question.resource
          (factDict question.facts) = .ok (winner, matched, fallback) ∧
      referenceEffect (matchingRules (assemble store position) question.domain question.operation
          question.resource (factDict question.facts)) = some reference ∧
      winner.effect.Agrees reference ∧
      (∀ slice stamps, refusalKind (evaluate digest snapshot slice question stamps none).1 ≠
        some .snapshotIntegrity) ∧ ∀ slice stamps decision,
        (evaluate digest snapshot slice question stamps none).1 = .ok (.decision decision) →
          decision.explanation.head? =
              some (.index matched winner.citation winner.decidedBy winner.final fallback) ∧
            (slice = [] → decision.effect = winner.effect) := by
  have hcompiled := compiledFrom_assemble hresult hsnapshot
  obtain ⟨winner, fallback, hwins, hwon⟩ := matchAndWin_eq_ok hcompiled.entries
    hcompiled.conflicts hcompiled.distinct hdetermined hmatching
  obtain ⟨reference, hreference, hagrees⟩ :=
    referenceEffect_of_strongest hcompiled.conflicts hwins.strongest
  refine ⟨_, _, fallback, reference, hwon, hreference, hagrees,
    refusalKind_evaluate_of_won digest hwon, fun slice stamps decision hdecision ↦ ?_⟩
  obtain ⟨hexplanation, heffect⟩ := decision_of_won digest hwon hdecision
  refine ⟨hexplanation, fun hslice ↦ ?_⟩
  rw [heffect, hslice, grantOverlay]
  split <;> rfl

end

/-- Running is denied on the database. -/
def denyDatabase : Rule where
  ruleId := "r1"
  target := ⟨"execution", "run", "db"⟩
  effect := .deny
  condition := none
  final := false

/-- A desk with an allowance for everything and a denial for the database. -/
def guardedDesk : StoreDesk :=
  sampleDesk.run [.document (sampleDocument "guard" denyDatabase) true]

def guardedResult : CompileResult :=
  compileAssembled Json.repr (assemble guardedDesk.store 3) 3 defaultVocabulary 1

/-- The denial wins on the database. -/
theorem retrieved_effect_sample :
    ∃ snapshot, guardedResult.snapshot = some snapshot ∧ ∃ winner matched fallback,
      matchAndWin snapshot "execution" "run" "db" (factDict []) = .ok (winner, matched, fallback) ∧
        winner.effect.Agrees .deny := by
  have hresult : compileSnapshot Json.repr guardedDesk.store 3 1 = .ok guardedResult := rfl
  obtain ⟨snapshot, hsnapshot⟩ := Option.isSome_iff_exists.mp
    (by decide +kernel : guardedResult.snapshot.isSome = true)
  have hconditions : ∀ entry ∈ scopedRules (assemble guardedDesk.store 3),
      entry.rule.condition.isNone = true := by decide +kernel
  have hdetermined : Determined (assemble guardedDesk.store 3) "execution" "run" "db"
      (factDict []) := fun entry hentry _ ↦
    ⟨true, by rw [Option.isNone_iff_eq_none.mp (hconditions entry hentry)]; rfl⟩
  have hsome : (matchingRules (assemble guardedDesk.store 3) "execution" "run" "db"
      (factDict [])).isEmpty = false := by decide +kernel
  have hmatching : matchingRules (assemble guardedDesk.store 3) "execution" "run" "db"
      (factDict []) ≠ [] := fun heq ↦ by
    rw [heq] at hsome
    cases hsome
  obtain ⟨winner, matched, fallback, reference, hwon, hreference, hagrees, -⟩ :=
    retrieved_effect_eq_reference Json.repr hresult hsnapshot (runQuestion "db" []) hdetermined
      hmatching
  have hdeny : referenceEffect (matchingRules (assemble guardedDesk.store 3) "execution" "run" "db"
      (factDict [])) = some .deny := by decide +kernel
  cases hdeny.symm.trans hreference
  exact ⟨snapshot, hsnapshot, winner, matched, fallback, hwon, hagrees⟩

end AbsoluteZero.Governance

import AbsoluteZero.Governance.Evaluator

/-!
# Soundness of the disjointness test

The compiler does not compare two rules whose conditions it proves disjoint. It does so for two
comparisons or memberships of one fact: through their intervals, or through their finite sets of
values. No fact value satisfies two conditions that the test calls disjoint
(`not_provablyDisjoint_of_satisfied`).
-/

namespace AbsoluteZero.Governance

open Foundations

/-! ### Intervals -/

structure Interval.Contains (interval : Interval) (number : Rat) : Prop where
  low : interval.low < .of number ∨ interval.low = .of number ∧ interval.lowOpen = false
  high : .of number < interval.high ∨ .of number = interval.high ∧ interval.highOpen = false

theorem Bound.of_lt_of {first second : Rat} : Bound.of first < Bound.of second ↔
    first < second := by
  simp [Bound.of]

theorem Bound.bot_lt_of (number : Rat) : (⊥ : Bound) < .of number := WithBot.bot_lt_coe _

theorem Bound.of_lt_top (number : Rat) : Bound.of number < ((⊤ : WithTop Rat) : Bound) :=
  WithBot.coe_lt_coe.mpr (WithTop.coe_lt_top number)

/-- A number that satisfies a range comparison lies in its interval. -/
theorem contains_of_compareNumbers {op : ComparisonOp} {number bound : Rat} {interval : Interval}
    (hinterval : interval? op bound = some interval)
    (hcompare : compareNumbers op number bound = true) : interval.Contains number := by
  cases op with
  | eq | ne => cases hinterval
  | lt =>
    cases hinterval
    exact ⟨.inl (Bound.bot_lt_of number), .inl (Bound.of_lt_of.mpr (of_decide_eq_true hcompare))⟩
  | lte =>
    cases hinterval
    refine ⟨.inl (Bound.bot_lt_of number), ?_⟩
    rcases (of_decide_eq_true hcompare).lt_or_eq with hlt | rfl
    · exact .inl (Bound.of_lt_of.mpr hlt)
    · exact .inr ⟨rfl, rfl⟩
  | gt =>
    cases hinterval
    exact ⟨.inl (Bound.of_lt_of.mpr (of_decide_eq_true hcompare)), .inl (Bound.of_lt_top number)⟩
  | gte =>
    cases hinterval
    refine ⟨?_, .inl (Bound.of_lt_top number)⟩
    rcases (of_decide_eq_true hcompare).lt_or_eq with hlt | rfl
    · exact .inl (Bound.of_lt_of.mpr hlt)
    · exact .inr ⟨rfl, rfl⟩

/-- One end of two intervals that share a number: they do not pass each other there. -/
theorem not_passed {high low : Bound} {highOpen lowOpen : Bool} {number : Rat}
    (hhigh : .of number < high ∨ .of number = high ∧ highOpen = false)
    (hlow : low < .of number ∨ low = .of number ∧ lowOpen = false) :
    (decide (high < low) || (decide (high = low) && (highOpen || lowOpen))) = false := by
  have hle : low ≤ high := by
    rcases hlow with hlow | ⟨hlow, -⟩ <;> rcases hhigh with hhigh | ⟨hhigh, -⟩
    · exact (hlow.trans hhigh).le
    · exact hhigh ▸ hlow.le
    · exact hlow ▸ hhigh.le
    · exact (hlow.trans hhigh).le
  rw [decide_eq_false (not_lt.mpr hle), Bool.false_or]
  by_cases heq : high = low
  · subst heq
    rcases hlow with hlow | ⟨hlow, hlowOpen⟩ <;> rcases hhigh with hhigh | ⟨hhigh, hhighOpen⟩
    · exact absurd (hlow.trans hhigh) (lt_irrefl _)
    · exact absurd (hhigh ▸ hlow) (lt_irrefl _)
    · exact absurd (hlow ▸ hhigh) (lt_irrefl _)
    · rw [hhighOpen, hlowOpen]
      exact Bool.and_false _
  · rw [decide_eq_false heq, Bool.false_and]

theorem not_intervalsDisjoint {first second : Interval} {number : Rat}
    (hfirst : first.Contains number) (hsecond : second.Contains number) :
    intervalsDisjoint first second = false := by
  rw [intervalsDisjoint, not_passed hfirst.high hsecond.low, not_passed hsecond.high hfirst.low]
  rfl

variable {value : Scalar}

/-- Finite constraints that share a value are not called disjoint. -/
theorem not_constraintsDisjoint {op op' : SetOp} {values values' : List Scalar}
    (hfirst : membershipSatisfied op value values = true)
    (hsecond : membershipSatisfied op' value values' = true) :
    constraintsDisjoint (op, values) (op', values') = false := by
  cases op with
  | isIn =>
    obtain ⟨other, hmem, hother⟩ := Scalar.isIn_iff.mp hfirst
    cases op' with
    | isIn =>
      have hin := Scalar.isIn_of_pyEq (Scalar.pyEq_symm hother) hsecond
      exact List.all_eq_false.mpr ⟨other, hmem, by simp [hin]⟩
    | notIn =>
      refine List.all_eq_false.mpr ⟨other, hmem, fun hin ↦ ?_⟩
      simp [membershipSatisfied, Scalar.isIn_of_pyEq hother hin] at hsecond
  | notIn =>
    cases op' with
    | isIn =>
      obtain ⟨other, hmem, hother⟩ := Scalar.isIn_iff.mp hsecond
      refine List.all_eq_false.mpr ⟨other, hmem, fun hin ↦ ?_⟩
      simp [membershipSatisfied, Scalar.isIn_of_pyEq hother hin] at hfirst
    | notIn => rfl

def SatisfiedBy (facts : FactMap) (condition : Condition) (fact : String) (value : Scalar) : Prop :=
  condition.singleFact? = some fact ∧ facts.get? fact = some value ∧
    conditionSatisfied facts condition = .ok true

variable {facts : FactMap} {condition : Condition} {fact : String}

theorem exists_value (hfact : condition.singleFact? = some fact)
    (hsatisfied : conditionSatisfied facts condition = .ok true) :
    ∃ value, SatisfiedBy facts condition fact value := by
  have hget : ∃ value, facts.get? fact = some value := by
    cases hnone : facts.get? fact with
    | some value => exact ⟨value, rfl⟩
    | none =>
      cases condition with
      | comparison fact' op value | setMembership fact' op values =>
        cases hfact
        simp [conditionSatisfied, factOf, hnone, bind, Except.bind] at hsatisfied
      | composition op first second rest | negation operand => cases hfact
  obtain ⟨value, hvalue⟩ := hget
  exact ⟨value, hfact, hvalue, hsatisfied⟩

theorem comparisonSatisfied_of {fact fact' : String} {op : ComparisonOp}
    {bound value : Scalar} (hsatisfied : SatisfiedBy facts (.comparison fact op bound)
      fact' value) :
    comparisonSatisfied fact op value bound = .ok true := by
  obtain ⟨hfact, hvalue, hok⟩ := hsatisfied
  cases hfact
  simpa [conditionSatisfied, factOf, hvalue, bind, Except.bind] using hok

theorem contains_of_satisfied {interval : Interval} (hrange : condition.range? = some interval)
    (hsatisfied : SatisfiedBy facts condition fact value) :
    ∃ number, value.val.numeric? = some number ∧ interval.Contains number := by
  cases condition with
  | comparison fact' op bound =>
    obtain ⟨limit, hlimit, hinterval⟩ := Option.bind_eq_some_iff.mp hrange
    have hcompare := comparisonSatisfied_of hsatisfied
    cases op with
    | eq | ne => cases hinterval
    | _ =>
      simp only [comparisonSatisfied, hlimit] at hcompare
      cases hnumber : value.val.numeric? with
      | none => simp [hnumber] at hcompare
      | some number =>
        simp only [hnumber, Except.ok.injEq] at hcompare
        exact ⟨number, rfl, contains_of_compareNumbers hinterval hcompare⟩
  | _ => cases hrange

theorem membershipSatisfied_of_satisfied {op : SetOp} {values : List Scalar}
    (hfinite : condition.finiteConstraint? = some (op, values))
    (hsatisfied : SatisfiedBy facts condition fact value) :
    membershipSatisfied op value values = true := by
  cases condition with
  | comparison fact' op' bound =>
    have hcompare := comparisonSatisfied_of hsatisfied
    cases op' with
    | eq | ne =>
      cases hfinite
      simpa [comparisonSatisfied, membershipSatisfied, Scalar.isIn] using hcompare
    | _ => cases hfinite
  | setMembership fact' op' values' =>
    cases hfinite
    obtain ⟨hfact, hvalue, hok⟩ := hsatisfied
    cases hfact
    simpa [conditionSatisfied, factOf, hvalue, bind, Except.bind, pure, Except.pure] using hok
  | composition op first second rest | negation operand => cases hfinite

theorem not_sameFactDisjoint {first second : Condition}
    (hfirst : SatisfiedBy facts first fact value)
    (hsecond : SatisfiedBy facts second fact value) : sameFactDisjoint first second = false := by
  unfold sameFactDisjoint
  split
  · next interval interval' hrange hrange' =>
    obtain ⟨number, hnumber, hcontains⟩ := contains_of_satisfied hrange hfirst
    obtain ⟨number', hnumber', hcontains'⟩ := contains_of_satisfied hrange' hsecond
    cases hnumber.symm.trans hnumber'
    exact not_intervalsDisjoint hcontains hcontains'
  · split
    · next constraint constraint' hfinite hfinite' =>
      exact not_constraintsDisjoint (membershipSatisfied_of_satisfied hfinite hfirst)
        (membershipSatisfied_of_satisfied hfinite' hsecond)
    · rfl

theorem not_provablyDisjoint_of_satisfied {first second : Option Condition}
    (hfirst : guardSatisfied facts first = .ok true)
    (hsecond : guardSatisfied facts second = .ok true) :
    conditionsProvablyDisjoint first second = false := by
  cases first with
  | none => rfl
  | some first =>
    cases second with
    | none => rfl
    | some second =>
      unfold conditionsProvablyDisjoint
      simp only
      split
      · next fact fact' hfact hfact' =>
        by_cases heq : fact = fact'
        · subst heq
          obtain ⟨value, hvalue⟩ := exists_value hfact hfirst
          have hvalue' : SatisfiedBy facts second fact value := ⟨hfact', hvalue.2.1, hsecond⟩
          rw [not_sameFactDisjoint hvalue hvalue']
          exact Bool.and_false _
        · rw [decide_eq_false heq]
          rfl
      · rfl

end AbsoluteZero.Governance

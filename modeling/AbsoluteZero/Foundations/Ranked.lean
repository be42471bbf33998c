import Mathlib.Init

/-!
# Progress measured by a rank

`RankedLe rank first second` says that a value stayed as it was or moved to a higher rank. It is a
preorder, and a value never returns from a higher rank (`not_rankedLe_of_lt`).
-/

namespace AbsoluteZero.Foundations

variable {Value : Type} {rank : Value → Nat} {first second third : Value}

/-- The value is the same or of a higher rank. -/
def RankedLe (rank : Value → Nat) (first second : Value) : Prop :=
  first = second ∨ rank first < rank second

theorem RankedLe.refl (rank : Value → Nat) (value : Value) : RankedLe rank value value := .inl rfl

theorem RankedLe.trans (hfirst : RankedLe rank first second) (hsecond : RankedLe rank second third)
    : RankedLe rank first third := by
  rcases hfirst with rfl | hfirst
  · exact hsecond
  · rcases hsecond with rfl | hsecond
    · exact .inr hfirst
    · exact .inr (Nat.lt_trans hfirst hsecond)

/-- There is no way back from a higher rank. -/
theorem not_rankedLe_of_lt (hlt : rank first < rank second) : ¬ RankedLe rank second first := by
  rintro (rfl | hgt)
  · exact Nat.lt_irrefl _ hlt
  · exact Nat.lt_irrefl _ (Nat.lt_trans hlt hgt)

end AbsoluteZero.Foundations

import AbsoluteZero.Foundations.PythonValue

/-!
# Scalars

The values that Python calls scalars here: strings, booleans, integers, floats and `None`. Among
them `==` is an equivalence (`Json.pyEq_self`, `Json.pyEq_left_euclidean`), and numbers, booleans
excluded, are ordered by value.
-/

namespace AbsoluteZero.Foundations

namespace Json

/-- `isinstance(value, (str, bool, int, float, type(None)))`. -/
def isScalar : Json → Bool
  | .arr _ | .obj _ => false
  | _ => true

/-- The value of a number; a boolean does not count as one. -/
def numeric? : Json → Option Rat
  | .int value => some value
  | .float value _ => some value
  | _ => none

theorem number?_of_numeric? {value : Json} {number : Rat} (hvalue : value.numeric? = some number) :
    value.number? = some number := by
  cases value <;> simp_all [numeric?, number?]

/-- Equality with a scalar: by value for numbers and booleans, by identity for the rest. -/
theorem pyEq_eq_true_iff {value other : Json} (hvalue : value.isScalar = true) :
    value.pyEq other = true ↔
      if value.number?.isSome then value.number? = other.number? else other = value := by
  cases value <;> simp_all [pyEq, number?, isScalar]

theorem pyEq_self {value : Json} (hvalue : value.isScalar = true) : value.pyEq value = true := by
  rw [pyEq_eq_true_iff hvalue]
  split <;> rfl

/-- Numbers are equal exactly if their values are. -/
theorem pyEq_iff_of_numeric? {value other : Json} {number number' : Rat}
    (hvalue : value.numeric? = some number) (hother : other.numeric? = some number') :
    value.pyEq other = true ↔ number = number' := by
  have hscalar : value.isScalar = true := by
    cases value <;> simp_all [numeric?, isScalar]
  rw [pyEq_eq_true_iff hscalar, number?_of_numeric? hvalue, number?_of_numeric? hother]
  simp

/-- Two scalars that equal a third are equal. -/
theorem pyEq_left_euclidean {value first second : Json} (hvalue : value.isScalar = true)
    (hfirst : value.pyEq first = true) (hsecond : value.pyEq second = true)
    (hscalar : first.isScalar = true) : first.pyEq second = true := by
  rw [pyEq_eq_true_iff hvalue] at hfirst hsecond
  rw [pyEq_eq_true_iff hscalar]
  by_cases hnumber : value.number?.isSome
  · rw [if_pos hnumber] at hfirst hsecond
    rw [if_pos (hfirst ▸ hnumber)]
    exact hfirst.symm.trans hsecond
  · rw [if_neg hnumber] at hfirst hsecond
    subst hfirst hsecond
    split <;> rfl

theorem pyEq_symm {first second : Json} (hfirst : first.isScalar = true)
    (hsecond : second.isScalar = true) (heq : first.pyEq second = true) :
    second.pyEq first = true :=
  pyEq_left_euclidean hfirst heq (pyEq_self hfirst) hsecond

end Json

abbrev Scalar := { value : Json // value.isScalar = true }

namespace Scalar

def ofInt (value : Int) : Scalar := ⟨.int value, rfl⟩

/-- `first == second`. -/
def pyEq (first second : Scalar) : Bool := first.val.pyEq second.val

/-- `value in values`, for a tuple and for a set of scalars. -/
def isIn (value : Scalar) (values : List Scalar) : Bool := values.any fun other ↦ value.pyEq other

theorem isIn_iff {value : Scalar} {values : List Scalar} :
    value.isIn values = true ↔ ∃ other ∈ values, value.pyEq other = true := by
  rw [isIn, List.any_eq_true]

theorem pyEq_symm {first second : Scalar} (heq : first.pyEq second = true) :
    second.pyEq first = true := Json.pyEq_symm first.2 second.2 heq

theorem pyEq_trans {first second third : Scalar} (hfirst : first.pyEq second = true)
    (hsecond : second.pyEq third = true) : first.pyEq third = true :=
  Json.pyEq_left_euclidean second.2 (pyEq_symm hfirst) hsecond first.2

/-- Equal scalars are in the same collections. -/
theorem isIn_of_pyEq {first second : Scalar} {values : List Scalar}
    (heq : first.pyEq second = true) (hsecond : second.isIn values = true) :
    first.isIn values = true := by
  obtain ⟨other, hmem, hother⟩ := isIn_iff.mp hsecond
  exact isIn_iff.mpr ⟨other, hmem, pyEq_trans heq hother⟩

end Scalar

end AbsoluteZero.Foundations

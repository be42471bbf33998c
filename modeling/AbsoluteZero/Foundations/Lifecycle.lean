import AbsoluteZero.Foundations.ClosedVocabulary

/-!
# Lifecycles

The four states of an entry that is never deleted: proposed, active, deprecated, retired. A
transition names its target by text and leads strictly forward.
-/

namespace AbsoluteZero.Foundations

/-- `LIFECYCLE_STATES`. -/
inductive Lifecycle
  | proposed
  | active
  | deprecated
  | retired
  deriving DecidableEq

namespace Lifecycle

instance : ClosedVocabulary Lifecycle where
  all := [.proposed, .active, .deprecated, .retired]
  text
    | .proposed => "proposed"
    | .active => "active"
    | .deprecated => "deprecated"
    | .retired => "retired"

def order : Lifecycle → Nat
  | .proposed => 0
  | .active => 1
  | .deprecated => 2
  | .retired => 3

/-- `lifecycle in ("active", "deprecated")`. -/
def matchable : Lifecycle → Bool
  | .active | .deprecated => true
  | .proposed | .retired => false

/-- Why a transition is refused. -/
inductive TransitionDefect
  | unknownState
  | backwardOrSame

/-- `_check_forward`: the state that the text names, when it lies ahead. -/
def checkForward (old : Lifecycle) (toState : String) : Except TransitionDefect Lifecycle :=
  match ClosedVocabulary.read toState with
  | none => .error .unknownState
  | some new => if new.order ≤ old.order then .error .backwardOrSame else .ok new

theorem checkForward_eq_ok {old new : Lifecycle} {toState : String}
    (hcheck : old.checkForward toState = .ok new) :
    toState = ClosedVocabulary.text new ∧ old.order < new.order := by
  unfold checkForward at hcheck
  cases hread : (ClosedVocabulary.read toState : Option Lifecycle) with
  | none =>
    rw [hread] at hcheck
    cases hcheck
  | some other =>
    simp only [hread] at hcheck
    split at hcheck
    · cases hcheck
    · cases hcheck
      exact ⟨ClosedVocabulary.read_eq_some_iff.mp hread, by omega⟩

theorem matchable_of_forward {old new : Lifecycle} (hforward : old.order < new.order)
    (hold : old.matchable = true) (hnew : new ≠ .retired) : new.matchable = true := by
  cases old <;> cases new <;> simp_all [order, matchable]

theorem not_forward_of_retired {new : Lifecycle} : ¬ Lifecycle.retired.order < new.order := by
  cases new <;> decide

end Lifecycle

end AbsoluteZero.Foundations

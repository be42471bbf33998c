import Mathlib.Data.List.Basic

/-!
# Plans

A plan is a sequence of actions each of which is allowed in the state where it is performed. Every
beginning of a plan is a plan (`IsPlan.take`), and what every allowed action keeps a plan keeps
(`IsPlan.keeps`).
-/

namespace AbsoluteZero.Foundations

variable {State Action : Type} {act : State → Action → State} {Allowed : State → Action → Prop}

/-- Every action of the sequence is allowed where it is performed. -/
def IsPlan (act : State → Action → State) (Allowed : State → Action → Prop) (state : State) :
    List Action → Prop
  | [] => True
  | action :: rest => Allowed state action ∧ IsPlan act Allowed (act state action) rest

namespace IsPlan

theorem take {state : State} {actions : List Action} (hplan : IsPlan act Allowed state actions)
    (count : Nat) : IsPlan act Allowed state (actions.take count) := by
  induction actions generalizing state count with
  | nil => simpa using hplan
  | cons action rest ih =>
    cases count with
    | zero => trivial
    | succ count => exact ⟨hplan.1, ih hplan.2 count⟩

theorem keeps (Holds : State → Prop)
    (hact : ∀ state action, Allowed state action → Holds state → Holds (act state action))
    {state : State} {actions : List Action} (hplan : IsPlan act Allowed state actions)
    (hstate : Holds state) : Holds (actions.foldl act state) := by
  induction actions generalizing state with
  | nil => exact hstate
  | cons action rest ih => exact ih hplan.2 (hact state action hplan.1 hstate)

end IsPlan

end AbsoluteZero.Foundations

import Mathlib.Data.List.Basic

/-!
# A loop that asks for answers

A loop whose every turn takes the next answer from a tape and then stops with a result, goes on with
another state, or is refused; so is a loop that asks beyond the end. `run_spec` is the rule for
total correctness.
-/

namespace AbsoluteZero.Foundations

namespace Tape

variable {State Answer Result Refusal : Type}

/-- How a turn ends when it is not refused. -/
inductive Turn (State Result : Type)
  | stop (result : Result)
  | next (state : State)

/-- The answers that a run took from the tape, and how it ended. -/
structure Run (Answer Refusal Result : Type) where
  taken : List Answer
  outcome : Except Refusal Result

def run (turn : State → Answer → Except Refusal (Turn State Result)) (dry : State → Refusal) :
    List Answer → State → Run Answer Refusal Result
  | [], state => ⟨[], .error (dry state)⟩
  | answer :: rest, state =>
    match turn state answer with
    | .error refusal => ⟨[answer], .error refusal⟩
    | .ok (.stop result) => ⟨[answer], .ok result⟩
    | .ok (.next later) =>
      ⟨answer :: (run turn dry rest later).taken, (run turn dry rest later).outcome⟩

variable {turn : State → Answer → Except Refusal (Turn State Result)} {dry : State → Refusal}
  {state later : State} {answer : Answer} {tape rest taken : List Answer} {result : Result}
  {refusal : Refusal}

theorem run_cons_stop (hturn : turn state answer = .ok (.stop result)) :
    run turn dry (answer :: rest) state = ⟨[answer], .ok result⟩ := by
  rw [run, hturn]

theorem run_cons_next (hturn : turn state answer = .ok (.next later)) :
    run turn dry (answer :: rest) state =
      ⟨answer :: (run turn dry rest later).taken, (run turn dry rest later).outcome⟩ := by
  rw [run, hturn]

/-- Assumes: from states with the property, whose measure is positive, every turn stops in the
postcondition, or goes on with the property and a smaller measure; and the tape has as many answers
as the measure says. The run ends well, in the postcondition. -/
theorem run_spec (holds : List Answer → State → Prop) (post : List Answer → Result → Prop)
    (measure : State → Nat) (hpositive : ∀ taken state, holds taken state → 0 < measure state)
    (hturn : ∀ taken state answer, answer ∈ tape → holds taken state →
      (∃ result, turn state answer = .ok (.stop result) ∧ post (taken ++ [answer]) result) ∨
      ∃ later, turn state answer = .ok (.next later) ∧ holds (taken ++ [answer]) later ∧
        measure later < measure state)
    (hstate : holds taken state) (hroom : measure state ≤ tape.length) :
    ∃ result, (run turn dry tape state).outcome = .ok result ∧
      post (taken ++ (run turn dry tape state).taken) result := by
  induction tape generalizing taken state with
  | nil => exact absurd (Nat.lt_of_lt_of_le (hpositive taken state hstate) hroom) (Nat.lt_irrefl 0)
  | cons answer rest ih =>
    rcases hturn taken state answer List.mem_cons_self hstate with
      ⟨result, hstop, hpost⟩ | ⟨later, hnext, hlater, hless⟩
    · rw [run_cons_stop hstop]
      exact ⟨result, rfl, hpost⟩
    · rw [run_cons_next hnext, List.append_cons]
      refine ih (fun taken state other hother ↦ ?_) hlater ?_
      · exact hturn taken state other (List.mem_cons_of_mem _ hother)
      · rw [List.length_cons] at hroom
        omega

end Tape

end AbsoluteZero.Foundations

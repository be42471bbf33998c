import Mathlib.Data.List.Induction

/-!
# Lists whose items answer for those before them

`Chained link before items` says that every item of the list is linked to the items before it, those
of `before` included. A list is checked item by item, extended at its end (`chained_append`), and
read at any of its places (`Chained.linked`).
-/

namespace AbsoluteZero.Foundations

variable {Item : Type} {link link' : List Item → Item → Prop} {before items others : List Item}
  {item : Item}

def Chained (link : List Item → Item → Prop) : List Item → List Item → Prop
  | _, [] => True
  | before, item :: rest => link before item ∧ Chained link (before ++ [item]) rest

theorem chained_nil : Chained link before [] := trivial

theorem chained_append : Chained link before (items ++ others) ↔
    Chained link before items ∧ Chained link (before ++ items) others := by
  induction items generalizing before with
  | nil => simp [Chained]
  | cons item rest ih =>
    rw [List.cons_append, Chained, Chained, ih, and_assoc, List.append_assoc, List.singleton_append]

theorem chained_concat : Chained link before (items ++ [item]) ↔
    Chained link before items ∧ link (before ++ items) item := by
  rw [chained_append, Chained, Chained, and_true]

/-- Assumes: on a chain, the two ways of linking its next item agree. They make the same chains. -/
theorem chained_congr (hcongr : ∀ earlier item, Chained link before earlier →
    (link (before ++ earlier) item ↔ link' (before ++ earlier) item)) :
    Chained link before items ↔ Chained link' before items := by
  induction items using List.reverseRecOn with
  | nil => rfl
  | append_singleton earlier item ih =>
    rw [chained_concat, chained_concat, ← ih]
    exact and_congr_right (hcongr earlier item)

/-- Assumes: an invariant holds of the state after `before`, and every linked item keeps it. It
holds of the state after a chain. -/
theorem Chained.invariant {State : Type} {step : State → Item → State} {Inv : State → Prop}
    {start : State} (hstart : Inv (before.foldl step start))
    (hstep : ∀ earlier item, Inv (earlier.foldl step start) → link earlier item →
      Inv (step (earlier.foldl step start) item))
    (hchained : Chained link before items) : Inv ((before ++ items).foldl step start) := by
  induction items using List.reverseRecOn with
  | nil => rwa [List.append_nil]
  | append_singleton earlier item ih =>
    rw [chained_concat] at hchained
    rw [← List.append_assoc, List.foldl_append]
    exact hstep _ item (ih hchained.1) hchained.2

end AbsoluteZero.Foundations

import Mathlib.Data.List.Basic

/-!
# Journals

`Reads step start records final` says that reading the records in order leads from one state to
another, each record by a step of its own. Readings compose (`Reads.append`), a reading of a longer
journal is cut anywhere (`reads_append_iff`), and what every step keeps a reading keeps.
-/

namespace AbsoluteZero.Foundations

variable {State Entry : Type} {step : State → Entry → State → Prop}

/-- Reading the entries of a journal in order leads from one state to another. -/
inductive Reads (step : State → Entry → State → Prop) : State → List Entry → State → Prop
  | nil (state : State) : Reads step state [] state
  | cons {state next final : State} {entry : Entry} {rest : List Entry}
      (hstep : step state entry next) (hrest : Reads step next rest final) :
      Reads step state (entry :: rest) final

namespace Reads

theorem single {state next : State} {entry : Entry} (hstep : step state entry next) :
    Reads step state [entry] next :=
  .cons hstep (.nil next)

theorem append {start middle final : State} {first second : List Entry}
    (hfirst : Reads step start first middle) (hsecond : Reads step middle second final) :
    Reads step start (first ++ second) final := by
  induction hfirst with
  | nil => exact hsecond
  | cons hstep _ ih => exact .cons hstep (ih hsecond)

theorem keeps {Holds : State → Prop} {start final : State} {entries : List Entry}
    (hreads : Reads step start entries final) (hstart : Holds start)
    (hstep : ∀ state entry next, entry ∈ entries → step state entry next → Holds state →
      Holds next) : Holds final := by
  induction hreads with
  | nil => exact hstart
  | cons hentry _ ih =>
    exact ih (hstep _ _ _ List.mem_cons_self hentry hstart) fun state entry next hmem ↦
      hstep state entry next (List.mem_cons_of_mem _ hmem)

end Reads

theorem reads_cons_iff {start final : State} {entry : Entry} {rest : List Entry} :
    Reads step start (entry :: rest) final ↔
      ∃ next, step start entry next ∧ Reads step next rest final := by
  constructor
  · intro hreads
    cases hreads with
    | cons hstep hrest => exact ⟨_, hstep, hrest⟩
  · rintro ⟨next, hstep, hrest⟩
    exact .cons hstep hrest

/-- A reading is cut anywhere. -/
theorem reads_append_iff {start final : State} {first second : List Entry} :
    Reads step start (first ++ second) final ↔
      ∃ middle, Reads step start first middle ∧ Reads step middle second final := by
  constructor
  · induction first generalizing start with
    | nil => exact fun hreads ↦ ⟨start, .nil start, hreads⟩
    | cons entry rest ih =>
      intro hreads
      obtain ⟨next, hstep, hrest⟩ := reads_cons_iff.mp hreads
      obtain ⟨middle, hfirst, hsecond⟩ := ih hrest
      exact ⟨middle, .cons hstep hfirst, hsecond⟩
  · rintro ⟨middle, hfirst, hsecond⟩
    exact hfirst.append hsecond

end AbsoluteZero.Foundations

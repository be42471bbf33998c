import Mathlib.Data.List.Basic

/-!
# Closed vocabularies

A finite type whose values are written as texts, no text twice. Reading a text inverts writing it
(`read_text`), and refuses every text that is not in the vocabulary (`read_eq_some_iff`).
-/

namespace AbsoluteZero.Foundations

/-- The values of a closed vocabulary in their declared order, and their texts. -/
class ClosedVocabulary (Word : Type) where
  all : List Word
  text : Word → String
  complete : ∀ word, word ∈ all := by rintro ⟨⟩ <;> decide
  injective : ∀ first second, text first = text second → first = second := by
    rintro ⟨⟩ ⟨⟩ <;> simp

namespace ClosedVocabulary

variable {Word : Type} [ClosedVocabulary Word]

def read (written : String) : Option Word := all.find? fun word ↦ text word = written

theorem read_text (word : Word) : read (text word) = some word := by
  unfold read
  cases hfound : all.find? fun other : Word ↦ text other = text word with
  | none =>
    have hnone := List.find?_eq_none.mp hfound word (complete word)
    exact absurd (decide_eq_true rfl) hnone
  | some other =>
    have htext := List.find?_some hfound
    rw [injective other word (of_decide_eq_true htext)]

theorem read_eq_some_iff {written : String} {word : Word} :
    read written = some word ↔ written = text word := by
  constructor
  · intro hread
    have htext := List.find?_some hread
    exact (of_decide_eq_true htext).symm
  · rintro rfl
    exact read_text word

end ClosedVocabulary

end AbsoluteZero.Foundations

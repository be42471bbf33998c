import Mathlib.Data.List.Chain

/-!
# Numbered histories of a state

A list of entries, each with a number, a state before and a state after, that tells the history of
one state: numbered from one, each begins where the one before it ended, and nothing leaves a final
state. `IsChronicle.append` extends it by an entry that begins in its current state.
-/

namespace AbsoluteZero.Foundations

open List

variable {Entry State : Type}

/-- How an entry is read: its number, and the states before and after it. -/
structure Reading (Entry State : Type) where
  number : Entry → Nat
  before : Entry → State
  after : Entry → State

def Reading.current (reading : Reading Entry State) (start : State) (history : List Entry) :
    State :=
  (history.getLast?.map reading.after).getD start

/-- A history numbered from one, each entry beginning where the last one ended, that never leaves a
final state. -/
structure IsChronicle (reading : Reading Entry State) (start : State) (Final : State → Prop)
    (history : List Entry) : Prop where
  numbered : history.map reading.number = List.range' 1 history.length
  opened : ∀ entry ∈ history.head?, reading.before entry = start
  linked : history.IsChain fun earlier later ↦ reading.before later = reading.after earlier
  settled : history.Pairwise fun earlier later ↦
    Final (reading.after earlier) → reading.after later = reading.after earlier

namespace IsChronicle

variable {reading : Reading Entry State} {start : State} {Final : State → Prop}
  {history : List Entry}

theorem nil : IsChronicle reading start Final [] :=
  ⟨rfl, by simp, isChain_nil, List.Pairwise.nil⟩

section

variable (hhistory : IsChronicle reading start Final history)

include hhistory

/-- Once a final state has been entered the history stays in it. -/
theorem current_of_final {entry : Entry}
    (hentry : entry ∈ history) (hfinal : Final (reading.after entry)) :
    reading.current start history = reading.after entry := by
  obtain ⟨earlier, later, rfl⟩ := append_of_mem hentry
  rcases eq_nil_or_concat later with rfl | ⟨rest, last, rfl⟩
  · simp [Reading.current]
  · have hpair := (pairwise_append.mp hhistory.settled).2.1
    have hlast := (pairwise_cons.mp hpair).1 last (by simp) hfinal
    have hend : (earlier ++ entry :: rest.concat last).getLast? = some last := by
      rw [concat_eq_append, ← cons_append, ← append_assoc, getLast?_concat]
    rw [Reading.current, hend, Option.map_some, Option.getD_some, hlast]

/-- A chronicle is extended by an entry with the next number that begins in its current state and
leaves it only if it is not final. -/
theorem append {entry : Entry} (hnumber : reading.number entry = history.length + 1)
    (hbefore : reading.before entry = reading.current start history)
    (hfinal : Final (reading.before entry) → reading.after entry = reading.before entry) :
    IsChronicle reading start Final (history ++ [entry]) where
  numbered := by
    rw [map_append, hhistory.numbered, length_append, length_singleton, range'_concat]
    simp [hnumber, Nat.add_comm]
  opened other hother := by
    cases history with
    | nil =>
      obtain rfl : entry = other := by simpa using hother
      exact hbefore
    | cons head rest => exact hhistory.opened other (by simpa using hother)
  linked := by
    refine hhistory.linked.append (isChain_singleton entry) fun last hlast head hhead ↦ ?_
    obtain rfl : entry = head := by simpa using hhead
    rw [hbefore, Reading.current, Option.mem_def.mp hlast]
    rfl
  settled := by
    refine pairwise_append.mpr ⟨hhistory.settled, pairwise_singleton _ _, ?_⟩
    intro earlier hearlier later hlater hearlierFinal
    obtain rfl : later = entry := by simpa using hlater
    have hcurrent := hhistory.current_of_final hearlier hearlierFinal
    rw [← hbefore] at hcurrent
    rw [← hcurrent] at hearlierFinal ⊢
    exact hfinal hearlierFinal

theorem number_last {last : Entry}
    (hlast : last ∈ history.getLast?) : reading.number last = history.length := by
  obtain ⟨rest, rfl⟩ : ∃ rest, history = rest ++ [last] :=
    ⟨history.dropLast, (dropLast_append_getLast? last hlast).symm⟩
  have hnumbered := congrArg List.getLast? hhistory.numbered
  rw [map_append, length_append, length_singleton, range'_concat] at hnumbered
  simpa [Nat.add_comm] using hnumbered

end

end IsChronicle

end AbsoluteZero.Foundations

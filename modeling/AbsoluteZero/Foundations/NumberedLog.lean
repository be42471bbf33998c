import AbsoluteZero.Foundations.Checked
import Mathlib.Data.List.Nodup
import Mathlib.Data.List.Range

/-!
# Numbered logs

`Numbered entry list` says that the entries of a log are those of a list in order and no others.
Such a log grows by writing at the length of the list (`Numbered.write`), which is the first number
without an entry (`Numbered.first_missing`), and reading the numbers below it gives the list back.
-/

namespace AbsoluteZero.Foundations

open List

variable {Entry Value Error : Type}

/-- The entries under the sequence numbers are those of the list, in order, and no others. -/
def Numbered (entry : Nat → Option Entry) (list : List Entry) : Prop :=
  ∀ seq, entry seq = list[seq]?

namespace Numbered

variable {entry : Nat → Option Entry} {list : List Entry}

theorem at_length (hlist : Numbered entry list) : entry list.length = none := by
  rw [hlist, List.getElem?_eq_none_iff]

/-- Writing at the number after the last entry appends to the log. -/
theorem write (hlist : Numbered entry list) {next : Nat → Option Entry} {added : Entry}
    (hnext : ∀ seq, next seq = if seq = list.length then some added else entry seq) :
    Numbered next (list ++ [added]) := by
  intro seq
  rw [hnext, hlist]
  by_cases hseq : seq = list.length
  · rw [if_pos hseq, hseq, getElem?_concat_length]
  · rw [if_neg hseq]
    by_cases hlt : seq < list.length
    · rw [getElem?_append_left hlt]
    · have hfirst : list[seq]? = none := by
        rw [List.getElem?_eq_none_iff]
        omega
      have hsecond : (list ++ [added])[seq]? = none := by
        rw [List.getElem?_eq_none_iff, length_append, length_singleton]
        omega
      rw [hfirst, hsecond]

theorem first_missing (hlist : Numbered entry list) {seq : Nat}
    (hbelow : ∀ earlier < seq, (entry earlier).isSome) (hmissing : entry seq = none) :
    seq = list.length := by
  rw [hlist, List.getElem?_eq_none_iff] at hmissing
  by_contra hne
  have hpresent := hbelow list.length (by omega)
  rw [hlist.at_length] at hpresent
  cases hpresent

end Numbered

/-- Assumes: the numbers below a bound have entries, and the others have none. The log has no
gap. -/
theorem exists_numbered {entry : Nat → Option Entry} (bound : Nat)
    (hbelow : ∀ seq < bound, (entry seq).isSome) (habove : ∀ seq, bound ≤ seq → entry seq = none) :
    ∃ list, Numbered entry list := by
  induction bound generalizing entry with
  | zero => exact ⟨[], fun seq ↦ habove seq (Nat.zero_le seq)⟩
  | succ bound ih =>
    obtain ⟨last, hlast⟩ := Option.isSome_iff_exists.mp (hbelow bound (Nat.lt_succ_self bound))
    -- The log without its last entry has no gap either, and the last entry is written to it.
    obtain ⟨list, hlist⟩ : ∃ list, Numbered (fun seq ↦ if seq = bound then none else entry seq)
        list := by
      apply ih
      · intro seq hseq
        rw [if_neg (by omega)]
        exact hbelow seq (by omega)
      · intro seq hseq
        by_cases heq : seq = bound
        · rw [if_pos heq]
        · rw [if_neg heq]
          exact habove seq (by omega)
    have hlength : bound = list.length := hlist.first_missing
      (fun earlier hearlier ↦ by
        rw [if_neg (by omega)]
        exact hbelow earlier (by omega))
      (if_pos rfl)
    refine ⟨list ++ [last], hlist.write fun seq ↦ ?_⟩
    rw [← hlength]
    by_cases heq : seq = bound
    · rw [if_pos heq, heq, hlast]
    · rw [if_neg heq, if_neg heq]

/-! ### Reading a log -/

theorem mapM_range_eq_ok {read : Nat → Except Error Value} {list : List Value}
    (hread : ∀ seq value, list[seq]? = some value → read seq = .ok value) :
    (List.range list.length).mapM read = .ok list := by
  induction list using List.reverseRecOn with
  | nil => rfl
  | append_singleton list last ih =>
    have hlist := ih fun seq value hvalue ↦ by
      obtain ⟨hlt, -⟩ := List.getElem?_eq_some_iff.mp hvalue
      exact hread seq value (by rw [getElem?_append_left hlt, hvalue])
    have hlast : read list.length = .ok last :=
      hread list.length last getElem?_concat_length
    rw [length_append, length_singleton, range_succ, mapM_append, hlist, mapM_cons, hlast]
    rfl

/-- A reading that returns reads every number. -/
theorem read_of_mapM_eq_ok {read : Nat → Except Error Value} {numbers : List Nat}
    {values : List Value} (hvalues : numbers.mapM read = .ok values) :
    ∀ seq ∈ numbers, ∃ value, read seq = .ok value := by
  induction numbers generalizing values with
  | nil => exact nofun
  | cons head rest ih =>
    rw [mapM_cons] at hvalues
    obtain ⟨value, hhead, hvalues⟩ := Checked.bind_eq_ok_iff.mp hvalues
    obtain ⟨others, hrest, -⟩ := Checked.bind_eq_ok_iff.mp hvalues
    intro seq hseq
    rcases mem_cons.mp hseq with rfl | hmem
    · exact ⟨value, hhead⟩
    · exact ih hrest seq hmem

end AbsoluteZero.Foundations

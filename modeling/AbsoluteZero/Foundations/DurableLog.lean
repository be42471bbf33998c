import AbsoluteZero.Foundations.OrderedDict

/-!
# Logs kept under numbered keys

A log writes its values to a dictionary under the keys of their positions, which count from one. It
is durable if the dictionary holds each of its values, and beyond its end what it held at the start;
a further value keeps this (`DurableLog.append`), and so does a write under any other key.
-/

namespace AbsoluteZero.Foundations

variable {Key Value : Type} [DecidableEq Key] {key : Nat → Key} {start dict : OrderedDict Key Value}
  {log : List Value}

/-- The dictionary holds the values of the log under the keys of their positions, and beyond its end
what it held at the start. -/
structure DurableLog (key : Nat → Key) (start dict : OrderedDict Key Value) (log : List Value) :
    Prop where
  stored : ∀ index value, log[index]? = some value → dict.get? (key (index + 1)) = some value
  beyond : ∀ index, log.length ≤ index → dict.get? (key (index + 1)) = start.get? (key (index + 1))

/-- The positions have no gap in the dictionary. -/
def Contiguous (key : Nat → Key) (dict : OrderedDict Key Value) : Prop :=
  ∀ index, dict.get? (key (index + 1)) = none → dict.get? (key (index + 2)) = none

theorem Contiguous.none_of_le (hcontiguous : Contiguous key dict) {first second : Nat}
    (hle : first ≤ second) (hnone : dict.get? (key (first + 1)) = none) :
    dict.get? (key (second + 1)) = none := by
  induction hle with
  | refl => exact hnone
  | step _ ih => exact hcontiguous _ ih

namespace DurableLog

theorem nil (key : Nat → Key) (start : OrderedDict Key Value) : DurableLog key start start [] :=
  ⟨nofun, fun _ _ ↦ rfl⟩

/-- The write of the next value. -/
theorem append (hkey : Function.Injective key) (hlog : DurableLog key start dict log)
    (value : Value) :
    DurableLog key start (dict.insert (key (log.length + 1)) value) (log ++ [value]) where
  stored := by
    intro index other hother
    rw [OrderedDict.get?_insert]
    rcases Nat.lt_trichotomy index log.length with hlt | rfl | hgt
    · have hne : key (log.length + 1) ≠ key (index + 1) := fun heq ↦ by
        have := hkey heq
        omega
      rw [List.getElem?_append_left hlt] at hother
      rw [if_neg hne, hlog.stored index other hother]
    · rw [List.getElem?_concat_length] at hother
      rw [if_pos rfl, hother]
    · rw [List.getElem?_eq_none (by simp; omega)] at hother
      cases hother
  beyond := by
    intro index hindex
    rw [List.length_append, List.length_singleton] at hindex
    have hne : key (log.length + 1) ≠ key (index + 1) := fun heq ↦ by
      have := hkey heq
      omega
    rw [OrderedDict.get?_insert, if_neg hne, hlog.beyond index (by omega)]

section

variable (hlog : DurableLog key start dict log)

include hlog

/-- A write under another key. -/
theorem insert {other : Key} (hother : ∀ position, other ≠ key position) (value : Value) :
    DurableLog key start (dict.insert other value) log where
  stored := fun index stored hstored ↦ by
    rw [OrderedDict.get?_insert, if_neg (hother _), hlog.stored index stored hstored]
  beyond := fun index hindex ↦ by
    rw [OrderedDict.get?_insert, if_neg (hother _), hlog.beyond index hindex]

theorem length_le_of_none {index : Nat}
    (hnone : dict.get? (key (index + 1)) = none) : log.length ≤ index := by
  by_contra hlt
  have hstored := hlog.stored index _ (List.getElem?_eq_getElem (Nat.lt_of_not_le hlt))
  rw [hnone] at hstored
  cases hstored

theorem contiguous (hstart : Contiguous key start) :
    Contiguous key dict := by
  intro index hnone
  have hindex := hlog.length_le_of_none hnone
  rw [hlog.beyond index hindex] at hnone
  rw [hlog.beyond (index + 1) (by omega)]
  exact hstart index hnone

/-- Nothing is stored beyond the end of the log if nothing was at the start. -/
theorem none_of_length_le (hstart : Contiguous key start)
    {first index : Nat} (hnone : start.get? (key (first + 1)) = none) (hfirst : first ≤ index)
    (hindex : log.length ≤ index) : dict.get? (key (index + 1)) = none := by
  rw [hlog.beyond index hindex]
  exact hstart.none_of_le hfirst hnone

end

end DurableLog

end AbsoluteZero.Foundations

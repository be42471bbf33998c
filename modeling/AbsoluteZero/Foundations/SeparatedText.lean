import AbsoluteZero.Foundations.Text
import Std.Data.String.ToNat

/-!
# Texts joined by a separator

A text built by joining parts with a separator determines its parts when the separator is missing
from all of them but one (`append_separator_inj`, `separator_append_inj`, `intercalate_inj`).
Decimal digits are free of every separator that is no digit and determine the number
(`number?_padded`).
-/

namespace AbsoluteZero.Foundations.SeparatedText

open List

/-- Two lists split at the first occurrence of a separator are equal only if their parts are. -/
theorem append_cons_inj {Item : Type} {separator : Item} {first first' second second' : List Item}
    (hfirst : separator ∉ first) (hfirst' : separator ∉ first')
    (hjoin : first ++ separator :: second = first' ++ separator :: second') :
    first = first' ∧ second = second' := by
  induction first generalizing first' with
  | nil =>
    cases first' with
    | nil => exact ⟨rfl, (List.cons.inj hjoin).2⟩
    | cons head rest =>
      exact absurd (mem_cons.mpr (Or.inl (List.cons.inj hjoin).1)) hfirst'
  | cons head rest ih =>
    cases first' with
    | nil => exact absurd (mem_cons.mpr (Or.inl (List.cons.inj hjoin).1.symm)) hfirst
    | cons head' rest' =>
      obtain ⟨hhead, hrest⟩ := List.cons.inj hjoin
      obtain ⟨hparts, hsecond⟩ := ih (fun hmem ↦ hfirst (mem_cons_of_mem _ hmem))
        (fun hmem ↦ hfirst' (mem_cons_of_mem _ hmem)) hrest
      exact ⟨by rw [hhead, hparts], hsecond⟩

theorem toList_separator (first second : String) (separator : Char) :
    (first ++ String.singleton separator ++ second).toList =
      first.toList ++ separator :: second.toList := by
  simp

/-- Assumes: the first parts are free of the separator. Equal joins have equal parts. -/
theorem append_separator_inj (separator : Char) {first first' second second' : String}
    (hfirst : separator ∉ first.toList) (hfirst' : separator ∉ first'.toList)
    (hjoin : first ++ String.singleton separator ++ second =
      first' ++ String.singleton separator ++ second') : first = first' ∧ second = second' := by
  have hlist := congrArg String.toList hjoin
  rw [toList_separator, toList_separator] at hlist
  obtain ⟨hparts, hrest⟩ := append_cons_inj hfirst hfirst' hlist
  exact ⟨String.toList_inj.mp hparts, String.toList_inj.mp hrest⟩

/-- Assumes: the second parts are free of the separator. Equal joins have equal parts. -/
theorem separator_append_inj (separator : Char) {first first' second second' : String}
    (hsecond : separator ∉ second.toList) (hsecond' : separator ∉ second'.toList)
    (hjoin : first ++ String.singleton separator ++ second =
      first' ++ String.singleton separator ++ second') : first = first' ∧ second = second' := by
  have hlist := congrArg (fun text : String ↦ text.toList.reverse) hjoin
  simp only [toList_separator, reverse_append, reverse_cons, append_assoc,
    singleton_append] at hlist
  obtain ⟨hparts, hrest⟩ := append_cons_inj (by simpa using hsecond) (by simpa using hsecond') hlist
  exact ⟨String.toList_inj.mp (reverse_injective hrest),
    String.toList_inj.mp (reverse_injective hparts)⟩

/-- Assumes: no part has the separator. Equal joins of some parts have equal parts. -/
theorem intercalate_inj (separator : Char) {parts parts' : List String} (hparts : parts ≠ [])
    (hparts' : parts' ≠ []) (hfree : ∀ part ∈ parts, separator ∉ part.toList)
    (hfree' : ∀ part ∈ parts', separator ∉ part.toList)
    (hjoin : (String.singleton separator).intercalate parts =
      (String.singleton separator).intercalate parts') : parts = parts' := by
  have hsplit : ∀ {texts : List String}, texts ≠ [] →
      (∀ text ∈ texts, separator ∉ text.toList) →
        ((String.singleton separator).intercalate texts).toList.splitOn separator =
          texts.map String.toList := by
    intro texts htexts hall
    rw [String.toList_intercalate, String.toList_singleton]
    refine splitOn_intercalate separator (fun characters hmem ↦ ?_) (by simpa using htexts)
    obtain ⟨text, htext, rfl⟩ := mem_map.mp hmem
    exact hall text htext
  have hlists := congrArg (fun text : String ↦ text.toList.splitOn separator) hjoin
  simp only [hsplit hparts hfree, hsplit hparts' hfree'] at hlists
  exact map_injective_iff.mpr (fun _ _ ↦ String.toList_inj.mp) hlists

theorem notMem_toString (number : Nat) {separator : Char} (hseparator : separator.isDigit = false) :
    separator ∉ (toString number).toList := by
  intro hmem
  rw [Nat.toString_eq_repr, Nat.toList_repr] at hmem
  rw [Nat.isDigit_of_mem_toDigits (by decide) (by decide) hmem] at hseparator
  cases hseparator

theorem toString_inj {first second : Nat} (htext : toString first = toString second) :
    first = second :=
  Nat.repr_injective htext

/-! ### Padded numbers -/

/-- The decimal digits of a number, with zeros before them up to a width. -/
def padded (width number : Nat) : String :=
  String.ofList ((Nat.toDigits 10 number).leftpad width '0')

def number? (text : String) : Option Nat :=
  if text ≠ "" ∧ ∀ character ∈ text.toList, character.isDigit = true then
    some (Nat.ofDigitChars 10 text.toList 0)
  else none

theorem toList_padded (width number : Nat) : (padded width number).toList =
    List.replicate (width - (Nat.toDigits 10 number).length) '0' ++ Nat.toDigits 10 number :=
  String.toList_ofList

theorem isDigit_of_mem_padded {width number : Nat} {character : Char}
    (hmem : character ∈ (padded width number).toList) : character.isDigit = true := by
  rw [toList_padded, mem_append] at hmem
  rcases hmem with hzero | hdigit
  · rw [eq_of_mem_replicate hzero]
    rfl
  · exact Nat.isDigit_of_mem_toDigits (by decide) (by decide) hdigit

theorem padded_ne_empty (width number : Nat) : padded width number ≠ "" := by
  intro hempty
  have hlist := congrArg String.toList hempty
  rw [toList_padded] at hlist
  have hdigits := (append_eq_nil_iff.mp hlist).2
  exact Nat.toDigits_ne_nil hdigits

theorem number?_padded (width number : Nat) : number? (padded width number) = some number := by
  unfold number?
  rw [if_pos ⟨padded_ne_empty width number, fun _ hmem ↦ isDigit_of_mem_padded hmem⟩,
    toList_padded, Nat.ofDigitChars_append, Nat.ofDigitChars_replicate_zero, Nat.mul_zero,
    Nat.ofDigitChars_ten_toDigits]

theorem padded_inj {width first second : Nat} (htext : padded width first = padded width second) :
    first = second := by
  have hnumber := congrArg number? htext
  rw [number?_padded, number?_padded] at hnumber
  exact Option.some.inj hnumber

end AbsoluteZero.Foundations.SeparatedText

import Mathlib.Data.String.Basic

/-!
# The characters of a text

The characters that Python takes for whitespace, what `str.split()` and `str.strip()` do with them,
and the decision of a property of all characters of a text.
-/

namespace AbsoluteZero.Foundations

/-- A property of every character of a text is decided along the text, and not over all characters
that there are. -/
instance (priority := 2000) decidableForallChar (holds : Char → Prop) [DecidablePred holds]
    (text : List Char) : Decidable (∀ char ∈ text, holds char) :=
  List.decidableBAll holds text

/-- `str.isspace()` of one character. -/
def isSpace (char : Char) : Bool :=
  let code := char.toNat
  9 ≤ code ∧ code ≤ 13 ∨ 28 ≤ code ∧ code ≤ 32 ∨ code = 0x85 ∨ code = 0xA0 ∨ code = 0x1680 ∨
    0x2000 ≤ code ∧ code ≤ 0x200A ∨ code = 0x2028 ∨ code = 0x2029 ∨ code = 0x202F ∨
    code = 0x205F ∨ code = 0x3000

/-- The words that start in a list of characters, the first of which may continue a word. -/
def wordStarts (inWord : Bool) : List Char → Nat
  | [] => 0
  | char :: rest =>
    if isSpace char then wordStarts false rest
    else (if inWord then 0 else 1) + wordStarts true rest

/-- `len(text.split())`. -/
def wordCount (text : String) : Nat := wordStarts false text.toList

/-- The characters of `text.strip()`. -/
def strip (text : String) : List Char :=
  ((text.toList.dropWhile isSpace).reverse.dropWhile isSpace).reverse

end AbsoluteZero.Foundations

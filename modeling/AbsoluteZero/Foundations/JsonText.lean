import AbsoluteZero.Foundations.PythonValue
import Mathlib.Tactic.IntervalCases

/-!
# JSON text

`json.dumps(value, sort_keys=True)` and `json.loads`. Half of a surrogate pair, NaN and the
infinities cannot be represented here; a text that has one is refused. How a decimal literal becomes
a float, and what the float prints as, is a parameter (`FloatReader`). Reading inverts writing on
values that JSON text can hold (`loads_dumps`).
-/

namespace AbsoluteZero.Foundations

open List Option

namespace JsonText

/-- `\uXXXX`. -/
def unicodeEscape (code : Nat) : List Char :=
  ['\\', 'u', Nat.digitChar (code / 4096 % 16), Nat.digitChar (code / 256 % 16),
    Nat.digitChar (code / 16 % 16), Nat.digitChar (code % 16)]

/-- A character as it stands in a string. -/
def escapeChar (char : Char) : List Char :=
  if char = '"' then ['\\', '"']
  else if char = '\\' then ['\\', '\\']
  else if char = '\n' then ['\\', 'n']
  else if char = '\r' then ['\\', 'r']
  else if char = '\t' then ['\\', 't']
  else if char = '\x08' then ['\\', 'b']
  else if char = '\x0c' then ['\\', 'f']
  else if 32 ≤ char.toNat ∧ char.toNat ≤ 126 then [char]
  else if char.toNat < 0x10000 then unicodeEscape char.toNat
  else
    unicodeEscape (0xd800 + (char.toNat - 0x10000) / 1024) ++
      unicodeEscape (0xdc00 + (char.toNat - 0x10000) % 1024)

def writeString (text : String) : List Char :=
  '"' :: (text.toList.flatMap escapeChar ++ ['"'])

def writeInt : Int → List Char
  | .ofNat value => Nat.toDigits 10 value
  | .negSucc value => '-' :: Nat.toDigits 10 (value + 1)

mutual

/-- The text of a value, with the given separators between items and after keys. -/
def write (itemSeparator keySeparator : List Char) : Json → List Char
  | .null => ['n', 'u', 'l', 'l']
  | .bool true => ['t', 'r', 'u', 'e']
  | .bool false => ['f', 'a', 'l', 's', 'e']
  | .int value => writeInt value
  | .float _ text => text.toList
  | .str text => writeString text
  | .arr elements => '[' :: (writeElements itemSeparator keySeparator elements ++ [']'])
  | .obj fields => '\x7b' :: (writeFields itemSeparator keySeparator fields ++ ['\x7d'])

def writeElements (itemSeparator keySeparator : List Char) : List Json → List Char
  | [] => []
  | [value] => write itemSeparator keySeparator value
  | value :: next :: rest =>
    write itemSeparator keySeparator value ++
      (itemSeparator ++ writeElements itemSeparator keySeparator (next :: rest))

def writeFields (itemSeparator keySeparator : List Char) : List (String × Json) → List Char
  | [] => []
  | [(key, value)] =>
    writeString key ++ (keySeparator ++ write itemSeparator keySeparator value)
  | (key, value) :: next :: rest =>
    writeString key ++ (keySeparator ++ (write itemSeparator keySeparator value ++
      (itemSeparator ++ writeFields itemSeparator keySeparator (next :: rest))))

end

/-- `json.dumps(value, sort_keys=True, separators=(",", ":"))`. -/
def dumps (value : Json) : String := String.ofList (write [','] [':'] value.canonical)

/-- `json.dumps(value, sort_keys=True)`. -/
def dumpsSpaced (value : Json) : String :=
  String.ofList (write [',', ' '] [':', ' '] value.canonical)

/-! ### Reading -/

/-- Whitespace between the tokens. -/
def isBlank (char : Char) : Bool := char = ' ' || char = '\t' || char = '\n' || char = '\r'

def skip (text : List Char) : List Char := text.dropWhile isBlank

/-- The value of a hexadecimal digit of either case. -/
def hexValue (char : Char) : Option Nat :=
  if '0' ≤ char ∧ char ≤ '9' then some (char.toNat - 48)
  else if 'a' ≤ char ∧ char ≤ 'f' then some (char.toNat - 87)
  else if 'A' ≤ char ∧ char ≤ 'F' then some (char.toNat - 55)
  else none

/-- Four hexadecimal digits. -/
def readHex4 : List Char → Option (Nat × List Char)
  | first :: second :: third :: fourth :: rest =>
    match hexValue first, hexValue second, hexValue third, hexValue fourth with
    | some first, some second, some third, some fourth =>
      some (first * 4096 + second * 256 + third * 16 + fourth, rest)
    | _, _, _, _ => none
  | _ => none

/-- The second half of a surrogate pair, behind the first. -/
def readLow (high : Nat) : List Char → Option (Char × List Char)
  | '\\' :: 'u' :: text =>
    match readHex4 text with
    | some (low, rest) =>
      if 0xdc00 ≤ low ∧ low < 0xe000 then
        some (Char.ofNat (0x10000 + (high - 0xd800) * 1024 + (low - 0xdc00)), rest)
      else none
    | none => none
  | _ => none

/-- What follows `\u`: a character of the basic plane, or the first half of a surrogate pair with
the second half behind it. -/
def readUnicode (text : List Char) : Option (Char × List Char) :=
  match readHex4 text with
  | none => none
  | some (code, rest) =>
    if code < 0xd800 ∨ 0xe000 ≤ code then some (Char.ofNat code, rest)
    else if code < 0xdc00 then readLow code rest
    else none

/-- What follows a backslash. -/
def readEscape : List Char → Option (Char × List Char)
  | [] => none
  | char :: rest =>
    if char = '"' then some ('"', rest)
    else if char = '\\' then some ('\\', rest)
    else if char = '/' then some ('/', rest)
    else if char = 'b' then some ('\x08', rest)
    else if char = 'f' then some ('\x0c', rest)
    else if char = 'n' then some ('\n', rest)
    else if char = 'r' then some ('\r', rest)
    else if char = 't' then some ('\t', rest)
    else if char = 'u' then readUnicode rest
    else none

/-- The characters of a string up to its closing quote. -/
def readChars : Nat → List Char → Option (List Char × List Char)
  | 0, _ => none
  | _ + 1, [] => none
  | room + 1, char :: rest =>
    if char = '"' then some ([], rest)
    else if char = '\\' then
      match readEscape rest with
      | none => none
      | some (escaped, rest) => (readChars room rest).map fun read ↦ (escaped :: read.1, read.2)
    else if char.toNat < 32 then none
    else (readChars room rest).map fun read ↦ (char :: read.1, read.2)

/-- A string whose opening quote has been read. -/
def readString (text : List Char) : Option (String × List Char) :=
  (readChars (text.length + 1) text).map fun read ↦ (String.ofList read.1, read.2)

def isNumberChar (char : Char) : Bool :=
  char.isDigit || char = '-' || char = '+' || char = '.' || char = 'e' || char = 'E'

/-- The digits before the fraction: no zero before another digit. -/
def isWhole (digits : List Char) : Bool :=
  digits = ['0'] || digits ≠ [] && digits.all Char.isDigit && digits.head? ≠ some '0'

/-- A number without its minus sign. -/
def unsigned : List Char → List Char
  | [] => []
  | char :: rest => if char = '-' then rest else char :: rest

def isExponent : List Char → Bool
  | [] => true
  | mark :: rest =>
    (mark = 'e' || mark = 'E') &&
      match rest with
      | [] => false
      | sign :: digits =>
        if sign = '+' ∨ sign = '-' then digits ≠ [] && digits.all Char.isDigit
        else (sign :: digits).all Char.isDigit

def isFraction : List Char → Bool
  | [] => false
  | mark :: rest =>
    if mark = '.' then
      rest.takeWhile Char.isDigit ≠ [] && isExponent (rest.dropWhile Char.isDigit)
    else isExponent (mark :: rest)

/-- A decimal literal that is no integer. -/
def isDecimal (lexeme : List Char) : Bool :=
  isWhole ((unsigned lexeme).takeWhile Char.isDigit) &&
    isFraction ((unsigned lexeme).dropWhile Char.isDigit)

/-- The number that a lexeme stands for, when decimal literals are read in the given way. -/
def readNumber (read : String → Option (Rat × String)) (lexeme : List Char) : Option Json :=
  if isWhole (unsigned lexeme) then
    let value : Int := Nat.ofDigitChars 10 (unsigned lexeme) 0
    some (.int (if lexeme.head? = some '-' then -value else value))
  else if isDecimal lexeme then
    (read (String.ofList lexeme)).map fun float ↦ .float float.1 float.2
  else none

/-- The lexeme has only characters of numbers and stands for the number. -/
def Spells (read : String → Option (Rat × String)) (lexeme : List Char) (number : Json) : Prop :=
  (∀ char ∈ lexeme, isNumberChar char = true) ∧ readNumber read lexeme = some number

/-- `float(text)` for a decimal literal, with the `repr` of the result: a literal that is read as
the same float. -/
structure FloatReader where
  read : String → Option (Rat × String)
  spells : ∀ literal value text, read literal = some (value, text) →
    Spells read text.toList (.float value text)

/-- The reader that knows no decimal literal. -/
def FloatReader.integersOnly : FloatReader where
  read _ := none
  spells _ _ _ hread := by cases hread

variable (reader : FloatReader)

/-- A name of one of the three constants. -/
def readConstant (text : List Char) : Option (Json × List Char) :=
  match text with
  | 'n' :: 'u' :: 'l' :: 'l' :: rest => some (.null, rest)
  | 't' :: 'r' :: 'u' :: 'e' :: rest => some (.bool true, rest)
  | 'f' :: 'a' :: 'l' :: 's' :: 'e' :: rest => some (.bool false, rest)
  | _ => none

mutual

/-- A value and what follows it. The number bounds the nesting and the length. -/
def readValue : Nat → List Char → Option (Json × List Char)
  | 0, _ => none
  | room + 1, text =>
    match skip text with
    | [] => none
    | char :: rest =>
      if char = '"' then (readString rest).map fun read ↦ (.str read.1, read.2)
      else if char = '[' then
        match skip rest with
        | ']' :: rest => some (.arr [], rest)
        | rest => (readElements room rest).map fun read ↦ (.arr read.1, read.2)
      else if char = '\x7b' then
        match skip rest with
        | '\x7d' :: rest => some (.obj [], rest)
        | rest => (readFields room [] rest).map fun read ↦ (.obj read.1, read.2)
      else if isNumberChar char then
        (readNumber reader.read ((char :: rest).takeWhile isNumberChar)).map fun value ↦
          (value, (char :: rest).dropWhile isNumberChar)
      else readConstant (char :: rest)

/-- The elements of a list up to the closing bracket, from the first of them on. -/
def readElements : Nat → List Char → Option (List Json × List Char)
  | 0, _ => none
  | room + 1, text =>
    match readValue room text with
    | none => none
    | some (value, rest) =>
      match skip rest with
      | ',' :: rest => (readElements room rest).map fun read ↦ (value :: read.1, read.2)
      | ']' :: rest => some ([value], rest)
      | _ => none

/-- The items of an object up to the closing brace, from the first of them on, written after those
that were read before. -/
def readFields : Nat → List (String × Json) → List Char → Option (List (String × Json) × List Char)
  | 0, _, _ => none
  | room + 1, fields, text =>
    match skip text with
    | '"' :: rest =>
      match readString rest with
      | none => none
      | some (key, rest) =>
        match skip rest with
        | ':' :: rest =>
          match readValue room rest with
          | none => none
          | some (value, rest) =>
            match skip rest with
            | ',' :: rest => readFields room (OrderedDict.upsert key value fields) rest
            | '\x7d' :: rest => some (OrderedDict.upsert key value fields, rest)
            | _ => none
        | _ => none
    | _ => none

end

/-- `json.loads(text)`. -/
def loads (text : String) : Option Json :=
  match readValue reader (text.toList.length + 1) text.toList with
  | none => none
  | some (value, rest) => if skip rest = [] then some value else none

/-! ### Strings are read back -/

theorem hexValue_digitChar {digit : Nat} (hdigit : digit < 16) :
    hexValue (Nat.digitChar digit) = some digit :=
  (show ∀ digit < 16, hexValue (Nat.digitChar digit) = some digit by decide) digit hdigit

variable {code : Nat}

theorem readHex4_unicodeEscape (hcode : code < 0x10000) (rest : List Char) :
    readHex4 ((unicodeEscape code ++ rest).drop 2) = some (code, rest) := by
  change readHex4 (Nat.digitChar _ :: Nat.digitChar _ :: Nat.digitChar _ :: Nat.digitChar _ :: rest)
    = _
  simp only [readHex4, hexValue_digitChar (Nat.mod_lt _ (by decide : 0 < 16))]
  congr 2
  omega

theorem toNat_lt_or_gt (char : Char) : char.toNat < 0xd800 ∨ 0xdfff < char.toNat := by
  rcases char.valid with hlow | ⟨hhigh, -⟩
  · exact .inl hlow
  · exact .inr hhigh

theorem toNat_lt (char : Char) : char.toNat < 0x110000 := by
  rcases char.valid with hlow | ⟨-, hhigh⟩
  · exact Nat.lt_of_lt_of_le hlow (by decide)
  · exact hhigh

/-- A surrogate pair stands for the character whose two halves it has. -/
theorem surrogates_eq (hlow : 0x10000 ≤ code) (hhigh : code < 0x110000) :
    0xd800 + (code - 0x10000) / 1024 < 0xdc00 ∧ 0xdc00 + (code - 0x10000) % 1024 < 0xe000 ∧
    0x10000 + (0xd800 + (code - 0x10000) / 1024 - 0xd800) * 1024 +
      (0xdc00 + (code - 0x10000) % 1024 - 0xdc00) = code := by
  omega

theorem readUnicode_of_readHex4 {text rest : List Char}
    (hcode : readHex4 text = some (code, rest)) : readUnicode text =
      if code < 0xd800 ∨ 0xe000 ≤ code then some (Char.ofNat code, rest)
      else if code < 0xdc00 then readLow code rest else none := by
  unfold readUnicode
  rw [hcode]

variable {char : Char}

theorem readUnicode_basic (hbasic : char.toNat < 0x10000) (rest : List Char) :
    readUnicode ((unicodeEscape char.toNat ++ rest).drop 2) = some (char, rest) := by
  have hno := toNat_lt_or_gt char
  have hwhole : char.toNat < 0xd800 ∨ 0xe000 ≤ char.toNat := by omega
  rw [readUnicode_of_readHex4 (readHex4_unicodeEscape hbasic rest), if_pos hwhole, Char.ofNat_toNat]

theorem readLow_unicodeEscape {high low : Nat} (hlow : 0xdc00 ≤ low ∧ low < 0xe000)
    (rest : List Char) : readLow high (unicodeEscape low ++ rest) =
      some (Char.ofNat (0x10000 + (high - 0xd800) * 1024 + (low - 0xdc00)), rest) := by
  have hread := readHex4_unicodeEscape (show low < 0x10000 by omega) rest
  unfold unicodeEscape at hread ⊢
  simp only [cons_append, nil_append, drop_succ_cons, drop_zero] at hread ⊢
  rw [readLow, hread]
  simp only [if_pos hlow]

/-- What follows `\u` in an escaped character above the basic plane. -/
theorem readUnicode_pair (hpair : ¬ char.toNat < 0x10000) (rest : List Char) :
    readUnicode ((unicodeEscape (0xd800 + (char.toNat - 0x10000) / 1024) ++
      (unicodeEscape (0xdc00 + (char.toNat - 0x10000) % 1024) ++ rest)).drop 2) =
      some (char, rest) := by
  obtain ⟨hhigh, hlow, hcode⟩ := surrogates_eq (Nat.le_of_not_lt hpair) (toNat_lt char)
  generalize hfirst : 0xd800 + (char.toNat - 0x10000) / 1024 = first at hhigh hcode ⊢
  generalize hsecond : 0xdc00 + (char.toNat - 0x10000) % 1024 = second at hlow hcode ⊢
  have hlow' : 0xdc00 ≤ second ∧ second < 0xe000 := by omega
  have hfirst' : ¬ (first < 0xd800 ∨ 0xe000 ≤ first) := by omega
  have hread := readHex4_unicodeEscape (show first < 0x10000 by omega)
    (unicodeEscape second ++ rest)
  rw [readUnicode_of_readHex4 hread, if_neg hfirst', if_pos hhigh, readLow_unicodeEscape hlow',
    hcode, Char.ofNat_toNat]

theorem readChars_escapeChar (char : Char) (rest : List Char) (room : Nat) :
    readChars (room + 1) (escapeChar char ++ rest) =
      (readChars room rest).map fun read ↦ (char :: read.1, read.2) := by
  unfold escapeChar
  by_cases hquote : char = '"'
  · subst hquote
    rfl
  by_cases hbackslash : char = '\\'
  · subst hbackslash
    rfl
  by_cases hnewline : char = '\n'
  · subst hnewline
    rfl
  by_cases hreturn : char = '\r'
  · subst hreturn
    rfl
  by_cases htab : char = '\t'
  · subst htab
    rfl
  by_cases hback : char = '\x08'
  · subst hback
    rfl
  by_cases hfeed : char = '\x0c'
  · subst hfeed
    rfl
  rw [if_neg hquote, if_neg hbackslash, if_neg hnewline, if_neg hreturn, if_neg htab, if_neg hback,
    if_neg hfeed]
  by_cases hplain : 32 ≤ char.toNat ∧ char.toNat ≤ 126
  · rw [if_pos hplain]
    simp only [cons_append, nil_append, readChars]
    rw [if_neg hquote, if_neg hbackslash, if_neg (by omega)]
  · rw [if_neg hplain]
    -- both shapes of the escape start with the two characters that the reader takes first
    have hstart : ∀ {escape : List Char} {escaped : Char} {after : List Char},
        readUnicode ((escape ++ rest).drop 2) = some (escaped, after) →
        (∃ tail, escape = '\\' :: 'u' :: tail) → readChars (room + 1) (escape ++ rest) =
          (readChars room after).map fun read ↦ (escaped :: read.1, read.2) := by
      rintro escape escaped after hescape ⟨tail, rfl⟩
      have hsecond : readEscape ('u' :: (tail ++ rest)) = some (escaped, after) := hescape
      simp only [cons_append, readChars]
      rw [if_neg (by decide), if_pos trivial, hsecond]
    by_cases hbasic : char.toNat < 0x10000
    · rw [if_pos hbasic]
      exact hstart (readUnicode_basic hbasic rest) ⟨_, rfl⟩
    · rw [if_neg hbasic]
      refine hstart ?_ ⟨_, rfl⟩
      exact readUnicode_pair hbasic rest

variable {room : Nat}

theorem readChars_flatMap (text rest : List Char) (hroom : text.length < room) :
    readChars room (text.flatMap escapeChar ++ '"' :: rest) = some (text, rest) := by
  induction text generalizing room with
  | nil =>
    obtain ⟨room, rfl⟩ := Nat.exists_eq_add_of_lt hroom
    rfl
  | cons char text ih =>
    obtain ⟨before, rfl⟩ : ∃ before, room = before + 1 := ⟨room - 1, by omega⟩
    rw [flatMap_cons, append_assoc, readChars_escapeChar, ih (by simpa using hroom)]
    rfl

theorem length_escapeChar_pos (char : Char) : 0 < (escapeChar char).length := by
  unfold escapeChar unicodeEscape
  split_ifs <;> simp

theorem length_le_flatMap (text : List Char) : text.length ≤ (text.flatMap escapeChar).length := by
  induction text with
  | nil => exact Nat.le_refl 0
  | cons char text ih =>
    have hchar := length_escapeChar_pos char
    rw [flatMap_cons, length_append, length_cons]
    omega

theorem readString_write (text : String) (rest : List Char) :
    readString (text.toList.flatMap escapeChar ++ '"' :: rest) = some (text, rest) := by
  unfold readString
  have hlength := length_le_flatMap text.toList
  rw [readChars_flatMap text.toList rest (by simp only [length_append]; omega),
    map_some, String.ofList_toList]

/-- What may stand behind a value. -/
def Ends (rest : List Char) : Prop := ∀ char ∈ rest.head?, isNumberChar char = false

theorem takeWhile_of_ends {lexeme rest : List Char} (hlexeme : ∀ char ∈ lexeme, isNumberChar char)
    (hrest : Ends rest) : (lexeme ++ rest).takeWhile isNumberChar = lexeme ∧
      (lexeme ++ rest).dropWhile isNumberChar = rest := by
  have hnone : rest.takeWhile isNumberChar = [] ∧ rest.dropWhile isNumberChar = rest := by
    cases rest with
    | nil => exact ⟨rfl, rfl⟩
    | cons char rest =>
      have hchar : ¬ isNumberChar char = true := by
        rw [hrest char rfl]
        decide
      exact ⟨takeWhile_cons_of_neg hchar, dropWhile_cons_of_neg hchar⟩
  rw [takeWhile_append_of_pos hlexeme, dropWhile_append_of_pos hlexeme, hnone.1, hnone.2,
    append_nil]
  exact ⟨rfl, rfl⟩

theorem head?_toDigits {number : Nat} (hnumber : 0 < number) :
    (Nat.toDigits 10 number).head? ≠ some '0' := by
  induction number using Nat.strongRecOn with
  | ind number ih =>
    by_cases hsmall : number < 10
    · rw [Nat.toDigits_of_lt_base hsmall]
      interval_cases number <;> decide
    · rw [Nat.toDigits_of_base_le (by decide) (by omega)]
      have hhigh := ih (number / 10) (by omega) (by omega)
      cases hdigits : Nat.toDigits 10 (number / 10) with
      | nil => exact absurd hdigits Nat.toDigits_ne_nil
      | cons digit digits =>
        rw [hdigits] at hhigh
        exact hhigh

theorem isDigit_of_mem_toDigits {number : Nat}
    (hchar : char ∈ Nat.toDigits 10 number) : char.isDigit = true :=
  Nat.isDigit_of_mem_toDigits (by decide) (by decide) hchar

theorem isWhole_toDigits (number : Nat) : isWhole (Nat.toDigits 10 number) = true := by
  unfold isWhole
  by_cases hzero : number = 0
  · subst hzero
    decide
  · have hall : (Nat.toDigits 10 number).all Char.isDigit = true :=
      all_eq_true.mpr fun _ hchar ↦ isDigit_of_mem_toDigits hchar
    simp [hall, Nat.toDigits_ne_nil, head?_toDigits (Nat.pos_of_ne_zero hzero)]

theorem unsigned_toDigits (number : Nat) :
    unsigned (Nat.toDigits 10 number) = Nat.toDigits 10 number ∧
      (Nat.toDigits 10 number).head? ≠ some '-' := by
  cases hdigits : Nat.toDigits 10 number with
  | nil => exact absurd hdigits Nat.toDigits_ne_nil
  | cons digit digits =>
    have hdigit : digit.isDigit = true := isDigit_of_mem_toDigits (hdigits ▸ mem_cons_self)
    have hne : digit ≠ '-' := by
      rintro rfl
      cases hdigit
    exact ⟨if_neg hne, fun hhead ↦ hne (Option.some.inj hhead)⟩

theorem readNumber_writeInt (read : String → Option (Rat × String)) (value : Int) :
    readNumber read (writeInt value) = some (.int value) := by
  cases value with
  | ofNat value =>
    obtain ⟨hsame, hhead⟩ := unsigned_toDigits value
    change readNumber read (Nat.toDigits 10 value) = _
    unfold readNumber
    rw [hsame, if_pos (isWhole_toDigits value)]
    simp only [if_neg hhead, Nat.ofDigitChars_ten_toDigits]
    rfl
  | negSucc value =>
    have hsame : unsigned ('-' :: Nat.toDigits 10 (value + 1)) = Nat.toDigits 10 (value + 1) := rfl
    change readNumber read ('-' :: Nat.toDigits 10 (value + 1)) = _
    unfold readNumber
    rw [hsame, if_pos (isWhole_toDigits (value + 1))]
    simp only [head?_cons, if_pos, Nat.ofDigitChars_ten_toDigits]
    rfl

theorem isNumberChar_of_mem_writeInt {value : Int} (hchar : char ∈ writeInt value) :
    isNumberChar char = true := by
  unfold isNumberChar
  cases value with
  | ofNat value =>
    rw [isDigit_of_mem_toDigits hchar]
    rfl
  | negSucc value =>
    rcases mem_cons.mp hchar with rfl | hdigit
    · decide
    · rw [isDigit_of_mem_toDigits hdigit]
      rfl

theorem spells_writeInt (read : String → Option (Rat × String)) (value : Int) :
    Spells read (writeInt value) (.int value) :=
  ⟨fun _ hchar ↦ isNumberChar_of_mem_writeInt hchar, readNumber_writeInt read value⟩

/-! ### Values are read back -/

mutual

/-- What JSON text can hold: no key twice in an object, every float with the text that it prints
as. -/
def Holdable : Json → Prop
  | .null | .bool _ | .int _ | .str _ => True
  | .float value text => Spells reader.read text.toList (.float value text)
  | .arr elements => HoldableElements elements
  | .obj fields => (fields.map Prod.fst).Nodup ∧ HoldableFields fields

def HoldableElements : List Json → Prop
  | [] => True
  | value :: rest => Holdable value ∧ HoldableElements rest

def HoldableFields : List (String × Json) → Prop
  | [] => True
  | (_, value) :: rest => Holdable value ∧ HoldableFields rest

end

mutual

/-- The room that the reader needs for a value. -/
def weight : Json → Nat
  | .null | .bool _ | .int _ | .float _ _ | .str _ => 1
  | .arr elements => 1 + weightElements elements
  | .obj fields => 1 + weightFields fields

def weightElements : List Json → Nat
  | [] => 0
  | value :: rest => 1 + weight value + weightElements rest

def weightFields : List (String × Json) → Nat
  | [] => 0
  | (_, value) :: rest => 1 + weight value + weightFields rest

end

variable {reader}

theorem skip_of_not_blank (hchar : isBlank char = false) (rest : List Char) :
    skip (char :: rest) = char :: rest := by
  exact dropWhile_cons_of_neg (by rw [hchar]; decide)

theorem isBlank_of_isNumberChar (hchar : isNumberChar char = true) : isBlank char = false := by
  unfold isBlank
  have hne : ∀ blank : Char, isNumberChar blank = false → char ≠ blank := by
    rintro blank hblank rfl
    rw [hchar] at hblank
    cases hblank
  simp [hne ' ' (by decide), hne '\t' (by decide), hne '\n' (by decide), hne '\r' (by decide)]

variable {value : Json}

theorem readValue_number {lexeme rest : List Char}
    (hspells : Spells reader.read lexeme value) (hrest : Ends rest) :
    readValue reader (room + 1) (lexeme ++ rest) = some (value, rest) := by
  obtain ⟨hlexeme, hvalue⟩ := hspells
  cases lexeme with
  | nil => cases hvalue
  | cons char lexeme =>
    have hchar := hlexeme char mem_cons_self
    have hne : ∀ other : Char, isNumberChar other = false → char ≠ other := by
      rintro other hother rfl
      rw [hchar] at hother
      cases hother
    obtain ⟨htake, hdrop⟩ := takeWhile_of_ends hlexeme hrest
    rw [cons_append] at htake hdrop
    rw [cons_append, readValue, skip_of_not_blank (isBlank_of_isNumberChar hchar)]
    simp only [if_neg (hne '"' (by decide)), if_neg (hne '[' (by decide)),
      if_neg (hne '\x7b' (by decide)), if_pos hchar, htake, hdrop, hvalue, map_some]

theorem ends_cons (hchar : isNumberChar char = false) (rest : List Char) : Ends (char :: rest) := by
  intro other hother
  cases hother
  exact hchar

/-- What follows the first element of a list that is written out. -/
theorem writeElements_cons (value : Json) (values : List Json) (rest : List Char) :
    (writeElements [','] [':'] (value :: values) ++ ']' :: rest) = write [','] [':'] value ++
        (if values = [] then ']' :: rest
          else ',' :: (writeElements [','] [':'] values ++ ']' :: rest)) := by
  cases values with
  | nil => rfl
  | cons next values => simp [writeElements]

theorem writeFields_cons (key : String) (value : Json) (fields : List (String × Json))
    (rest : List Char) : (writeFields [','] [':'] ((key, value) :: fields) ++ '\x7d' :: rest) =
      '"' :: (key.toList.flatMap escapeChar ++ '"' :: ':' :: (write [','] [':'] value ++
        (if fields = [] then '\x7d' :: rest
          else ',' :: (writeFields [','] [':'] fields ++ '\x7d' :: rest)))) := by
  cases fields with
  | nil | cons next fields => simp [writeFields, writeString]

theorem exists_write_eq_cons (hvalue : Holdable reader value) : ∃ char tail,
    write [','] [':'] value = char :: tail ∧ isBlank char = false ∧ char ≠ ']' := by
  have hnumber : ∀ {lexeme : List Char} {number : Json}, Spells reader.read lexeme number →
      ∃ char tail, lexeme = char :: tail ∧ isBlank char = false ∧ char ≠ ']' := by
    rintro lexeme number ⟨hlexeme, hread⟩
    cases lexeme with
    | nil => cases hread
    | cons char tail =>
      have hchar := hlexeme char mem_cons_self
      refine ⟨char, tail, rfl, isBlank_of_isNumberChar hchar, ?_⟩
      rintro rfl
      cases hchar
  cases value with
  | null => exact ⟨_, _, rfl, by decide, by decide⟩
  | bool value => cases value <;> exact ⟨_, _, rfl, by decide, by decide⟩
  | int value =>
    exact hnumber (spells_writeInt reader.read value)
  | float value text =>
    exact hnumber hvalue
  | str text | arr elements | obj fields => exact ⟨_, _, rfl, by decide, by decide⟩

theorem Holdable.length_pos (hvalue : Holdable reader value) :
    0 < (write [','] [':'] value).length := by
  obtain ⟨char, tail, htext, -⟩ := exists_write_eq_cons hvalue
  rw [htext]
  exact Nat.succ_pos _

variable (reader)

def ReadsValues (room : Nat) : Prop :=
  ∀ (value : Json) (rest : List Char), Holdable reader value → Ends rest → weight value ≤ room →
    readValue reader room (write [','] [':'] value ++ rest) = some (value, rest)

def ReadsElements (room : Nat) : Prop :=
  ∀ (value : Json) (values : List Json) (rest : List Char), Holdable reader value →
    HoldableElements reader values → weightElements (value :: values) ≤ room →
    readElements reader room (writeElements [','] [':'] (value :: values) ++ ']' :: rest) =
      some (value :: values, rest)

/-- In this room, written items are read back, behind those that were read before. -/
def ReadsFields (room : Nat) : Prop :=
  ∀ (key : String) (value : Json) (fields read : List (String × Json)) (rest : List Char),
    Holdable reader value → HoldableFields reader fields →
    ((read ++ (key, value) :: fields).map Prod.fst).Nodup →
    weightFields ((key, value) :: fields) ≤ room →
    readFields reader room read
      (writeFields [','] [':'] ((key, value) :: fields) ++ '\x7d' :: rest) =
      some (read ++ (key, value) :: fields, rest)

variable {reader}

theorem readsValues_succ (helements : ReadsElements reader room)
    (hfields : ReadsFields reader room) : ReadsValues reader (room + 1) := by
  intro value rest hvalue hrest hroom
  cases value with
  | null => rfl
  | bool value => cases value <;> rfl
  | int value =>
    exact readValue_number (spells_writeInt reader.read value) hrest
  | float value text =>
    exact readValue_number hvalue hrest
  | str text =>
    change readValue reader (room + 1) ('"' :: (_ ++ ['"']) ++ rest) = _
    rw [cons_append, append_assoc, singleton_append, readValue, skip_of_not_blank (by decide)]
    simp only [if_pos, readString_write, map_some]
  | arr elements =>
    simp only [weight] at hroom
    change readValue reader (room + 1) ('[' :: (_ ++ [']']) ++ rest) = _
    rw [cons_append, append_assoc, singleton_append, readValue, skip_of_not_blank (by decide)]
    simp only [if_neg (show ¬ '[' = '"' by decide), if_pos]
    cases elements with
    | nil => rfl
    | cons first elements =>
      obtain ⟨char, tail, htext, hblank, hclosing⟩ := exists_write_eq_cons hvalue.1
      have hread := helements first elements rest hvalue.1 hvalue.2 (by omega)
      rw [writeElements_cons, htext, cons_append] at hread ⊢
      rw [skip_of_not_blank hblank]
      split
      · next heq => exact absurd (List.cons.inj heq).1 hclosing
      · rw [hread]
        rfl
  | obj fields =>
    simp only [weight] at hroom
    change readValue reader (room + 1) ('\x7b' :: (_ ++ ['\x7d']) ++ rest) = _
    rw [cons_append, append_assoc, singleton_append, readValue, skip_of_not_blank (by decide)]
    simp only [if_neg (show ¬ '\x7b' = '"' by decide), if_neg (show ¬ '\x7b' = '[' by decide),
      if_pos]
    cases fields with
    | nil => rfl
    | cons first fields =>
      obtain ⟨key, value⟩ := first
      have hread := hfields key value fields [] rest hvalue.2.1 hvalue.2.2 hvalue.1 (by omega)
      rw [writeFields_cons] at hread ⊢
      rw [skip_of_not_blank (by decide)]
      split
      · next heq => exact absurd (List.cons.inj heq).1 (by decide)
      · rw [hread]
        rfl

theorem readsElements_succ (hvalues : ReadsValues reader room)
    (helements : ReadsElements reader room) : ReadsElements reader (room + 1) := by
  intro value values rest hvalue hrest hroom
  simp only [weightElements] at hroom
  rw [writeElements_cons, readElements]
  cases values with
  | nil =>
    rw [if_pos rfl, hvalues value _ hvalue (ends_cons (by decide) rest) (by omega)]
    rfl
  | cons next values =>
    rw [if_neg (cons_ne_nil _ _), hvalues value _ hvalue (ends_cons (by decide) _) (by omega)]
    have hread := helements next values rest hrest.1 hrest.2
      (by simp only [weightElements] at hroom ⊢; omega)
    simp only [skip_of_not_blank (show isBlank ',' = false by decide), hread, map_some]

theorem readsFields_succ (hvalues : ReadsValues reader room)
    (hfields : ReadsFields reader room) : ReadsFields reader (room + 1) := by
  intro key value fields read rest hvalue hrest hkeys hroom
  simp only [weightFields] at hroom
  have hnew : key ∉ read.map Prod.fst := by
    rw [map_append, map_cons] at hkeys
    exact fun hmem ↦ (List.nodup_append.mp hkeys).2.2 key hmem key mem_cons_self rfl
  rw [writeFields_cons, readFields, skip_of_not_blank (by decide)]
  simp only [readString_write, skip_of_not_blank (show isBlank ':' = false by decide)]
  cases fields with
  | nil =>
    rw [if_pos rfl, hvalues value _ hvalue (ends_cons (by decide) rest) (by omega)]
    simp only [skip_of_not_blank (show isBlank '\x7d' = false by decide),
      OrderedDict.upsert_of_notMem hnew]
  | cons next fields =>
    obtain ⟨nextKey, nextValue⟩ := next
    rw [if_neg (cons_ne_nil _ _), hvalues value _ hvalue (ends_cons (by decide) _) (by omega)]
    have hread := hfields nextKey nextValue fields (read ++ [(key, value)]) rest hrest.1 hrest.2
      (by simpa using hkeys) (by simp only [weightFields] at hroom ⊢; omega)
    simp only [skip_of_not_blank (show isBlank ',' = false by decide),
      OrderedDict.upsert_of_notMem hnew, hread, append_assoc, singleton_append]

theorem weight_pos (value : Json) : 0 < weight value := by
  cases value <;> simp only [weight] <;> omega

theorem reads_written (room : Nat) :
    ReadsValues reader room ∧ ReadsElements reader room ∧ ReadsFields reader room := by
  induction room with
  | zero =>
    refine ⟨fun value _ _ _ hroom ↦ ?_, fun value values _ _ _ hroom ↦ ?_,
      fun key value fields _ _ _ _ _ hroom ↦ ?_⟩
    · exact absurd hroom (Nat.not_le_of_gt (weight_pos value))
    · simp only [weightElements] at hroom
      omega
    · simp only [weightFields] at hroom
      omega
  | succ room ih =>
    obtain ⟨hvalues, helements, hfields⟩ := ih
    exact ⟨readsValues_succ helements hfields, readsElements_succ hvalues helements,
      readsFields_succ hvalues hfields⟩

mutual

theorem weight_le_length (value : Json) (hvalue : Holdable reader value) :
    weight value ≤ (write [','] [':'] value).length := by
  cases value with
  | null | bool value | int value | float value text | str text => exact hvalue.length_pos
  | arr elements =>
    have helements := weightElements_le_length elements hvalue
    simp only [weight, write, length_cons, length_append, length_nil]
    omega
  | obj fields =>
    have hfields := weightFields_le_length fields hvalue.2
    simp only [weight, write, length_cons, length_append, length_nil]
    omega

theorem weightElements_le_length (elements : List Json)
    (helements : HoldableElements reader elements) :
    weightElements elements ≤ (writeElements [','] [':'] elements).length + 1 := by
  match elements with
  | [] => exact Nat.zero_le _
  | [value] =>
    have hvalue := weight_le_length value helements.1
    simp only [weightElements, writeElements]
    omega
  | value :: next :: rest =>
    have hvalue := weight_le_length value helements.1
    have hrest := weightElements_le_length (next :: rest) (by
      exact helements.2)
    simp only [weightElements, writeElements, length_append, length_cons, length_nil] at hrest ⊢
    omega

theorem weightFields_le_length (fields : List (String × Json))
    (hfields : HoldableFields reader fields) :
    weightFields fields ≤ (writeFields [','] [':'] fields).length + 1 := by
  match fields with
  | [] => exact Nat.zero_le _
  | [(key, value)] =>
    have hvalue := weight_le_length value hfields.1
    simp only [weightFields, writeFields, length_append, length_cons, length_nil]
    omega
  | (key, value) :: (nextKey, nextValue) :: rest =>
    have hvalue := weight_le_length value hfields.1
    have hrest := weightFields_le_length ((nextKey, nextValue) :: rest) (by
      exact hfields.2)
    simp only [weightFields, writeFields, length_append, length_cons, length_nil] at hrest ⊢
    omega

end

theorem loads_write (hvalue : Holdable reader value) :
    loads reader (String.ofList (write [','] [':'] value)) = some value := by
  have hread := (@reads_written reader ((write [','] [':'] value).length + 1)).1 value [] hvalue
    (fun _ hchar ↦ by cases hchar) (Nat.le_succ_of_le (weight_le_length value hvalue))
  rw [append_nil] at hread
  unfold loads
  rw [String.toList_ofList, hread]
  rfl

/-! ### The canonical form -/

theorem insertField_perm (field : String × Json) (fields : List (String × Json)) :
    (Json.insertField field fields).Perm (field :: fields) := by
  induction fields with
  | nil => exact List.Perm.refl _
  | cons head rest ih =>
    unfold Json.insertField
    split
    · exact (ih.cons head).trans (.swap field head rest)
    · exact List.Perm.refl _

theorem map_fst_canonicalFields_perm (fields : List (String × Json)) :
    ((Json.canonicalFields fields).map Prod.fst).Perm (fields.map Prod.fst) := by
  induction fields with
  | nil => exact List.Perm.refl _
  | cons field rest ih =>
    obtain ⟨key, value⟩ := field
    exact ((insertField_perm (key, value.canonical) _).map Prod.fst).trans (ih.cons key)

variable {fields : List (String × Json)}

theorem holdableFields_iff :
    HoldableFields reader fields ↔ ∀ field ∈ fields, Holdable reader field.2 := by
  induction fields with
  | nil => simp [HoldableFields]
  | cons field rest ih =>
    obtain ⟨key, value⟩ := field
    simp [HoldableFields, ih]

theorem holdableElements_iff {elements : List Json} :
    HoldableElements reader elements ↔ ∀ value ∈ elements, Holdable reader value := by
  induction elements with
  | nil => simp [HoldableElements]
  | cons value rest ih => simp [HoldableElements, ih]

mutual

theorem Holdable.canonical (value : Json) (hvalue : Holdable reader value) :
    Holdable reader value.canonical := by
  cases value with
  | null | bool value | int value | float value text | str text => exact hvalue
  | arr elements =>
    exact holdable_canonicalElements elements hvalue
  | obj fields =>
    exact ⟨(map_fst_canonicalFields_perm fields).nodup_iff.mpr hvalue.1,
      holdable_canonicalFields fields hvalue.2⟩

theorem holdable_canonicalElements (elements : List Json)
    (helements : HoldableElements reader elements) :
    HoldableElements reader (Json.canonicalElements elements) := by
  match elements with
  | [] => trivial
  | value :: rest =>
    exact ⟨Holdable.canonical value helements.1, holdable_canonicalElements rest helements.2⟩

theorem holdable_canonicalFields (fields : List (String × Json))
    (hfields : HoldableFields reader fields) :
    HoldableFields reader (Json.canonicalFields fields) := by
  match fields with
  | [] => trivial
  | (key, value) :: rest =>
    rw [holdableFields_iff]
    intro field hfield
    rcases mem_cons.mp ((insertField_perm _ _).mem_iff.mp hfield) with rfl | hrest
    · exact Holdable.canonical value hfields.1
    · exact holdableFields_iff.mp (holdable_canonicalFields rest hfields.2) field hrest

end

def KeysSorted (fields : List (String × Json)) : Prop :=
  fields.Pairwise fun first second ↦ ¬ second.1 < first.1

theorem keysSorted_insertField {field : String × Json}
    (hfields : KeysSorted fields) : KeysSorted (Json.insertField field fields) := by
  induction fields with
  | nil => exact pairwise_singleton _ _
  | cons head rest ih =>
    obtain ⟨hhead, hrest⟩ := pairwise_cons.mp hfields
    unfold Json.insertField
    split
    · next hbefore =>
      refine pairwise_cons.mpr ⟨fun other hother ↦ ?_, ih hrest⟩
      rcases mem_cons.mp ((insertField_perm field rest).mem_iff.mp hother) with rfl | hold
      · exact String.lt_asymm hbefore
      · exact hhead other hold
    · next hbehind =>
      refine pairwise_cons.mpr ⟨fun other hother ↦ ?_, hfields⟩
      rcases mem_cons.mp hother with rfl | hold
      · exact hbehind
      · rw [String.not_lt] at hbehind ⊢
        exact String.le_trans hbehind (String.not_lt.mp (hhead other hold))

theorem keysSorted_canonicalFields (fields : List (String × Json)) :
    KeysSorted (Json.canonicalFields fields) := by
  induction fields with
  | nil => exact List.Pairwise.nil
  | cons field rest ih => exact keysSorted_insertField ih

theorem canonicalFields_of_sorted (hfields : KeysSorted fields) :
    Json.canonicalFields fields = fields.map fun field ↦ (field.1, field.2.canonical) := by
  induction fields with
  | nil => rfl
  | cons field rest ih =>
    obtain ⟨hfield, hrest⟩ := pairwise_cons.mp hfields
    obtain ⟨key, value⟩ := field
    rw [Json.canonicalFields, ih hrest, map_cons]
    cases rest with
    | nil => rfl
    | cons next rest => exact if_neg (hfield next mem_cons_self)

theorem mem_canonicalFields {key : String} : (key, value) ∈ Json.canonicalFields fields ↔
      ∃ original, (key, original) ∈ fields ∧ original.canonical = value := by
  induction fields with
  | nil => simp [Json.canonicalFields]
  | cons field rest ih =>
    obtain ⟨name, original⟩ := field
    rw [Json.canonicalFields, (insertField_perm _ _).mem_iff, mem_cons, ih]
    constructor
    · rintro (heq | ⟨other, hother, heq⟩)
      · cases heq
        exact ⟨original, mem_cons_self, rfl⟩
      · exact ⟨other, mem_cons_of_mem _ hother, heq⟩
    · rintro ⟨other, hother, heq⟩
      rcases mem_cons.mp hother with hhead | hrest
      · cases hhead
        exact .inl (by rw [heq])
      · exact .inr ⟨other, hrest, heq⟩

mutual

theorem canonical_canonical (value : Json) : value.canonical.canonical = value.canonical := by
  cases value with
  | null | bool value | int value | float value text | str text => rfl
  | arr elements =>
    rw [Json.canonical, Json.canonical, canonicalElements_canonicalElements elements]
  | obj fields =>
    rw [Json.canonical, Json.canonical,
      canonicalFields_of_sorted (keysSorted_canonicalFields fields)]
    refine congrArg Json.obj ?_
    conv_rhs => rw [← map_id (Json.canonicalFields fields)]
    refine map_congr_left fun field hfield ↦ ?_
    obtain ⟨original, horiginal, heq⟩ := mem_canonicalFields.mp hfield
    refine Prod.ext rfl ?_
    change field.2.canonical = field.2
    rw [← heq]
    exact canonicalFields_canonical fields (field.1, original) horiginal

theorem canonicalElements_canonicalElements (elements : List Json) :
    Json.canonicalElements (Json.canonicalElements elements) = Json.canonicalElements elements := by
  match elements with
  | [] => rfl
  | value :: rest =>
    rw [Json.canonicalElements, Json.canonicalElements, canonical_canonical value,
      canonicalElements_canonicalElements rest]

theorem canonicalFields_canonical (fields : List (String × Json)) :
    ∀ field ∈ fields, field.2.canonical.canonical = field.2.canonical := by
  match fields with
  | [] => exact fun _ hfield ↦ by cases hfield
  | (key, value) :: rest =>
    intro field hfield
    rcases mem_cons.mp hfield with rfl | hrest
    · exact canonical_canonical value
    · exact canonicalFields_canonical rest field hrest

end

theorem loads_dumps (hvalue : Holdable reader value) :
    loads reader (dumps value) = some value.canonical :=
  loads_write (Holdable.canonical value hvalue)

/-- The written text determines the canonical form. -/
theorem dumps_inj {first second : Json} (hfirst : Holdable reader first)
    (hsecond : Holdable reader second) :
    dumps first = dumps second ↔ first.canonical = second.canonical := by
  constructor
  · intro heq
    have hread := loads_dumps hfirst
    rw [heq, loads_dumps hsecond] at hread
    exact (Option.some.inj hread).symm
  · intro heq
    unfold dumps
    rw [heq]

theorem dumps_canonical (value : Json) : dumps value.canonical = dumps value := by
  unfold dumps
  rw [canonical_canonical]

theorem holdable_of_readNumber {lexeme : List Char}
    (hvalue : readNumber reader.read lexeme = some value) : Holdable reader value := by
  unfold readNumber at hvalue
  split at hvalue
  · cases hvalue
    trivial
  · split at hvalue
    · obtain ⟨⟨number, text⟩, hread, rfl⟩ := map_eq_some_iff.mp hvalue
      exact reader.spells _ number text hread
    · cases hvalue

theorem holdable_of_readConstant {text rest : List Char}
    (hvalue : readConstant text = some (value, rest)) : Holdable reader value := by
  unfold readConstant at hvalue
  split at hvalue <;> cases hvalue <;> trivial

/-- Writing a field keeps the keys apart. -/
theorem holdableFields_upsert {key : String} {value : Json} {fields : List (String × Json)}
    (hvalue : Holdable reader value) (hfields : HoldableFields reader fields) :
    HoldableFields reader (OrderedDict.upsert key value fields) := by
  induction fields with
  | nil => exact ⟨hvalue, trivial⟩
  | cons field rest ih =>
    obtain ⟨name, other⟩ := field
    unfold OrderedDict.upsert
    split
    · exact ⟨hvalue, hfields.2⟩
    · exact ⟨hfields.1, ih hfields.2⟩

/-- In every room, what is read can be held. -/
theorem holdable_read (room : Nat) :
    (∀ text value rest, readValue reader room text = some (value, rest) → Holdable reader value) ∧
    (∀ text elements rest, readElements reader room text = some (elements, rest) →
      HoldableElements reader elements) ∧
    ∀ before text fields rest, readFields reader room before text = some (fields, rest) →
      (before.map Prod.fst).Nodup → HoldableFields reader before →
      (fields.map Prod.fst).Nodup ∧ HoldableFields reader fields := by
  induction room with
  | zero =>
    exact ⟨fun _ _ _ hread ↦ (by cases hread), fun _ _ _ hread ↦ (by cases hread),
      fun _ _ _ _ hread ↦ (by cases hread)⟩
  | succ room ih =>
    obtain ⟨hvalues, helements, hfields⟩ := ih
    refine ⟨fun text value rest hread ↦ ?_, fun text elements rest hread ↦ ?_,
      fun before text fields rest hread hkeys hbefore ↦ ?_⟩
    · rw [readValue] at hread
      split at hread
      · cases hread
      · split at hread
        · obtain ⟨read, -, heq⟩ := map_eq_some_iff.mp hread
          cases heq
          trivial
        · split at hread
          · split at hread
            · cases hread
              trivial
            · obtain ⟨⟨elements, after⟩, hinner, heq⟩ := map_eq_some_iff.mp hread
              cases heq
              exact helements _ _ _ hinner
          · split at hread
            · split at hread
              · cases hread
                exact ⟨nodup_nil, trivial⟩
              · obtain ⟨⟨fields, after⟩, hinner, heq⟩ := map_eq_some_iff.mp hread
                cases heq
                exact hfields _ _ _ _ hinner nodup_nil trivial
            · split at hread
              · obtain ⟨number, hnumber, heq⟩ := map_eq_some_iff.mp hread
                cases heq
                exact holdable_of_readNumber hnumber
              · exact holdable_of_readConstant hread
    · rw [readElements] at hread
      split at hread
      · cases hread
      · next value after hvalue =>
        have hhead := hvalues _ _ _ hvalue
        split at hread
        · obtain ⟨⟨others, last⟩, hinner, heq⟩ := map_eq_some_iff.mp hread
          cases heq
          exact ⟨hhead, helements _ _ _ hinner⟩
        · cases hread
          exact ⟨hhead, trivial⟩
        · cases hread
    · rw [readFields] at hread
      split at hread
      · split at hread
        · cases hread
        · next key _ _ =>
          split at hread
          · split at hread
            · cases hread
            · next value _ hvalue =>
              have hwritten := @holdableFields_upsert reader key value before
                (hvalues _ _ _ hvalue) hbefore
              have hapart := @OrderedDict.nodup_upsert String Json _ key value before hkeys
              split at hread
              · exact hfields _ _ _ _ hread hapart hwritten
              · cases hread
                exact ⟨hapart, hwritten⟩
              · cases hread
          · cases hread
      · cases hread

theorem holdable_loads {text : String} (hread : loads reader text = some value) :
    Holdable reader value := by
  unfold loads at hread
  split at hread
  · cases hread
  · next read rest hvalue =>
    split at hread
    · cases hread
      exact (holdable_read _).1 _ _ _ hvalue
    · cases hread

end JsonText

end AbsoluteZero.Foundations

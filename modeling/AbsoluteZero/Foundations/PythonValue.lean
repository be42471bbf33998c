import AbsoluteZero.Foundations.OrderedDict

/-!
# JSON values under Python's operators

An operation that Python refuses for a type returns the exception it raises (`PyError`).

A float is kept as its exact value together with its `repr`; the rarer escapes of `repr` are not
modelled. `canonical` sorts the keys of every object, and stands for the bytes that `json.dumps`
renders injectively from it.
-/

namespace AbsoluteZero.Foundations

/-- The exceptions raised by the operations below and by their callers. -/
inductive PyError
  | typeError
  | attributeError
  | valueError
  deriving DecidableEq

inductive Json where
  | null
  | bool (value : Bool)
  | int (value : Int)
  | float (value : Rat) (text : String)
  | str (text : String)
  | arr (elements : List Json)
  | obj (fields : List (String × Json))
  deriving Inhabited

namespace Json

mutual

/-- Equality of values, decided by recursion on both. -/
def decEq : (first second : Json) → Decidable (first = second)
  | .null, .null => isTrue rfl
  | .bool a, .bool b => if h : a = b then isTrue (h ▸ rfl) else isFalse fun e ↦ h (bool.inj e)
  | .int a, .int b => if h : a = b then isTrue (h ▸ rfl) else isFalse fun e ↦ h (int.inj e)
  | .float a s, .float b t =>
    if h : a = b ∧ s = t then isTrue (h.1 ▸ h.2 ▸ rfl)
    else isFalse fun e ↦ h ⟨(float.inj e).1, (float.inj e).2⟩
  | .str a, .str b => if h : a = b then isTrue (h ▸ rfl) else isFalse fun e ↦ h (str.inj e)
  | .arr a, .arr b =>
    match decEqElements a b with
    | isTrue h => isTrue (h ▸ rfl)
    | isFalse h => isFalse fun e ↦ h (arr.inj e)
  | .obj a, .obj b =>
    match decEqFields a b with
    | isTrue h => isTrue (h ▸ rfl)
    | isFalse h => isFalse fun e ↦ h (obj.inj e)
  | .null, .bool _ | .null, .int _ | .null, .float _ _ | .null, .str _ | .null, .arr _
  | .null, .obj _ | .bool _, .null | .bool _, .int _ | .bool _, .float _ _ | .bool _, .str _
  | .bool _, .arr _ | .bool _, .obj _ | .int _, .null | .int _, .bool _ | .int _, .float _ _
  | .int _, .str _ | .int _, .arr _ | .int _, .obj _ | .float _ _, .null | .float _ _, .bool _
  | .float _ _, .int _ | .float _ _, .str _ | .float _ _, .arr _ | .float _ _, .obj _
  | .str _, .null | .str _, .bool _ | .str _, .int _ | .str _, .float _ _ | .str _, .arr _
  | .str _, .obj _ | .arr _, .null | .arr _, .bool _ | .arr _, .int _ | .arr _, .float _ _
  | .arr _, .str _ | .arr _, .obj _ | .obj _, .null | .obj _, .bool _ | .obj _, .int _
  | .obj _, .float _ _ | .obj _, .str _ | .obj _, .arr _ => isFalse nofun

def decEqElements : (first second : List Json) → Decidable (first = second)
  | [], [] => isTrue rfl
  | a :: as, b :: bs =>
    match decEq a b, decEqElements as bs with
    | isTrue h, isTrue hrest => isTrue (h ▸ hrest ▸ rfl)
    | isFalse h, _ => isFalse fun e ↦ h (List.cons.inj e).1
    | _, isFalse h => isFalse fun e ↦ h (List.cons.inj e).2
  | [], _ :: _ | _ :: _, [] => isFalse nofun

def decEqFields : (first second : List (String × Json)) → Decidable (first = second)
  | [], [] => isTrue rfl
  | (k, a) :: as, (l, b) :: bs =>
    if hkey : k = l then
      match decEq a b, decEqFields as bs with
      | isTrue h, isTrue hrest => isTrue (hkey ▸ h ▸ hrest ▸ rfl)
      | isFalse h, _ => isFalse fun e ↦ h (Prod.mk.inj (List.cons.inj e).1).2
      | _, isFalse h => isFalse fun e ↦ h (List.cons.inj e).2
    else isFalse fun e ↦ hkey (Prod.mk.inj (List.cons.inj e).1).1
  | [], _ :: _ | _ :: _, [] => isFalse nofun

end

instance : DecidableEq Json := decEq

/-! ### Lookups and types -/

/-- The items of a dict, or none for a value of another type. -/
def fields? : Json → Option (List (String × Json))
  | .obj fields => some fields
  | _ => none

/-- `value.get(key)` on a dict: none when the key is absent or the value is no dict. -/
def get? : Json → String → Option Json
  | .obj fields, key => OrderedDict.find key fields
  | _, _ => none

/-- `value.get(key, default)` on a dict. -/
def getD (value : Json) (key : String) (default : Json) : Json := (value.get? key).getD default

/-- `value[key]` where the key is known to be present, `None` elsewhere. -/
def item (value : Json) (key : String) : Json := value.getD key .null

/-- The elements of a list, none for a value of another type. -/
def elements : Json → List Json
  | .arr elements => elements
  | _ => []

/-- The number of a value for which `isinstance(value, int)` holds; `True` is 1 and `False` 0. -/
def int? : Json → Option Int
  | .int value => some value
  | .bool value => some (if value then 1 else 0)
  | _ => none

/-- The numeric value that takes part in `==` between numbers of different types. -/
def number? : Json → Option Rat
  | .int value => some value
  | .bool value => some (if value then 1 else 0)
  | .float value _ => some value
  | _ => none

/-- `bool(value)`. -/
def truthy : Json → Bool
  | .null => false
  | .bool value => value
  | .int value => value ≠ 0
  | .float value _ => value ≠ 0
  | .str text => text ≠ ""
  | .arr elements => !elements.isEmpty
  | .obj fields => !fields.isEmpty

/-- Lists and dicts cannot be dict keys: hashing one raises `TypeError`. -/
def hashable : Json → Bool
  | .arr _ => false
  | .obj _ => false
  | _ => true

/-- `isinstance(value, str) and value`: a string with at least one character. -/
def nonemptyStr : Json → Bool
  | .str text => text ≠ ""
  | _ => false

variable {value : Json}

theorem exists_text_of_nonemptyStr (hvalue : value.nonemptyStr = true) :
    ∃ text, value = .str text := by
  cases value <;> first | exact ⟨_, rfl⟩ | cases hvalue

theorem ne_null_of_nonemptyStr (hvalue : value.nonemptyStr = true) :
    value ≠ .null := by
  rintro rfl
  cases hvalue

theorem hashable_of_nonemptyStr (hvalue : value.nonemptyStr = true) :
    value.hashable = true := by
  obtain ⟨text, rfl⟩ := exists_text_of_nonemptyStr hvalue
  rfl

/-- `value or default`. -/
def orElse (value default : Json) : Json := if value.truthy then value else default

mutual

/-- `first == second`: numbers by value whatever their types, lists by elements, dicts by keys
whatever their order. -/
def pyEq : Json → Json → Bool
  | .arr a, second =>
    match second with
    | .arr b => pyEqElements a b
    | _ => false
  | .obj a, second =>
    match second with
    | .obj b => a.length == b.length && pyEqFields a b
    | _ => false
  | .null, second => second = .null
  | .str a, second => second = .str a
  | .bool a, second => (Json.bool a).number? == second.number?
  | .int a, second => (Json.int a).number? == second.number?
  | .float a t, second => (Json.float a t).number? == second.number?

def pyEqElements : List Json → List Json → Bool
  | [], second => second.isEmpty
  | a :: as, second =>
    match second with
    | b :: bs => pyEq a b && pyEqElements as bs
    | [] => false

def pyEqFields : List (String × Json) → List (String × Json) → Bool
  | [], _ => true
  | (key, a) :: as, second =>
    (match OrderedDict.find key second with
    | some b => pyEq a b
    | none => false) && pyEqFields as second

end

/-- `value in values` for a list of values. -/
def isIn (value : Json) (values : List Json) : Bool := values.any fun other ↦ value.pyEq other

/-- The characters of a string between single quotes, as `repr` writes them. -/
def quoted (text : String) : String :=
  "'" ++ String.join (text.toList.map fun char ↦
    if char = '\'' then "\\'" else if char = '\\' then "\\\\" else if char = '\n' then "\\n"
    else if char = '\r' then "\\r" else if char = '\t' then "\\t" else String.singleton char) ++ "'"

mutual

/-- `repr(value)`. -/
def repr : Json → String
  | .null => "None"
  | .bool value => if value then "True" else "False"
  | .int value => toString value
  | .float _ text => text
  | .str text => quoted text
  | .arr elements => "[" ++ ", ".intercalate (reprElements elements) ++ "]"
  | .obj fields => "\x7b" ++ ", ".intercalate (reprFields fields) ++ "\x7d"

def reprElements : List Json → List String
  | [] => []
  | value :: rest => repr value :: reprElements rest

def reprFields : List (String × Json) → List String
  | [] => []
  | (key, value) :: rest => (quoted key ++ ": " ++ repr value) :: reprFields rest

end

/-- `str(value)`: a string is its own text, every other value prints as `repr`. -/
def pyStr : Json → String
  | .str text => text
  | value => value.repr

/-- `first + "|" + second`: defined on two strings, a `TypeError` on anything else. -/
def joinBar : Json → Json → Except PyError String
  | .str first, .str second => .ok (first ++ "|" ++ second)
  | _, _ => .error .typeError

/-- `list(value)`: the elements of a list, the characters of a string, the keys of a dict, and a
`TypeError` for a value that is not iterable. -/
def iterate : Json → Except PyError (List Json)
  | .arr elements => .ok elements
  | .str text => .ok (text.toList.map fun char ↦ .str (String.singleton char))
  | .obj fields => .ok (fields.map fun field ↦ .str field.1)
  | _ => .error .typeError

/-- Insert a field before the first field whose key is not smaller. -/
def insertField (field : String × Json) : List (String × Json) → List (String × Json)
  | [] => [field]
  | head :: rest => if head.1 < field.1 then head :: insertField field rest else
    field :: head :: rest

mutual

/-- The value with the keys of every dict in it sorted. -/
def canonical : Json → Json
  | .null => .null
  | .bool value => .bool value
  | .int value => .int value
  | .float value text => .float value text
  | .str text => .str text
  | .arr elements => .arr (canonicalElements elements)
  | .obj fields => .obj (canonicalFields fields)

def canonicalElements : List Json → List Json
  | [] => []
  | value :: rest => canonical value :: canonicalElements rest

def canonicalFields : List (String × Json) → List (String × Json)
  | [] => []
  | (key, value) :: rest => insertField (key, canonical value) (canonicalFields rest)

end

theorem find_insertField (key : String) (field : String × Json) (fields : List (String × Json)) :
    OrderedDict.find key (insertField field fields) =
      if field.1 = key then some field.2 else OrderedDict.find key fields := by
  induction fields with
  | nil => rfl
  | cons head rest ih =>
    unfold insertField
    by_cases hbefore : head.1 < field.1
    · rw [if_pos hbefore, OrderedDict.find_cons, OrderedDict.find_cons, ih]
      by_cases hhead : head.1 = key
      · have hfield : field.1 ≠ key := by
          rintro rfl
          exact (String.ne_of_lt hbefore) hhead
        rw [if_pos hhead, if_neg hfield, if_pos hhead]
      · rw [if_neg hhead, if_neg hhead]
    · rw [if_neg hbefore]
      rfl

theorem find_canonicalFields (key : String) (fields : List (String × Json)) :
    OrderedDict.find key (canonicalFields fields) =
      (OrderedDict.find key fields).map canonical := by
  induction fields with
  | nil => rfl
  | cons field rest ih =>
    obtain ⟨name, value⟩ := field
    rw [canonicalFields, find_insertField, OrderedDict.find_cons, ih]
    by_cases hname : name = key
    · rw [if_pos hname, if_pos hname]
      rfl
    · rw [if_neg hname, if_neg hname]

theorem get?_canonical_obj (fields : List (String × Json)) (key : String) :
    (Json.obj fields).canonical.get? key = ((Json.obj fields).get? key).map canonical :=
  find_canonicalFields key fields

theorem canonical_eq_str {text : String} (hvalue : value.canonical = .str text) :
    value = .str text := by
  cases value <;> simp_all [canonical]

end Json

end AbsoluteZero.Foundations

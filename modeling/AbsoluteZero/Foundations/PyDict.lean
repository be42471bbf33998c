import AbsoluteZero.Foundations.PythonValue

/-!
# Dictionaries keyed by values

Two keys are one key when `hash` and `==` say so: `1`, `1.0` and `True` are (`DictKey`). The dict
keeps the key object that was written first. JSON text has only strings as keys, and
`PyDict.throughJson` is the dict that `json.loads` reads from what `json.dumps` wrote.
-/

namespace AbsoluteZero.Foundations

open OrderedDict

/-- A key up to `hash` and `==`. -/
inductive DictKey
  | none
  | text (text : String)
  | number (value : Rat)
  deriving DecidableEq

namespace Json

/-- `hash(value)`: the key that a value is, and a `TypeError` for a list or a dict. -/
def dictKey : Json → Except PyError DictKey
  | .null => .ok .none
  | .str text => .ok (.text text)
  | .bool value => .ok (.number (if value then 1 else 0))
  | .int value => .ok (.number value)
  | .float value _ => .ok (.number value)
  | .arr _ | .obj _ => .error .typeError

/-- The text that `json.dumps` writes for a key. -/
def keyText : Json → String
  | .null => "null"
  | .bool value => if value then "true" else "false"
  | .str text => text
  | value => value.repr

end Json

/-- A dict: its items in insertion order, each with the key object that was written first. -/
abbrev PyDict (Value : Type) := OrderedDict DictKey (Json × Value)

namespace PyDict

variable {Value : Type}

variable (dict : PyDict Value)

def value? (key : DictKey) : Option Value := (dict.get? key).map Prod.snd

/-- `dict[object] = value`, where the object hashes to the key. -/
def write (key : DictKey) (object : Json) (value : Value) : PyDict Value :=
  dict.insert key (((dict.get? key).map Prod.fst).getD object, value)

theorem value?_write (key other : DictKey) (object : Json) (value : Value) :
    (dict.write key object value).value? other =
      if key = other then some value else dict.value? other := by
  unfold value? write
  rw [get?_insert]
  split <;> rfl

/-! ### JSON text -/

/-- `json.loads(json.dumps(dict))`: every key is a string, and of two keys with one text the later
item counts. -/
def throughJson : PyDict Value :=
  dict.items.foldl (fun read item ↦
    read.write (.text item.2.1.keyText) (.str item.2.1.keyText) item.2.2) .empty

def TextKeyed : Prop :=
  ∀ item ∈ dict.items, ∃ text, item.1 = .text text ∧ item.2.1 = .str text

theorem textKeyed_empty : TextKeyed (OrderedDict.empty : PyDict Value) := nofun

theorem TextKeyed.write {dict : PyDict Value} (hdict : dict.TextKeyed) (text : String)
    (value : Value) : (dict.write (.text text) (.str text) value).TextKeyed := by
  intro item hitem
  have hget := (get?_eq_some_iff _).mpr hitem
  unfold PyDict.write at hget
  rw [get?_insert] at hget
  split at hget
  · next hkey =>
    obtain ⟨hobject, -⟩ := Prod.mk.inj (Option.some.inj hget)
    refine ⟨text, hkey.symm, ?_⟩
    cases hold : dict.get? (.text text) with
    | none => rw [← hobject, hold]; rfl
    | some old =>
      obtain ⟨text', hkey', hobject'⟩ := hdict _ ((get?_eq_some_iff _).mp hold)
      rw [← hobject, hold, DictKey.text.inj hkey']
      exact hobject'
  · exact hdict _ ((get?_eq_some_iff _).mp hget)

theorem items_foldl_write {items : List (DictKey × Json × Value)} {read : PyDict Value}
    (hitems : ∀ item ∈ items, ∃ text, item.1 = .text text ∧ item.2.1 = .str text)
    (hnodup : ((read.items ++ items).map Prod.fst).Nodup) : (items.foldl (fun read item ↦
      read.write (.text item.2.1.keyText) (.str item.2.1.keyText) item.2.2) read).items =
      read.items ++ items := by
  induction items generalizing read with
  | nil => simp
  | cons item rest ih =>
    obtain ⟨key, object, value⟩ := item
    obtain ⟨text, hkey, hobject⟩ := hitems _ List.mem_cons_self
    subst hkey hobject
    have habsent : DictKey.text text ∉ read.items.map Prod.fst := by
      intro hmem
      rw [List.map_append, List.nodup_append] at hnodup
      exact hnodup.2.2 _ hmem (.text text) (by simp) rfl
    have hnone : read.get? (.text text) = none := (get?_eq_none_iff _).mpr habsent
    have hwrite : (read.write (.text text) (.str text) value).items =
        read.items ++ [(.text text, .str text, value)] := by
      unfold write
      rw [hnone]
      exact upsert_of_notMem habsent
    have hrest : ∀ item ∈ rest, ∃ text, item.1 = DictKey.text text ∧ item.2.1 = Json.str text :=
      fun other hother ↦ hitems other (List.mem_cons_of_mem _ hother)
    change (rest.foldl _ (read.write (.text text) (.str text) value)).items = _
    rw [ih hrest (by rw [hwrite]; simpa using hnodup), hwrite, List.append_assoc]
    rfl

theorem throughJson_eq_self {dict : PyDict Value} (hdict : dict.TextKeyed) :
    dict.throughJson = dict := by
  ext1
  exact items_foldl_write hdict (by simpa [OrderedDict.empty] using dict.nodup)

end PyDict

end AbsoluteZero.Foundations

import Mathlib.Order.Defs.Unbundled

/-!
# Method calls that may raise

A method call changes the object it is called on and then returns or raises; what it changed before
it raised stays changed. `Call.after` and `Call.outcome` are computed along the call, and a
reflexive and transitive relation that holds of its parts holds of the call (`Within.bind`,
`Within.forM`).
-/

namespace AbsoluteZero.Foundations

/-- A call on an object: it returns a result or raises an error, and keeps its changes. -/
abbrev Call (Object Error Result : Type) := ExceptT Error (StateM Object) Result

namespace Call

variable {Object Error Result Result' : Type}

variable (call : Call Object Error Result)

def after (object : Object) : Object := (call.run object).2

/-- What a call returns or raises. -/
def outcome (object : Object) : Except Error Result :=
  (call.run object).1

/-! ### Computing a call -/

@[simp] theorem after_pure (result : Result) (object : Object) :
    (pure result : Call Object Error Result).after object = object := rfl

@[simp] theorem outcome_pure (result : Result) (object : Object) :
    (pure result : Call Object Error Result).outcome object = .ok result := rfl

@[simp] theorem after_throw (error : Error) (object : Object) :
    (throw error : Call Object Error Result).after object = object := rfl

@[simp] theorem outcome_throw (error : Error) (object : Object) :
    (throw error : Call Object Error Result).outcome object = .error error := rfl

variable (object : Object)

@[simp] theorem after_get :
    (get : Call Object Error Object).after object = object := rfl

@[simp] theorem outcome_get :
    (get : Call Object Error Object).outcome object = .ok object := rfl

@[simp] theorem after_set (next object : Object) :
    (set next : Call Object Error PUnit).after object = next := rfl

@[simp] theorem outcome_set (next object : Object) :
    (set next : Call Object Error PUnit).outcome object = .ok ⟨⟩ := rfl

@[simp] theorem after_modify (change : Object → Object) (object : Object) :
    (modify change : Call Object Error PUnit).after object = change object := rfl

@[simp] theorem outcome_modify (change : Object → Object) (object : Object) :
    (modify change : Call Object Error PUnit).outcome object = .ok ⟨⟩ := rfl

section

variable (call : Call Object Error Result)

section

variable (next : Result → Call Object Error Result')

theorem run_bind : (call >>= next).run object = match call.outcome object with
      | .ok result => (next result).run (call.after object)
      | .error error => (.error error, call.after object) := by
  change (ExceptT.bind call next).run object = _
  simp only [ExceptT.bind, ExceptT.run, ExceptT.mk, outcome, after]
  change (ExceptT.bindCont next (call object).1) (call object).2 = _
  cases (call object).1 <;> rfl

/-- A sequence of two calls stops where the first one raises. -/
theorem after_bind : (call >>= next).after object = match call.outcome object with
      | .ok result => (next result).after (call.after object)
      | .error _ => call.after object := by
  rw [after, run_bind]
  cases call.outcome object <;> rfl

theorem outcome_bind : (call >>= next).outcome object =
      match call.outcome object with
      | .ok result => (next result).outcome (call.after object)
      | .error error => .error error := by
  rw [outcome, run_bind]
  cases call.outcome object <;> rfl

end

section

variable (handle : Error → Call Object Error Result)

include handle

theorem run_tryCatch : (tryCatch call handle).run object = match call.outcome object with
      | .ok result => (.ok result, call.after object)
      | .error error => (handle error).run (call.after object) := by
  change (ExceptT.tryCatch call handle).run object = _
  simp only [ExceptT.tryCatch, ExceptT.run, ExceptT.mk, outcome, after]
  change (match (call object).1 with
    | .ok result => pure (.ok result)
    | .error error => handle error : StateM Object (Except Error Result)) (call object).2 = _
  cases (call object).1 <;> rfl

theorem after_tryCatch :
    (tryCatch call handle).after object = match call.outcome object with
      | .ok _ => call.after object
      | .error error => (handle error).after (call.after object) := by
  rw [after, run_tryCatch]
  cases call.outcome object <;> rfl

theorem outcome_tryCatch :
    (tryCatch call handle).outcome object = match call.outcome object with
      | .ok result => .ok result
      | .error error => (handle error).outcome (call.after object) := by
  rw [outcome, run_tryCatch]
  cases call.outcome object <;> rfl

end

end

variable {handle : Error → Call Object Error Result} {object : Object}

/-- A first call that returns does so before the handler is looked at. -/
theorem run_tryCatch_bind {call : Call Object Error Result'}
    {next : Result' → Call Object Error Result}
    {middle : Result'} (hreturns : call.outcome object = .ok middle) :
    (tryCatch (call >>= next) handle).run object =
      (tryCatch (next middle) handle).run (call.after object) := by
  rw [run_tryCatch, run_tryCatch, outcome_bind, after_bind, hreturns]

variable {call : Call Object Error Result} {next : Result → Call Object Error Result'}

theorem bind_returns {result : Result'} (hreturns : (call >>= next).outcome object = .ok result) :
    ∃ middle, call.outcome object = .ok middle ∧
      (next middle).outcome (call.after object) = .ok result ∧
      (call >>= next).after object = (next middle).after (call.after object) := by
  rw [outcome_bind] at hreturns
  rw [after_bind]
  cases hcall : call.outcome object with
  | ok middle =>
    rw [hcall] at hreturns
    exact ⟨middle, rfl, hreturns, rfl⟩
  | error error =>
    rw [hcall] at hreturns
    cases hreturns

/-- After a first call that returns, the sequence is the second call. -/
theorem bind_of_returns
    (next : Result → Call Object Error Result') {object middle : Object} {result : Result}
    (hreturns : call.outcome object = .ok result) (hafter : call.after object = middle) :
    (call >>= next).outcome object = (next result).outcome middle ∧
      (call >>= next).after object = (next result).after middle := by
  rw [outcome_bind, after_bind, hreturns, hafter]
  exact ⟨rfl, rfl⟩

/-- After a first call that raises, there is no second one. -/
theorem bind_of_raises
    (next : Result → Call Object Error Result') {object middle : Object} {error : Error}
    (hraises : call.outcome object = .error error) (hafter : call.after object = middle) :
    (call >>= next).outcome object = .error error ∧ (call >>= next).after object = middle := by
  rw [outcome_bind, after_bind, hraises]
  exact ⟨rfl, hafter⟩

theorem after_bind_pure (result : Result') (object : Object) :
    (call >>= fun _ ↦ pure result).after object = call.after object := by
  rw [after_bind]
  cases call.outcome object <;> rfl

theorem after_bind_throw (error : Error) (object : Object) :
    (call >>= fun _ ↦ (throw error : Call Object Error Result')).after object =
      call.after object := by
  rw [after_bind]
  cases call.outcome object <;> rfl

theorem outcome_get_bind (next : Object → Call Object Error Result) (object : Object) :
    (get >>= next).outcome object = (next object).outcome object := rfl

@[simp] theorem after_get_bind (next : Object → Call Object Error Result) (object : Object) :
    (get >>= next).after object = (next object).after object := rfl

@[simp] theorem after_modify_bind (change : Object → Object)
    (next : PUnit → Call Object Error Result) (object : Object) :
    (modify change >>= next).after object = (next ⟨⟩).after (change object) := rfl

@[simp] theorem after_ite (condition : Prop) [Decidable condition]
    (first second : Call Object Error Result) (object : Object) :
    (if condition then first else second).after object =
      if condition then first.after object else second.after object := by
  split <;> rfl

theorem outcome_mapM_of_reads {Item : Type} {body : Item → Call Object Error Result}
    {value : Item → Result} {items : List Item}
    (hreads : ∀ item ∈ items, (body item).outcome object = .ok (value item) ∧
      (body item).after object = object) :
    (items.mapM body).outcome object = .ok (items.map value) ∧
      (items.mapM body).after object = object := by
  induction items with
  | nil => exact ⟨rfl, rfl⟩
  | cons item rest ih =>
    obtain ⟨hitem, hkept⟩ := hreads item List.mem_cons_self
    obtain ⟨hrest, hrestKept⟩ := ih fun other hother ↦ hreads other (List.mem_cons_of_mem _ hother)
    rw [List.mapM_cons, outcome_bind, after_bind, hitem, hkept]
    simp only
    rw [outcome_bind, after_bind, hrest, hrestKept]
    exact ⟨rfl, rfl⟩

/-! ### Calls on a part -/

structure Part (Object Component : Type) where
  read : Object → Component
  replace : Component → Object → Object
  read_replace : ∀ component object, read (replace component object) = component

def on {Component : Type} (part : Part Object Component) (call : Call Component Error Result) :
    Call Object Error Result :=
  ExceptT.mk fun object ↦
    ((call.run (part.read object)).1, part.replace (call.run (part.read object)).2 object)

@[simp] theorem after_on {Component : Type} (part : Part Object Component)
    (call : Call Component Error Result) (object : Object) :
    (call.on part).after object = part.replace (call.after (part.read object)) object := rfl

@[simp] theorem outcome_on {Component : Type} (part : Part Object Component)
    (call : Call Component Error Result) (object : Object) :
    (call.on part).outcome object = call.outcome (part.read object) := rfl

def raising {Error' : Type} (wrap : Error → Error') (call : Call Object Error Result) :
    Call Object Error' Result :=
  ExceptT.adapt wrap call

@[simp] theorem after_raising {Error' : Type} (wrap : Error → Error')
    (call : Call Object Error Result) (object : Object) :
    (call.raising wrap).after object = call.after object := rfl

@[simp] theorem outcome_raising {Error' : Type} (wrap : Error → Error')
    (call : Call Object Error Result) (object : Object) :
    (call.raising wrap).outcome object = (call.outcome object).mapError wrap := rfl

def Within (related : Object → Object → Prop) (call : Call Object Error Result) : Prop :=
  ∀ object, related object (call.after object)

variable {related : Object → Object → Prop}

theorem Within.bind [IsTrans Object related] (hcall : Within related call)
    (hnext : ∀ result, Within related (next result)) : Within related (call >>= next) := by
  intro object
  rw [after_bind]
  cases call.outcome object with
  | ok result => exact trans_of related (hcall object) (hnext result _)
  | error error => exact hcall object

theorem Within.pure [Std.Refl related] (result : Result) :
    Within related (pure result : Call Object Error Result) :=
  fun object ↦ refl_of related object

theorem Within.throw [Std.Refl related] (error : Error) :
    Within related (throw error : Call Object Error Result) :=
  fun object ↦ refl_of related object

theorem Within.tryCatch [IsTrans Object related] (hcall : Within related call)
    (hhandle : ∀ error, Within related (handle error)) : Within related (tryCatch call handle) := by
  intro object
  rw [after_tryCatch]
  cases call.outcome object with
  | ok result => exact hcall object
  | error error => exact trans_of related (hcall object) (hhandle error _)

theorem Within.forM [Std.Refl related] [IsTrans Object related] {Item : Type}
    {body : Item → Call Object Error PUnit} (items : List Item)
    (hbody : ∀ item ∈ items, Within related (body item)) : Within related (items.forM body) := by
  induction items with
  | nil => exact fun object ↦ refl_of related object
  | cons item rest ih =>
    refine Within.bind (hbody item List.mem_cons_self) fun _ ↦ ?_
    exact ih fun other hother ↦ hbody other (List.mem_cons_of_mem _ hother)

/-- On objects that are alike, the call answers the same and leaves objects that are alike. -/
def Respects (alike : Object → Object → Prop) (call : Call Object Error Result) : Prop :=
  ∀ object other, alike object other →
    call.outcome object = call.outcome other ∧ alike (call.after object) (call.after other)

namespace Respects

variable {alike : Object → Object → Prop}

theorem pure (alike : Object → Object → Prop) (result : Result) :
    Respects alike (pure result : Call Object Error Result) :=
  fun _ _ halike ↦ ⟨rfl, halike⟩

theorem throw (alike : Object → Object → Prop) (error : Error) :
    Respects alike (throw error : Call Object Error Result) :=
  fun _ _ halike ↦ ⟨rfl, halike⟩

theorem bind {call : Call Object Error Result}
    (hcall : Respects alike call) (hnext : ∀ result, Respects alike (next result)) :
    Respects alike (call >>= next) := by
  intro object other halike
  obtain ⟨houtcome, hafter⟩ := hcall object other halike
  rw [outcome_bind, outcome_bind, after_bind, after_bind, ← houtcome]
  cases call.outcome object with
  | ok result => exact hnext result _ _ hafter
  | error error => exact ⟨rfl, hafter⟩

theorem tryCatch {call : Call Object Error Result}
    (hcall : Respects alike call) (hhandle : ∀ error, Respects alike (handle error)) :
    Respects alike (tryCatch call handle) := by
  intro object other halike
  obtain ⟨houtcome, hafter⟩ := hcall object other halike
  rw [outcome_tryCatch, outcome_tryCatch, after_tryCatch, after_tryCatch, ← houtcome]
  cases call.outcome object with
  | ok result => exact ⟨rfl, hafter⟩
  | error error => exact hhandle error _ _ hafter

/-- A call that reads the object first. -/
theorem get_bind {next : Object → Call Object Error Result}
    (hnext : ∀ object other, alike object other →
      (next object).outcome object = (next other).outcome other ∧
        alike ((next object).after object) ((next other).after other)) :
    Respects alike (get >>= next) :=
  hnext

end Respects

end Call

end AbsoluteZero.Foundations

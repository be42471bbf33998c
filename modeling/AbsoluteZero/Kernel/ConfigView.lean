import AbsoluteZero.Foundations.PythonValue

/-!
# The versioned configuration snapshot

`validate` is the structural check a snapshot has to pass, and `ConfigView` is a snapshot together
with the proof that it passed; the accessors return plain JSON values wherever the check promises
nothing.

A row of the transition table is read through seven keys (`Row`). An absent key reads as `row.get`
gives it; an absent `actions` is kept apart from a null one.
-/

namespace AbsoluteZero.Kernel

open Foundations

/-! ### Validation -/

/-- The types named by `REQUIRED_KEYS`. -/
inductive PyType
  | int
  | list
  | dict

/-- `isinstance(value, typ)`. -/
def PyType.admits : PyType → Json → Bool
  | .int, value => value.int?.isSome
  | .list, .arr _ => true
  | .dict, .obj _ => true
  | _, _ => false

/-- The keys a snapshot must have, with their types, in the order in which they are checked. -/
def requiredKeys : List (String × PyType) :=
  [("version", .int), ("inbound_events", .list), ("envelope_schemas", .dict),
    ("routing_table", .dict), ("gates", .dict), ("transitions", .dict), ("fault_policy", .dict)]

/-- Run a check on every element of a list, stopping at the first failure. -/
def checkAll {Item : Type} (check : Item → Except String Unit) : List Item → Except String Unit
  | [] => .ok ()
  | item :: rest =>
    match check item with
    | .ok () => checkAll check rest
    | .error reason => .error reason

def checkKey (data : Json) (required : String × PyType) : Except String Unit :=
  match data.get? required.1 with
  | none => .error ("config.missing:" ++ required.1)
  | some value =>
    if required.2.admits value then .ok () else .error ("config.bad_type:" ++ required.1)

def checkPolicy (policy : Json) (key : String) : Except String Unit :=
  match (policy.item key).int? with
  | some bound => if bound < 0 then .error ("config.bad_fault_policy:" ++ key) else .ok ()
  | none => .error ("config.bad_fault_policy:" ++ key)

/-- One row of the transition table: a dict with a next state and an emission list. -/
def checkRow (key : String) (row : Json) : Except String Unit :=
  if (row.get? "next").isSome && (row.get? "emit").isSome then .ok ()
  else .error ("config.bad_transition_row:" ++ key)

/-- One entry of the transition table: a nonempty list of rows. -/
def checkTransition (transition : String × Json) : Except String Unit :=
  match transition.2 with
  | .arr (row :: rows) => checkAll (checkRow transition.1) (row :: rows)
  | _ => .error ("config.bad_transition:" ++ transition.1)

/-- The structural check of a snapshot, with the reason of the first failure. -/
def validate (data : Json) : Except String Unit :=
  match data with
  | .obj _ =>
    match checkAll (checkKey data) requiredKeys with
    | .error reason => .error reason
    | .ok () =>
      match checkAll (checkPolicy (data.item "fault_policy"))
          ["max_replans", "max_active_requests"] with
      | .error reason => .error reason
      | .ok () => checkAll checkTransition ((data.item "transitions").fields?.getD [])
  | _ => .error "config.not_mapping"

structure ConfigView where
  data : Json
  valid : validate data = .ok ()

/-- The view of a snapshot, or the reason why it is refused. -/
def ConfigView.ofData (data : Json) : Except String ConfigView :=
  match hvalid : validate data with
  | .ok () => .ok ⟨data, hvalid⟩
  | .error reason => .error reason

theorem ConfigView.data_of_ofData {data : Json} {view : ConfigView}
    (hview : ofData data = .ok view) : view.data = data := by
  unfold ofData at hview
  split at hview
  · cases hview
    rfl
  · cases hview

/-- A row of the transition table, through the keys the kernel reads. -/
structure Row where
  guardName : Json := .null
  next : Json
  emit : Json
  gate : Json := .str ""
  decision : Json := .null
  actions : Option Json := none
  chain : Json := .null
  deriving DecidableEq

/-- Read a row out of its dict. -/
def Row.ofJson (row : Json) : Row where
  guardName := row.item "when"
  next := row.item "next"
  emit := row.item "emit"
  gate := row.getD "gate" (.str "")
  decision := row.item "decision"
  actions := row.get? "actions"
  chain := row.item "chain"

def tableRows (transitions : Json) (key : String) : Option (List Row) :=
  (transitions.get? key).map fun rows ↦ rows.elements.map Row.ofJson

namespace ConfigView

/-! ### Accessors -/

variable (view : ConfigView)

def version : Json := view.data.item "version"

def inboundEvents : List Json := (view.data.item "inbound_events").elements

def envelopeSchemas : Json := view.data.item "envelope_schemas"

def routingTable : Json := view.data.item "routing_table"

def gates : Json := view.data.item "gates"

def transitionTable : Json := view.data.item "transitions"

/-- `fault_policy["max_replans"]`, a number by validation. -/
def maxReplans : Int := (((view.data.item "fault_policy").item "max_replans").int?).getD 0

/-- `fault_policy["max_active_requests"]`, a number by validation. -/
def maxActiveRequests : Int :=
  (((view.data.item "fault_policy").item "max_active_requests").int?).getD 0

/-- Transition-table lookup; none when the (state, event) pair is unmatched. Forming the key
raises on anything but two strings. -/
def rows (state event : Json) : Except PyError (Option (List Row)) :=
  match state.joinBar event with
  | .ok key => .ok (tableRows view.transitionTable key)
  | .error raised => .error raised

/-- The key of a version number in the cache of views: `True` and 1 are one key. -/
def versionKey? (version : Json) : Option Int := version.int?

end ConfigView

/-- `_configs`: the views installed so far, under the numbers of their versions. -/
abbrev ConfigCache := OrderedDict Int ConfigView

namespace ConfigCache

/-- `_configs.get(version)`. -/
def at? (cache : ConfigCache) (version : Json) : Option ConfigView :=
  match ConfigView.versionKey? version with
  | some key => cache.get? key
  | none => none

/-- `_configs[view.version] = view`. -/
def put (cache : ConfigCache) (view : ConfigView) : ConfigCache :=
  match ConfigView.versionKey? view.version with
  | some key => cache.insert key view
  | none => cache

end ConfigCache

theorem checkAll_eq_ok {Item : Type} {check : Item → Except String Unit} {items : List Item}
    (hitems : checkAll check items = .ok ()) : ∀ item ∈ items, check item = .ok () := by
  induction items with
  | nil => simp
  | cons item rest ih =>
    intro other hother
    unfold checkAll at hitems
    split at hitems
    · next hcheck =>
      rcases List.mem_cons.mp hother with rfl | hrest
      · exact hcheck
      · exact ih hitems other hrest
    · cases hitems

theorem ConfigView.admits (view : ConfigView) (key : String) (typ : PyType)
    (hrequired : (key, typ) ∈ requiredKeys) : typ.admits (view.data.item key) = true := by
  have hvalid := view.valid
  unfold validate at hvalid
  split at hvalid
  · split at hvalid
    · cases hvalid
    · next hkeys =>
      have hkey := checkAll_eq_ok hkeys _ hrequired
      simp only [checkKey] at hkey
      split at hkey
      · cases hkey
      · next value hget =>
        split at hkey
        · next hadmits => simpa [Json.item, Json.getD, hget] using hadmits
        · cases hkey
  · cases hvalid

theorem ConfigView.exists_versionKey (view : ConfigView) :
    ∃ key, versionKey? view.version = some key := by
  have hadmits := view.admits "version" .int (by simp [requiredKeys])
  exact Option.isSome_iff_exists.mp hadmits

/-- A lookup after a view is cached: the view under the number of its version, the old view under
any other. -/
theorem ConfigCache.at?_put (cache : ConfigCache) (view : ConfigView) (version : Json) :
    (cache.put view).at? version =
      if ConfigView.versionKey? version = ConfigView.versionKey? view.version then some view
      else cache.at? version := by
  obtain ⟨key, hkey⟩ := view.exists_versionKey
  simp only [at?, put, hkey]
  cases hversion : ConfigView.versionKey? version with
  | none => simp
  | some other =>
    simp only [OrderedDict.get?_insert, Option.some.injEq, eq_comm]

section

variable {cache : ConfigCache} {view : ConfigView}

@[simp] theorem ConfigCache.at?_put_self : (cache.put view).at? view.version = some view :=
  (at?_put cache view view.version).trans (if_pos rfl)

theorem ConfigCache.exists_at?_put {version : Json}
    (hcached : ∃ other, cache.at? version = some other) :
    ∃ other, (cache.put view).at? version = some other := by
  rw [at?_put]
  split
  · exact ⟨view, rfl⟩
  · exact hcached

/-- What holds of the snapshots cached before and of the one put in holds of those cached after. -/
theorem ConfigCache.of_at?_put {property : Json → ConfigView → Prop}
    (hcached : ∀ version other, cache.at? version = some other → property version other)
    (hview : ∀ version, ConfigView.versionKey? version = ConfigView.versionKey? view.version →
      property version view) (version : Json) (other : ConfigView)
    (hother : (cache.put view).at? version = some other) : property version other := by
  rw [at?_put] at hother
  split at hother
  · next hversion =>
    cases hother
    exact hview version hversion
  · exact hcached version other hother

end

theorem ConfigCache.put_of_at? {cache : ConfigCache} {view : ConfigView}
    (hcached : cache.at? view.version = some view) : cache.put view = cache := by
  obtain ⟨key, hkey⟩ := view.exists_versionKey
  simp only [at?, hkey] at hcached
  simp only [put, hkey]
  exact OrderedDict.insert_of_get? cache hcached

end AbsoluteZero.Kernel

import AbsoluteZero.Foundations.Interleaving
import AbsoluteZero.Rsm.Effects

/-!
# Registers

The entries of a record that events set. What an event writes to a register is told by its family
and its payload alone (`Event.write`); so are the amounts that it adds to the meters and its failure
entry. Whether a reducer goes through depends on the event and on the budget alone
(`exists_reduce`).
-/

namespace AbsoluteZero.Rsm

open Foundations OrderedDict List Option

/-! ### What is read and written -/

inductive Register
  | plan (field : String)
  | task (key : DictKey) (field : String)
  | exec (key : DictKey) (field : String)
  | commitRef
  | context (key : DictKey)
  | gate (key : DictKey) (field : String)
  | lifecycle (field : String)
  deriving DecidableEq

def RequestRecord.read (record : RequestRecord) : Register → Option Json
  | .plan field => record.plan.get? field
  | .task key field => (record.work.tasks.value? key).bind fun entry ↦ entry.get? field
  | .exec key field => (record.work.execs.value? key).bind fun entry ↦ entry.get? field
  | .commitRef => record.work.commitRef
  | .context key => record.context.value? key
  | .gate key field => (record.verification.value? key).bind fun entry ↦ entry.get? field
  | .lifecycle field => record.lifecycle.get? field

def setFields (entry : Block) (fields : List (String × Json)) : Block :=
  fields.foldl (fun entry field ↦ entry.insert field.1 field.2) entry

/-- What a change writes to a register: nothing, a value, or that there is none. -/
def Change.write (register : Register) : Change → Option (Option Json)
  | .plan field value => if register = .plan field then some (some value) else none
  | .task object fields =>
    match register with
    | .task key field =>
      if object.dictKey = .ok key then ((setFields .empty fields).get? field).map some else none
    | _ => none
  | .exec object fields =>
    match register with
    | .exec key field =>
      if object.dictKey = .ok key then ((setFields .empty fields).get? field).map some else none
    | _ => none
  | .commit ref => if register = .commitRef then some (some ref) else none
  | .context object value =>
    match register with
    | .context key => if object.dictKey = .ok key then some (some value) else none
    | _ => none
  | .gate object entry =>
    match register with
    | .gate key field => if object.dictKey = .ok key then some (entry.get? field) else none
    | _ => none
  | .meter _ _ => none
  | .lifecycle block =>
    match register with
    | .lifecycle field => some (block.get? field)
    | _ => none

def Change.amount? (meter : String) : Change → Option Json
  | .meter name amount => if name = meter then some amount else none
  | _ => none

def Event.effect? (event : Event) : Option Effect :=
  (OrderedDict.find event.family effects).map fun effect ↦ effect event.payload

def Event.changes (event : Event) : List Change :=
  event.effect?.elim [] Effect.changes

def Event.write (register : Register) (event : Event) : Option (Option Json) :=
  lastWrite (Change.write register) event.changes

def Event.amounts (meter : String) (event : Event) : List Json :=
  event.changes.filterMap (Change.amount? meter)

def FailureEntry.told (entry : FailureEntry) : String × String × Json :=
  (entry.sourceEventId, entry.family, entry.ref)

/-- The failure entry of an event apart from its position. -/
def Event.failure? (event : Event) : Option (String × String × Json) :=
  (event.effect?.bind Effect.failure).map fun ref ↦ (event.eventId, event.family, ref)

/-- A meter after amounts are added to it. -/
def tally (floatSum : FloatSum) (total : Option Json) (amounts : List Json) :
    Except PyError (Option Json) :=
  amounts.foldlM (fun total amount ↦ (plus floatSum (total.getD (.int 0)) amount).map some) total

/-! ### One change -/

/-- Every key that the change uses can be hashed. -/
def Change.Fits (change : Change) : Prop := ∀ object ∈ change.key?, ∃ key, object.dictKey = .ok key

/-- Every entry under a key has a state, so that an entry is seen in its fields. -/
structure RequestRecord.Stated (record : RequestRecord) : Prop where
  tasks : ∀ key entry, record.work.tasks.value? key = some entry → (entry.get? "state").isSome
  execs : ∀ key entry, record.work.execs.value? key = some entry → (entry.get? "state").isSome
  gates : ∀ key entry, record.verification.value? key = some entry → (entry.get? "state").isSome

theorem get?_setFields (entry : Block) (fields : List (String × Json)) (field : String) :
    (setFields entry fields).get? field =
      ((setFields .empty fields).get? field).or (entry.get? field) := by
  unfold setFields
  induction fields using List.reverseRecOn with
  | nil => rfl
  | append_singleton fields last ih =>
    rw [foldl_append, foldl_append]
    change (OrderedDict.insert _ last.1 last.2).get? field =
      ((OrderedDict.insert _ last.1 last.2).get? field).or _
    rw [get?_insert, get?_insert]
    split
    · rfl
    · exact ih

theorem get?_write_setFields (dict : PyDict Block) (key other : DictKey) (object : Json)
    (fields : List (String × Json)) (field : String) :
    ((dict.write key object (setFields ((dict.value? key).getD .empty) fields)).value? other).bind
        (fun entry ↦ entry.get? field) =
      (if key = other then (setFields .empty fields).get? field else none).or
        ((dict.value? other).bind fun entry ↦ entry.get? field) := by
  rw [PyDict.value?_write]
  by_cases hkey : key = other
  · subst hkey
    rw [if_pos rfl, if_pos rfl, bind_some, get?_setFields]
    cases dict.value? key <;> rfl
  · rw [if_neg hkey, if_neg hkey, none_or]

/-- What a change makes of a record where it goes through. -/
inductive Change.Makes (floatSum : FloatSum) (record : RequestRecord) :
    Change → RequestRecord → Prop
  | plan (field : String) (value : Json) :
      Makes floatSum record (.plan field value)
        { record with plan := record.plan.insert field value }
  | task {object : Json} {key : DictKey} (fields : List (String × Json))
      (hkey : object.dictKey = .ok key) :
      Makes floatSum record (.task object fields)
        { record with
          work :=
            { record.work with
              tasks := record.work.tasks.write key object
                (setFields ((record.work.tasks.value? key).getD .empty) fields) } }
  | exec {object : Json} {key : DictKey} (fields : List (String × Json))
      (hkey : object.dictKey = .ok key) :
      Makes floatSum record (.exec object fields)
        { record with
          work :=
            { record.work with
              execs := record.work.execs.write key object
                (setFields ((record.work.execs.value? key).getD .empty) fields) } }
  | commit (ref : Json) :
      Makes floatSum record (.commit ref) { record with work :=
        { record.work with commitRef := some ref } }
  | context {object : Json} {key : DictKey} (value : Json) (hkey : object.dictKey = .ok key) :
      Makes floatSum record (.context object value)
        { record with context := record.context.write key object value }
  | gate {object : Json} {key : DictKey} (entry : Block) (hkey : object.dictKey = .ok key) :
      Makes floatSum record (.gate object entry)
        { record with verification := record.verification.write key object entry }
  | meter {name : String} {amount total : Json}
      (hplus : plus floatSum ((record.budget.get? name).getD (.int 0)) amount = .ok total) :
      Makes floatSum record (.meter name amount)
        { record with budget := record.budget.insert name total }
  | lifecycle (block : Block) :
      Makes floatSum record (.lifecycle block) { record with lifecycle := block }

variable {dict : PyDict Block}

theorem updateEntry_of_key {object : Json} {key : DictKey}
    (hkey : object.dictKey = .ok key) (fields : List (String × Json)) :
    updateEntry dict object fields =
      .ok (dict.write key object (setFields ((dict.value? key).getD .empty) fields)) := by
  unfold updateEntry
  rw [hkey]
  rfl

theorem raising_eq_ok_iff {Result : Type} {computation : Except PyError Result} {result : Result} :
    raising computation = .ok result ↔ computation = .ok result := by
  cases computation <;> simp [raising]

theorem updateEntry_eq_ok {object : Json} {fields : List (String × Json)} {updated : PyDict Block}
    (hupdated : updateEntry dict object fields = .ok updated) : ∃ key, object.dictKey = .ok key ∧
      updated = dict.write key object (setFields ((dict.value? key).getD .empty) fields) := by
  obtain ⟨key, hkey, hwritten⟩ := Checked.bind_eq_ok_iff.mp hupdated
  cases hwritten
  exact ⟨key, raising_eq_ok_iff.mp hkey, rfl⟩

namespace Change

variable {floatSum : FloatSum} {record next : RequestRecord} {change : Change}

theorem makes_of_apply (happly : change.apply floatSum record = .ok next) :
    change.Makes floatSum record next := by
  cases change with
  | plan field value =>
    cases happly
    exact .plan field value
  | task object fields =>
    obtain ⟨entries, hentries, hnext⟩ := Checked.bind_eq_ok_iff.mp happly
    obtain ⟨key, hkey, rfl⟩ := updateEntry_eq_ok hentries
    cases hnext
    exact .task fields hkey
  | exec object fields =>
    obtain ⟨entries, hentries, hnext⟩ := Checked.bind_eq_ok_iff.mp happly
    obtain ⟨key, hkey, rfl⟩ := updateEntry_eq_ok hentries
    cases hnext
    exact .exec fields hkey
  | commit ref =>
    cases happly
    exact .commit ref
  | context object value =>
    obtain ⟨key, hkey, hnext⟩ := Checked.bind_eq_ok_iff.mp happly
    cases hnext
    exact .context value (raising_eq_ok_iff.mp hkey)
  | gate object entry =>
    obtain ⟨key, hkey, hnext⟩ := Checked.bind_eq_ok_iff.mp happly
    cases hnext
    exact .gate entry (raising_eq_ok_iff.mp hkey)
  | meter name amount =>
    obtain ⟨budget, hcharged, hnext⟩ := Checked.bind_eq_ok_iff.mp happly
    obtain ⟨total, hplus, hbudget⟩ := Checked.bind_eq_ok_iff.mp hcharged
    cases hbudget
    cases hnext
    exact .meter (raising_eq_ok_iff.mp hplus)
  | lifecycle block =>
    cases happly
    exact .lifecycle block

section

variable (hmakes : change.Makes floatSum record next)

include hmakes

theorem Makes.read (register : Register) :
    next.read register = (change.write register).getD (record.read register) := by
  cases hmakes with
  | plan field value =>
    cases register with
    | plan other =>
      simp only [RequestRecord.read, write, get?_insert, Register.plan.injEq]
      by_cases hfield : field = other
      · rw [if_pos hfield, if_pos hfield.symm]
        rfl
      · rw [if_neg hfield, if_neg (Ne.symm hfield)]
        rfl
    | task | exec | commitRef | context | gate | lifecycle => rfl
  | task fields hkey =>
    cases register with
    | task other field =>
      simp only [RequestRecord.read, get?_write_setFields, write, hkey, Except.ok.injEq]
      split <;> cases (setFields .empty fields).get? field <;> rfl
    | plan | exec | commitRef | context | gate | lifecycle => rfl
  | exec fields hkey =>
    cases register with
    | exec other field =>
      simp only [RequestRecord.read, get?_write_setFields, write, hkey, Except.ok.injEq]
      split <;> cases (setFields .empty fields).get? field <;> rfl
    | plan | task | commitRef | context | gate | lifecycle => rfl
  | context value hkey =>
    cases register with
    | context other =>
      simp only [RequestRecord.read, PyDict.value?_write, write, hkey, Except.ok.injEq]
      split <;> rfl
    | plan | task | exec | commitRef | gate | lifecycle => rfl
  | gate entry hkey =>
    cases register with
    | gate other field =>
      simp only [RequestRecord.read, PyDict.value?_write, write, hkey, Except.ok.injEq]
      split <;> rfl
    | plan | task | exec | commitRef | context | lifecycle => rfl
  | commit | meter | lifecycle => cases register <;> rfl

/-- A change adds its amount to the meters. -/
theorem Makes.tally (meter : String) :
    tally floatSum (record.budget.get? meter) (change.amount? meter).toList =
      .ok (next.budget.get? meter) := by
  cases hmakes with
  | @meter name amount total hplus =>
    simp only [amount?, get?_insert]
    by_cases hname : name = meter
    · subst hname
      rw [if_pos rfl, if_pos rfl, toList_some, Rsm.tally, foldlM_cons, hplus]
      rfl
    · rw [if_neg hname, if_neg hname]
      rfl
  | plan | task | exec | commit | context | gate | lifecycle => rfl

theorem Makes.failure :
    next.failure = record.failure := by
  cases hmakes <;> rfl

theorem Makes.fits : change.Fits := by
  intro object hobject
  cases hmakes with
  | task _ hkey | exec _ hkey | context _ hkey | gate _ hkey =>
    cases hobject
    exact ⟨_, hkey⟩
  | plan | commit | meter | lifecycle => cases hobject

end

/-- Assumes: the keys of the change can be hashed, and the meters can take its amounts. The change
goes through. -/
theorem exists_apply (hfits : change.Fits)
    (htally : ∀ meter, ∃ total, Rsm.tally floatSum (record.budget.get? meter)
      (change.amount? meter).toList = .ok total) :
    ∃ next, change.apply floatSum record = .ok next := by
  cases change with
  | plan | commit | lifecycle => exact ⟨_, rfl⟩
  | task object fields | exec object fields =>
    obtain ⟨key, hkey⟩ := hfits object rfl
    rw [apply, updateEntry_of_key hkey]
    exact ⟨_, rfl⟩
  | context object _ | gate object _ =>
    obtain ⟨key, hkey⟩ := hfits object rfl
    rw [apply, hkey]
    exact ⟨_, rfl⟩
  | meter name amount =>
    obtain ⟨total, htotal⟩ := htally name
    rw [amount?, if_pos rfl, toList_some, Rsm.tally, foldlM_cons] at htotal
    rw [apply, charge]
    cases hplus : plus floatSum ((record.budget.get? name).getD (.int 0)) amount with
    | error error =>
      rw [hplus] at htotal
      cases htotal
    | ok sum => exact ⟨_, rfl⟩

def States : Change → Prop
  | .task _ fields | .exec _ fields => ((setFields .empty fields).get? "state").isSome
  | .gate _ entry => (entry.get? "state").isSome
  | .plan _ _ | .commit _ | .context _ _ | .meter _ _ | .lifecycle _ => True

theorem isSome_state_write {fields : List (String × Json)}
    (hfields : ((setFields .empty fields).get? "state").isSome)
    (hdict : ∀ key entry, dict.value? key = some entry → (entry.get? "state").isSome)
    (key : DictKey) (object : Json) (other : DictKey) (entry : Block)
    (hentry : (dict.write key object (setFields ((dict.value? key).getD .empty) fields)).value?
      other = some entry) : (entry.get? "state").isSome := by
  rw [PyDict.value?_write] at hentry
  split at hentry
  · cases hentry
    rw [get?_setFields, isSome_or, hfields, Bool.true_or]
  · exact hdict other entry hentry

theorem Makes.stated (hmakes : change.Makes floatSum record next) (hstates : change.States)
    (hrecord : record.Stated) : next.Stated := by
  cases hmakes with
  | plan | commit | context | meter | lifecycle => exact { hrecord with }
  | task fields hkey =>
    exact ⟨isSome_state_write hstates hrecord.tasks _ _, hrecord.execs, hrecord.gates⟩
  | exec fields hkey =>
    exact ⟨hrecord.tasks, isSome_state_write hstates hrecord.execs _ _, hrecord.gates⟩
  | gate entry hkey =>
    refine ⟨hrecord.tasks, hrecord.execs, fun other written hwritten ↦ ?_⟩
    rw [PyDict.value?_write] at hwritten
    split at hwritten
    · cases hwritten
      exact hstates
    · exact hrecord.gates other written hwritten

end Change

theorem tally_append (floatSum : FloatSum) (total : Option Json) (first second : List Json) :
    tally floatSum total (first ++ second) =
      (tally floatSum total first).bind fun between ↦ tally floatSum between second :=
  foldlM_append

/-- How a record comes out of another one by changes. -/
structure Turns (floatSum : FloatSum) (record : RequestRecord) (changes : List Change)
    (next : RequestRecord) : Prop where
  read : ∀ register,
    next.read register = (lastWrite (Change.write register) changes).getD (record.read register)
  tally : ∀ meter, tally floatSum (record.budget.get? meter)
    (changes.filterMap (Change.amount? meter)) = .ok (next.budget.get? meter)
  failure : next.failure = record.failure
  fits : ∀ change ∈ changes, change.Fits
  stated : (∀ change ∈ changes, change.States) → record.Stated → next.Stated

section Changes

variable {floatSum : FloatSum} {record next : RequestRecord} {changes : List Change}

theorem turns_of_foldlM (hfold : changes.foldlM (Change.apply floatSum) record = .ok next) :
    Turns floatSum record changes next := by
  induction changes generalizing record with
  | nil =>
    cases hfold
    exact ⟨fun _ ↦ rfl, fun _ ↦ rfl, rfl, nofun, fun _ hrecord ↦ hrecord⟩
  | cons change rest ih =>
    rw [foldlM_cons] at hfold
    obtain ⟨changed, happly, hfold⟩ := Checked.bind_eq_ok_iff.mp hfold
    have hmakes := Change.makes_of_apply happly
    have hrest := ih hfold
    refine ⟨fun register ↦ ?_, fun meter ↦ ?_, hrest.failure.trans hmakes.failure, ?_, ?_⟩
    · rw [hrest.read, hmakes.read, ← singleton_append, lastWrite_append, lastWrite_singleton]
      cases lastWrite (Change.write register) rest <;> rfl
    · have hamounts : (change :: rest).filterMap (Change.amount? meter) =
          (change.amount? meter).toList ++ rest.filterMap (Change.amount? meter) := by
        rw [filterMap_cons]
        cases change.amount? meter <;> rfl
      rw [hamounts, tally_append, hmakes.tally meter]
      exact hrest.tally meter
    · intro other hother
      rcases mem_cons.mp hother with rfl | hrest'
      · exact hmakes.fits
      · exact hrest.fits other hrest'
    · intro hstates hrecord
      exact hrest.stated (fun other hother ↦ hstates other (mem_cons_of_mem _ hother))
        (hmakes.stated (hstates change mem_cons_self) hrecord)

/-- Assumes: the keys of the changes can be hashed, and the meters can take their amounts. The
changes go through. -/
theorem exists_foldlM (hfits : ∀ change ∈ changes, change.Fits)
    (htally : ∀ meter, ∃ total, tally floatSum (record.budget.get? meter)
      (changes.filterMap (Change.amount? meter)) = .ok total) :
    ∃ next, changes.foldlM (Change.apply floatSum) record = .ok next := by
  induction changes generalizing record with
  | nil => exact ⟨record, rfl⟩
  | cons change rest ih =>
    have hsplit : ∀ meter, ∃ between total,
        tally floatSum (record.budget.get? meter) (change.amount? meter).toList = .ok between ∧
          tally floatSum between (rest.filterMap (Change.amount? meter)) = .ok total := by
      intro meter
      obtain ⟨total, htotal⟩ := htally meter
      have hamounts : (change :: rest).filterMap (Change.amount? meter) =
          (change.amount? meter).toList ++ rest.filterMap (Change.amount? meter) := by
        rw [filterMap_cons]
        cases change.amount? meter <;> rfl
      rw [hamounts, tally_append] at htotal
      obtain ⟨between, hbetween, htotal⟩ := Checked.bind_eq_ok_iff.mp htotal
      exact ⟨between, total, hbetween, htotal⟩
    obtain ⟨changed, happly⟩ := Change.exists_apply (hfits change mem_cons_self)
      fun meter ↦ ⟨_, (hsplit meter).choose_spec.choose_spec.1⟩
    rw [foldlM_cons, happly]
    refine ih (fun other hother ↦ hfits other (mem_cons_of_mem _ hother)) fun meter ↦ ?_
    obtain ⟨between, total, hbetween, htotal⟩ := hsplit meter
    rw [(Change.makes_of_apply happly).tally meter] at hbetween
    exact ⟨total, (Except.ok.inj hbetween) ▸ htotal⟩

end Changes

/-- A reducer can take the event: its family has one, the payload fits the schema, and the keys can
be hashed. -/
structure Event.Fits (event : Event) : Prop where
  known : event.effect?.isSome
  valid : ∃ payload, validate event.family event = .ok payload
  keys : ∀ change ∈ event.changes, change.Fits

structure Traces (floatSum : FloatSum) (record : RequestRecord) (events : List Event) : Prop where
  read : ∀ register, record.read register = (lastWrite (Event.write register) events).join
  tally : ∀ meter, tally floatSum none (events.flatMap (Event.amounts meter)) =
    .ok (record.budget.get? meter)
  failure : record.failure.map FailureEntry.told = events.filterMap Event.failure?
  stated : record.Stated

theorem traces_birth (floatSum : FloatSum) (requestId : String) (fields : Block) :
    Traces floatSum (birth requestId fields) [] where
  read register := by cases register <;> rfl
  tally _ := rfl
  failure := rfl
  stated := ⟨nofun, nofun, nofun⟩

theorem forall_effect {Holds : String → Effect → Prop}
    (hrows : ∀ row ∈ effects, ∀ payload, Holds row.1 (row.2 payload)) {event : Event}
    {effect : Effect} (heffect : event.effect? = some effect) : Holds event.family effect := by
  obtain ⟨row, hrow, rfl⟩ := map_eq_some_iff.mp heffect
  exact hrows (event.family, row) (mem_of_find hrow) event.payload

theorem exists_family_of_meter (meter : String) :
    ∃ family, ∀ event : Event, event.family ≠ family → event.amounts meter = [] := by
  refine ⟨if meter = "granted" then "task.scheduled" else "cost.recorded", fun event hfamily ↦ ?_⟩
  unfold Event.amounts Event.changes
  cases heffect : event.effect? with
  | none => rfl
  | some effect =>
    refine @forall_effect (fun family effect ↦
      family ≠ (if meter = "granted" then "task.scheduled" else "cost.recorded") →
        effect.changes.filterMap (Change.amount? meter) = []) ?_ _ _ heffect hfamily
    by_cases hgranted : meter = "granted"
    · simp [effects, Change.amount?, hgranted]
    · simp [effects, Change.amount?, hgranted, Ne.symm hgranted]

variable {event : Event}

theorem states_of_mem_changes {change : Change} (hchange : change ∈ event.changes) :
    change.States := by
  unfold Event.changes at hchange
  cases heffect : event.effect? with
  | none =>
    rw [heffect] at hchange
    cases hchange
  | some effect =>
    rw [heffect] at hchange
    refine @forall_effect (fun _ effect ↦ ∀ change ∈ effect.changes, change.States) ?_ _ _ heffect
      change hchange
    simp [effects, Change.States, setFields, verdictEntry, get?_insert]

/-- The ends of a request write its lifecycle and nothing else, and no other family writes it. -/
theorem write_eq_none {register : Register}
    (hregister : event.family ∈ terminalFamilies ↔ ∀ field, register ≠ .lifecycle field) :
    event.write register = none := by
  unfold Event.write Event.changes
  cases heffect : event.effect? with
  | none => rfl
  | some effect =>
    refine @forall_effect (fun family effect ↦
      (family ∈ terminalFamilies ↔ ∀ field, register ≠ .lifecycle field) →
        lastWrite (Change.write register) effect.changes = none) ?_ _ _ heffect hregister
    cases register with
    | lifecycle field => simp [effects, terminalFamilies, lastWrite, Change.write]
    | plan | task | exec | commitRef | context | gate =>
      simp [effects, terminalFamilies, lastWrite, Change.write]

theorem turns_of_reduce {floatSum : FloatSum} {record next : RequestRecord}
    (hreduce : reduce floatSum record event = some (.ok next)) :
    event.Fits ∧ ∃ changed, Turns floatSum record event.changes changed ∧
      next = changed.evolve fun changed ↦
        { changed with failure := (event.effect?.elim record.failure fun effect ↦
            effect.failures event record.failure) } := by
  obtain ⟨effect, changed, heffect, hvalidate, hfold, rfl⟩ := exists_changed_of_reduce hreduce
  have hevent : event.effect? = some (effect event.payload) := by
    unfold Event.effect?
    rw [heffect]
    rfl
  have hchanges : event.changes = (effect event.payload).changes := by
    unfold Event.changes
    rw [hevent]
    rfl
  rw [← hchanges] at hfold
  have hturns := turns_of_foldlM hfold
  refine ⟨⟨?_, ⟨_, hvalidate⟩, hturns.fits⟩, changed, hturns, ?_⟩
  · rw [hevent]
    rfl
  · rw [hevent]
    rfl

/-- Assumes: the event fits, and the meters can take its amounts. Its reducer goes through. -/
theorem exists_reduce {floatSum : FloatSum} {record : RequestRecord} (hevent : event.Fits)
    (htally : ∀ meter, ∃ total, tally floatSum (record.budget.get? meter) (event.amounts meter) =
      .ok total) : ∃ next, reduce floatSum record event = some (.ok next) := by
  obtain ⟨next, hfold⟩ := exists_foldlM hevent.keys htally
  obtain ⟨payload, hvalidate⟩ := hevent.valid
  obtain rfl := payload_of_validate hvalidate
  rw [reduce_eq]
  unfold Event.changes Event.effect? at hfold
  cases heffect : OrderedDict.find event.family effects with
  | none =>
    have hknown := hevent.known
    unfold Event.effect? at hknown
    rw [heffect] at hknown
    cases hknown
  | some effect =>
    rw [heffect] at hfold
    rw [map_some, hvalidate]
    change ∃ next, some (record.take floatSum event (effect event.payload)) = _
    unfold RequestRecord.take
    change (effect event.payload).changes.foldlM _ record = _ at hfold
    rw [hfold]
    exact ⟨_, rfl⟩

namespace Traces

variable {floatSum : FloatSum} {record next : RequestRecord} {events : List Event} {event : Event}

theorem reduced (htraces : Traces floatSum record events)
    (hreduce : reduce floatSum record event = some (.ok next)) :
    Traces floatSum next (events ++ [event]) := by
  obtain ⟨-, changed, hturns, rfl⟩ := turns_of_reduce hreduce
  constructor
  · intro register
    have hread : ∀ failure, (changed.evolve fun changed ↦
        { changed with failure := failure }).read register = changed.read register := by
      intro failure
      cases register <;> rfl
    rw [hread, hturns.read, htraces.read, lastWrite_append, lastWrite_singleton]
    change (event.write register).getD _ = _
    cases event.write register <;> rfl
  · intro meter
    rw [flatMap_append, tally_append, htraces.tally meter, flatMap_singleton]
    exact hturns.tally meter
  · have hentry : [event].filterMap Event.failure? = event.failure?.toList := by
      rw [filterMap_cons]
      cases event.failure? <;> rfl
    rw [filterMap_append, ← htraces.failure, hentry]
    unfold Event.failure? RequestRecord.evolve
    cases event.effect? with
    | none => simp
    | some effect =>
      unfold Effect.failures
      cases hfailure : effect.failure with
      | none => simp [hfailure]
      | some ref => simp [hfailure, FailureEntry.told]
  · have hstated := hturns.stated (fun change ↦ states_of_mem_changes) htraces.stated
    exact { hstated with }

end Traces

end AbsoluteZero.Rsm

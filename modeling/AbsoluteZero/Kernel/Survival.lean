import AbsoluteZero.Kernel.Legality

/-!
# The envelopes that the event loop survives

Validation looks at five fields of an envelope and at the outline of a snapshot; what the handlers
read besides is checked by nobody. `Survives` collects what each branch of `handle` needs:
`handle` returns and leaves a trace of what it does not apply exactly then (`handlesSafely_iff`).
-/

namespace AbsoluteZero.Kernel

open Foundations List

/-- A list, a string or a dict: a value that a `for` loop accepts. -/
def Iterable (value : Json) : Prop := ∃ elements, value.iterate = .ok elements

/-- The emissions and the actions of a row can be read. -/
structure Row.Runnable (row : Row) : Prop where
  emit : Iterable row.emit
  actions : ∀ actions, row.actions = some actions → Iterable actions

/-- A gate definition is a dict, its check can be looked up, and so can the verdict it names. -/
structure GateReadable (gateDef : Json) : Prop where
  dict : gateDef.fields?.isSome = true
  check : (gateDef.item "check").hashable = true
  verdict : gateDef.item "check" = .str "verdict_true" →
    (gateDef.getD "verdict" (.str "verification")).hashable = true

/-- A guard is a string, and if it names a gate then the definition of the gate can be read. -/
def GuardReadable (config : ConfigView) (name : Json) : Prop :=
  ∃ text, name = .str text ∧
    ∀ gate, stripStart "gate:" text = some gate → GateReadable (config.gates.getD gate (.obj []))

/-- Trying the rows in order on an entry: each guard met on the way can be read, and the row whose
guard holds can be applied. -/
def Triable (config : ConfigView) (entry : RequestState) : List Row → Prop
  | [] => True
  | row :: rest =>
    if row.guardName = .null then row.Runnable
    else GuardReadable config row.guardName ∧
      if guardHolds row.guardName entry config = .ok true then row.Runnable
      else Triable config entry rest

/-- The keys of a schema, up to the first one the payload lacks, are strings. -/
def SchemaReadable (payload : Json) : List Json → Prop
  | [] => True
  | .str key :: rest => (payload.get? key).isSome = true → SchemaReadable payload rest
  | _ :: _ => False

def ConfigView.rowsAt (config : ConfigView) (state event : Json) : Option (List Row) :=
  match config.rows state event with
  | .ok rows => rows
  | .error _ => none

structure Appliable (config : ConfigView) (entry : RequestState) (event : Json) : Prop where
  stateText : ∃ text, entry.lifecycleState = .str text
  eventText : ∃ text, event = .str text
  rows : ∀ rows, config.rowsAt entry.lifecycleState event = some rows → Triable config entry rows

/-- A transition by the first row when it is permitted and by the last row when it is not: there are
rows, and the one taken can be applied. -/
def Branches (rows : Option (List Row)) (permitted : Bool) (Next : Row → Prop) : Prop :=
  ∃ first rest, rows = some (first :: rest) ∧
    let row := if permitted then first else (first :: rest).getLast (List.cons_ne_nil _ _)
    row.Runnable ∧ Next row

/-- The routing that follows a permitted admission can be applied. -/
def Routable (config : ConfigView) (declaredType : Json) (row : Row) : Prop :=
  (∃ text, row.next = .str text) ∧ (∃ text, row.chain = .str text) ∧
    Branches (config.rowsAt row.next row.chain) (route declaredType config).1.isSome fun _ ↦ True

def Admits (config : ConfigView) (halted : Bool) (active : Nat) (env : Json) : Bool :=
  match admissionDecide env config halted active with
  | .ok (permitted, _) => permitted
  | .error _ => false

/-- A request can be admitted or refused: unless admission is halted or exhausted its schema can be
read, and the rows for it exist and can be applied. -/
structure Admissible (config : ConfigView) (halted : Bool) (active : Nat) (env : Json) : Prop where
  schema : halted = false → (active : Int) < config.maxActiveRequests →
    ∃ keys, (config.envelopeSchemas.getD (env.item "event_name").pyStr (.arr [])).iterate = .ok keys
      ∧ SchemaReadable (env.item "payload") keys
  rows : Branches (config.rowsAt (.str "created") (.str "request.received"))
    (Admits config halted active env) fun row ↦
      Admits config halted active env = true → row.chain.truthy = true →
        Routable config (Coordinator.admittedEntry env config).declaredType row

/-- What `handle` needs of an envelope about a request. -/
structure RequestSurvives (held? : Option RequestState) (configs : ConfigCache)
    (config : ConfigView) (halted : Bool) (active : Nat) (env : Json) : Prop where
  requestId : (env.item "request_id").hashable = true
  held : ∀ entry, held? = some entry → env.item "event_id" ≠ entry.lastAppliedEventId →
    env.item "event_name" ≠ .str "request.received" →
      Appliable (pinnedView configs config entry) entry (env.item "event_name")
  received : held? = none → env.item "event_name" = .str "request.received" →
    (env.item "request_id").nonemptyStr = true → Admissible config halted active env
  unknown : held? = none → env.item "event_name" ≠ .str "request.received" →
    ∃ text, env.item "event_name" = .str text

/-- What `handle` needs of an inbound value. -/
def Survives (coord : Coordinator) (env : Json) : Prop :=
  Envelope.validate env coord.config.inboundEvents = .ok () →
    env.item "event_name" ≠ .str "config.changed" → env.item "event_name" ∉ sessionEvents →
      RequestSurvives (coord.ledger.get? (env.item "request_id")) coord.configs coord.config
        coord.halted coord.ledger.activeCount env

theorem iterable_actionList_iff (row : Row) : (∃ actions, row.actionList = .ok actions) ↔
      ∀ actions, row.actions = some actions → Iterable actions := by
  cases hactions : row.actions with
  | none => simp [Row.actionList, hactions]
  | some value => simp [Row.actionList, hactions, Iterable]

variable (entry : RequestState)

/-- The unit of a transition can be formed if and only if its row can be read. -/
theorem exists_applied_iff (event eventId : Json) (row : Row)
    (guardResult : Bool) (config : ConfigView) (info : Option (List (String × Json))) :
    (∃ unit, applied entry event eventId row guardResult config info = .ok unit) ↔
      row.Runnable := by
  constructor
  · rintro ⟨unit, happlied⟩
    obtain ⟨emits, actions, hemits, hactions, -⟩ := applied_eq_ok happlied
    exact ⟨⟨emits, hemits⟩, (iterable_actionList_iff row).mp ⟨actions, hactions⟩⟩
  · rintro ⟨⟨emits, hemits⟩, hactions⟩
    obtain ⟨actions, hactions⟩ := (iterable_actionList_iff row).mpr hactions
    simp [applied, hemits, hactions]

theorem result_commit_iff (formed : Except PyError Applied) :
    (Decision.commit formed).result = .ok () ↔ ∃ unit, formed = .ok unit := by
  cases formed <;> simp [Decision.commit]

theorem exists_evaluateGate_iff (gateDef : Json) :
    (∃ permits, evaluateGate entry gateDef = .ok permits) ↔ GateReadable gateDef := by
  unfold evaluateGate
  by_cases hdict : gateDef.fields?.isNone = true
  · rw [if_pos hdict]
    refine iff_of_false (by simp) fun hreadable ↦ ?_
    simpa [Option.isNone_iff_eq_none.mp hdict] using hreadable.dict
  have hsome : gateDef.fields?.isSome = true := by
    simpa [Option.isSome_iff_ne_none] using hdict
  rw [if_neg hdict]
  by_cases hcheck : (gateDef.item "check").hashable = true
  swap
  · rw [if_pos (by simp [hcheck])]
    exact iff_of_false (by simp) fun hreadable ↦ hcheck hreadable.check
  rw [if_neg (by simp [hcheck])]
  by_cases hverdict : gateDef.item "check" = .str "verdict_true"
  swap
  · rw [if_neg hverdict]
    exact iff_of_true ⟨false, rfl⟩ ⟨hsome, hcheck, fun heq ↦ absurd heq hverdict⟩
  rw [if_pos hverdict]
  have hreadable : GateReadable gateDef ↔
      (gateDef.getD "verdict" (.str "verification")).hashable = true :=
    ⟨fun hreadable ↦ hreadable.verdict hverdict, fun hhashable ↦ ⟨hsome, hcheck, fun _ ↦ hhashable⟩⟩
  rw [hreadable, verdictTrue]
  cases gateDef.getD "verdict" (.str "verification") <;> simp [Json.hashable]

theorem exists_guardHolds_iff (name : Json) (entry : RequestState) (config : ConfigView) :
    (∃ permits, guardHolds name entry config = .ok permits) ↔ GuardReadable config name := by
  cases name
  case str text =>
    rw [guardHolds]
    cases hgate : stripStart "gate:" text with
    | some gate =>
      simp only [exists_evaluateGate_iff]
      constructor
      · intro hreadable
        refine ⟨text, rfl, fun other hother ↦ ?_⟩
        cases hgate.symm.trans hother
        exact hreadable
      · rintro ⟨other, hother, hreadable⟩
        cases hother
        exact hreadable gate hgate
    | none =>
      refine iff_of_true ?_ ⟨text, rfl, fun gate hother ↦ ?_⟩
      · split_ifs <;> exact ⟨_, rfl⟩
      · cases hgate.symm.trans hother
  all_goals
    simp [guardHolds, GuardReadable]

/-- Picking a row raises nothing and picks a row that can be applied, if and only if the rows can be
tried. -/
theorem triable_iff (config : ConfigView) (entry : RequestState) (index : Nat) (rows : List Row) :
    Triable config entry rows ↔ ∃ picked, pickRowFrom entry config index rows = .ok picked ∧
        ∀ row guardResult, picked = some (row, guardResult) → row.Runnable := by
  induction rows generalizing index with
  | nil => simp [Triable, pickRowFrom]
  | cons row rest ih =>
    rw [Triable, pickRowFrom]
    by_cases hunguarded : row.guardName = .null
    · rw [if_pos hunguarded, if_pos hunguarded]
      constructor
      · rintro hrunnable
        refine ⟨_, rfl, fun other guardResult hpicked ↦ ?_⟩
        cases hpicked
        exact hrunnable
      · rintro ⟨picked, hpicked, hrunnable⟩
        cases hpicked
        exact hrunnable row _ rfl
    rw [if_neg hunguarded, if_neg hunguarded, ← exists_guardHolds_iff _ entry]
    rcases hguard : guardHolds row.guardName entry config with raised | _ | _
    · simp
    · simp [ih (index + 1)]
    · simp only [if_true, Except.ok.injEq, exists_eq', true_and]
      constructor
      · intro hrunnable
        refine ⟨_, rfl, fun other guardResult hpicked ↦ ?_⟩
        cases hpicked
        exact hrunnable
      · rintro ⟨picked, hpicked, hrunnable⟩
        cases hpicked
        exact hrunnable row _ rfl

theorem exists_checkSchema_iff (payload : Json) (keys : List Json) :
    (∃ refusal, checkSchema payload keys = .ok refusal) ↔ SchemaReadable payload keys := by
  induction keys with
  | nil => simp [checkSchema, SchemaReadable]
  | cons key rest ih =>
    cases key
    case str text =>
      rw [checkSchema, SchemaReadable]
      by_cases hkey : (payload.get? text).isSome = true
      · simp [ih, hkey]
      · simp [hkey]
    all_goals
      simp [checkSchema, SchemaReadable]

/-- The admission decision raises nothing if and only if it is cut short or its schema can be
read. -/
theorem exists_admissionDecide_iff (env : Json) (config : ConfigView) (halted : Bool) (active : Nat)
    : (∃ decision, admissionDecide env config halted active = .ok decision) ↔
      (halted = false → (active : Int) < config.maxActiveRequests →
        ∃ keys, (config.envelopeSchemas.getD (env.item "event_name").pyStr (.arr [])).iterate =
            .ok keys ∧ SchemaReadable (env.item "payload") keys) := by
  unfold admissionDecide
  by_cases hhalted : halted = true
  · simp [hhalted]
  rw [if_neg hhalted]
  by_cases hfull : config.maxActiveRequests ≤ active
  · simp [if_pos hfull, Int.not_lt.mpr hfull]
  rw [if_neg hfull]
  simp only [hhalted, Int.not_le.mp hfull, true_implies]
  rcases (config.envelopeSchemas.getD (env.item "event_name").pyStr (.arr [])).iterate with
    raised | keys
  · simp
  · simp only [Except.ok.injEq, exists_eq_left', ← exists_checkSchema_iff]
    rcases checkSchema (env.item "payload") keys with raised | _ | reason <;> simp

/-! ### Decisions that raise nothing -/

/-- Forming the key of a table succeeds on two strings only. -/
theorem rows_eq_ok_iff (config : ConfigView) (state event : Json) :
    (∃ found, config.rows state event = .ok found) ↔
      (∃ text, state = .str text) ∧ ∃ text, event = .str text := by
  cases state <;> cases event <;> simp [ConfigView.rows, Json.joinBar]

variable {config : ConfigView}

theorem rowsAt_of_rows {state event : Json} {found : Option (List Row)}
    (hrows : config.rows state event = .ok found) : config.rowsAt state event = found := by
  rw [ConfigView.rowsAt, hrows]

theorem not_texts_of_rows {state event : Json} {raised : PyError}
    (hrows : config.rows state event = .error raised) :
    ¬((∃ text, state = .str text) ∧ ∃ text, event = .str text) := by
  rw [← rows_eq_ok_iff config, hrows]
  simp

theorem result_applyDecision_iff (config : ConfigView) (entry : RequestState)
    (event eventId : Json) :
    (applyDecision config entry event eventId).result = .ok () ↔ Appliable config entry event := by
  unfold applyDecision
  rcases hrows : config.rows entry.lifecycleState event with raised | found
  · exact iff_of_false (by simp) fun happliable ↦
      not_texts_of_rows hrows ⟨happliable.stateText, happliable.eventText⟩
  have htexts := (rows_eq_ok_iff config _ _).mp ⟨found, hrows⟩
  have happliable : Appliable config entry event ↔
      ∀ rows, found = some rows → Triable config entry rows :=
    ⟨fun happliable rows hfound ↦ happliable.rows rows ((rowsAt_of_rows hrows).trans hfound),
      fun htriable ↦ ⟨htexts.1, htexts.2, fun rows hfound ↦
        htriable rows ((rowsAt_of_rows hrows).symm.trans hfound)⟩⟩
  rw [happliable]
  rcases found with _ | rows
  · simp
  simp only [Option.some.injEq, forall_eq']
  rw [triable_iff config entry 0]
  change _ ↔ ∃ picked, pickRow rows entry config = .ok picked ∧ _
  rcases pickRow rows entry config with raised | _ | ⟨row, guardResult⟩
  · simp
  · simp
  · simp only [result_commit_iff, exists_applied_iff, Except.ok.injEq, exists_eq_left',
      Option.some.injEq, Prod.mk.injEq, and_imp]
    exact ⟨fun hrunnable other _ hother _ ↦ hother ▸ hrunnable,
      fun hrunnable ↦ hrunnable row guardResult rfl rfl⟩

/-- A transition that branches on a permission raises nothing if and only if there are rows and the
one taken can be applied. -/
theorem branches_iff (rows : Option (List Row)) (permitted : Bool) (Next : Row → Prop) :
    Branches rows permitted Next ↔ match rows with
      | none | some [] => False
      | some (first :: rest) =>
        let row := if permitted then first else (first :: rest).getLast (cons_ne_nil _ _)
        row.Runnable ∧ Next row := by
  unfold Branches
  rcases rows with _ | _ | ⟨first, rest⟩
  · simp
  · simp
  · constructor
    · rintro ⟨other, others, hrows, hbranch⟩
      cases hrows
      exact hbranch
    · intro hbranch
      exact ⟨first, rest, rfl, hbranch⟩

theorem result_routeDecision_iff (chain eventId : Json) (config : ConfigView) :
    (routeDecision entry chain eventId config).result = .ok () ↔
      ((∃ text, entry.lifecycleState = .str text) ∧ (∃ text, chain = .str text)) ∧
        Branches (config.rowsAt entry.lifecycleState chain)
          (route entry.declaredType config).1.isSome fun _ ↦ True := by
  unfold routeDecision
  rcases hrows : config.rows entry.lifecycleState chain with raised | found
  · exact iff_of_false (by simp) fun hroutable ↦ not_texts_of_rows hrows hroutable.1
  rw [rowsAt_of_rows hrows, and_iff_right ((rows_eq_ok_iff config _ _).mp ⟨found, hrows⟩),
    branches_iff]
  rcases found with _ | _ | ⟨first, rest⟩
  · simp
  · simp
  · simp only [result_commit_iff, exists_applied_iff, and_true]

theorem declaredType_doActions (actions : List Json) (event : Json)
    (info : Option (List (String × Json))) :
    (entry.doActions actions event info).declaredType = entry.declaredType := by
  induction actions generalizing entry with
  | nil => rfl
  | cons action rest ih =>
    refine (ih (entry.doAction action event info)).trans ?_
    unfold RequestState.doAction
    split_ifs <;> rfl

variable {entry : RequestState}

theorem applied_state {event eventId : Json} {row : Row}
    {guardResult : Bool} {info : Option (List (String × Json))}
    {unit : Applied} (happlied : applied entry event eventId row guardResult config
      info = .ok unit) :
    unit.entry.lifecycleState = row.next ∧ unit.entry.declaredType = entry.declaredType := by
  obtain ⟨emits, actions, -, -, rfl⟩ := applied_eq_ok happlied
  refine ⟨rfl, ?_⟩
  exact declaredType_doActions entry actions event _

/-- The admission of a nonempty id raises nothing if and only if it can be admitted or refused. -/
theorem result_admitDecision_iff (config : ConfigView) (halted : Bool) (active : Nat) (env : Json)
    (hid : (env.item "request_id").nonemptyStr = true) :
    (admitDecision config halted active env).result = .ok () ↔
      Admissible config halted active env := by
  have hadmissible : Admissible config halted active env ↔
      (∃ decision, admissionDecide env config halted active = .ok decision) ∧
        Branches (config.rowsAt (.str "created") (.str "request.received"))
          (Admits config halted active env) fun row ↦
            Admits config halted active env = true → row.chain.truthy = true →
              Routable config (Coordinator.admittedEntry env config).declaredType row := by
    rw [exists_admissionDecide_iff]
    exact ⟨fun hadmissible ↦ ⟨hadmissible.schema, hadmissible.rows⟩, fun hboth ↦ ⟨hboth.1, hboth.2⟩⟩
  rw [hadmissible, admitDecision, if_neg (by simp [hid]), Admits]
  rcases admissionDecide env config halted active with raised | ⟨permitted, reason⟩
  · simp
  rw [and_iff_right ⟨_, rfl⟩]
  obtain ⟨found, hrows⟩ := (rows_eq_ok_iff config (.str "created") (.str "request.received")).mpr
    ⟨⟨_, rfl⟩, ⟨_, rfl⟩⟩
  rw [rowsAt_of_rows hrows, branches_iff]
  simp only [hrows]
  rcases found with _ | _ | ⟨first, rest⟩
  · simp
  · simp
  dsimp only
  generalize (if permitted then first else (first :: rest).getLast (cons_ne_nil _ _)) = row
  rcases happlied : applied (Coordinator.admittedEntry env config) (.str "request.received")
    (env.item "event_id") row permitted config
    (some [("declared_type", (Coordinator.admittedEntry env config).declaredType),
      ("reason", .str reason)]) with raised | unit
  · refine iff_of_false (by simp) fun hrunnable ↦ ?_
    obtain ⟨unit, hunit⟩ := (exists_applied_iff _ _ _ _ _ _ _).mpr hrunnable.1
    cases happlied.symm.trans hunit
  have hrunnable : row.Runnable := (exists_applied_iff _ _ _ _ _ _ _).mp ⟨unit, happlied⟩
  rw [and_iff_right hrunnable]
  dsimp only
  by_cases hchain : (permitted && row.chain.truthy) = true
  · rw [if_pos hchain]
    simp only [Bool.and_eq_true] at hchain
    simp only [hchain.1, hchain.2, true_implies, result_routeDecision_iff, Routable,
      (applied_state happlied).1, (applied_state happlied).2, and_assoc]
  · rw [if_neg hchain]
    refine iff_of_true rfl fun hpermitted htruthy ↦ absurd ?_ hchain
    rw [hpermitted, htruthy]
    rfl

section RequestSurvives

variable {configs : ConfigCache} {config : ConfigView} {halted : Bool} {active : Nat} {env : Json}

theorem requestSurvives_some_iff :
    RequestSurvives (some entry) configs config halted active env ↔
      (env.item "request_id").hashable = true ∧ (env.item "event_id" ≠ entry.lastAppliedEventId →
          env.item "event_name" ≠ .str "request.received" →
            Appliable (pinnedView configs config entry) entry (env.item "event_name")) := by
  constructor
  · intro hsurvives
    exact ⟨hsurvives.requestId, hsurvives.held entry rfl⟩
  · rintro ⟨hhashable, happliable⟩
    refine ⟨hhashable, fun other hother ↦ ?_, fun hnone ↦ ?_, fun hnone ↦ ?_⟩
    · cases hother
      exact happliable
    · cases hnone
    · cases hnone

theorem requestSurvives_none_iff : RequestSurvives none configs config halted active env ↔
      (env.item "request_id").hashable = true ∧ (env.item "event_name" = .str "request.received" →
          (env.item "request_id").nonemptyStr = true → Admissible config halted active env) ∧
        (env.item "event_name" ≠ .str "request.received" →
          ∃ text, env.item "event_name" = .str text) := by
  constructor
  · intro hsurvives
    exact ⟨hsurvives.requestId, hsurvives.received rfl, hsurvives.unknown rfl⟩
  · rintro ⟨hhashable, hreceived, hunknown⟩
    refine ⟨hhashable, fun entry hentry ↦ ?_, fun _ ↦ hreceived, fun _ ↦ hunknown⟩
    cases hentry

end RequestSurvives

/-- An event of one request is decided without an exception if and only if it meets the
condition. -/
theorem result_requestDecision_iff (held? : Option RequestState) (configs : ConfigCache)
    (config : ConfigView) (halted : Bool) (active : Nat) (env : Json) :
    (requestDecision held? configs config halted active env).result = .ok () ↔
      RequestSurvives held? configs config halted active env := by
  unfold requestDecision
  by_cases hhashable : (env.item "request_id").hashable = true
  swap
  · simp only [hhashable, Bool.not_false, if_true]
    exact iff_of_false (by simp) fun hsurvives ↦ hhashable hsurvives.requestId
  simp only [hhashable, Bool.not_true, Bool.false_eq_true, if_false]
  rcases held? with _ | entry
  · rw [requestSurvives_none_iff, and_iff_right hhashable]
    by_cases hreceived : env.item "event_name" = .str "request.received"
    · simp only [hreceived, if_true, ne_eq, not_true_eq_false, false_implies, and_true,
        true_implies]
      by_cases hid : (env.item "request_id").nonemptyStr = true
      · simp only [hid, true_implies, result_admitDecision_iff config halted active env hid]
      · rw [admitDecision, if_pos (by simp [hid])]
        exact iff_of_true rfl fun hnonempty ↦ absurd hnonempty hid
    · simp only [hreceived, if_false, false_implies, true_and, ne_eq, not_false_eq_true,
        true_implies]
      cases env.item "event_name" <;> simp
  · rw [requestSurvives_some_iff, and_iff_right hhashable]
    by_cases hduplicate : env.item "event_id" = entry.lastAppliedEventId
    · simp [hduplicate]
    by_cases hreceived : env.item "event_name" = .str "request.received"
    · simp [hduplicate, hreceived]
    · simp only [hduplicate, hreceived, if_false, ne_eq, not_false_eq_true, true_implies,
        result_applyDecision_iff]

theorem handle_returns_iff (coord : Coordinator) (env : Json) :
    (coord.handle env).result = .ok () ↔ Survives coord env := by
  rw [(Coordinator.core_handle coord env).2]
  unfold Core.decide Survives
  rw [Coordinator.core_config]
  rcases Envelope.validate env coord.config.inboundEvents with reason | ⟨⟩
  · exact iff_of_true rfl nofun
  rw [imp_iff_right (rfl : (Except.ok () : Except String Unit) = .ok ())]
  by_cases hconfig : env.item "event_name" = .str "config.changed"
  · simp only [if_pos hconfig]
    refine iff_of_true ?_ fun hname ↦ absurd hconfig hname
    unfold configDecision
    split <;> rfl
  by_cases hsession : env.item "event_name" ∈ sessionEvents
  · simp only [if_neg hconfig, if_pos hsession]
    exact iff_of_true rfl fun _ hname ↦ absurd hsession hname
  · simp only [hconfig, hsession, if_false, ne_eq, not_false_eq_true, true_implies]
    exact result_requestDecision_iff _ _ _ _ _ _

/-! ### What an envelope that applies nothing leaves behind -/

def Publishes (before after : Coordinator) (message : Message) : Prop :=
  ∃ call ∈ after.bus.calls.drop before.bus.calls.length, call.message = message

/-- A transition, a configuration change or a session event was applied in between: each leaves a
record of its own. -/
def Applies (before after : Coordinator) : Prop :=
  ∃ record ∈ after.log.drop before.log.length, record.verdict = none

/-- Every entry is what it was, and a fault or a dropped duplicate was reported in between. -/
structure Alerts (before after : Coordinator) : Prop where
  ledger : after.ledger = before.ledger
  reported : (∃ sent : Outbound, sent.eventName = .str "fault.recorded" ∧
      Publishes before after (.envelope sent)) ∨
    ∃ record ∈ after.log.drop before.log.length, record.verdict = some "duplicate" ∧
      Publishes before after (.record record)

/-- `handle` returns, and where it applies nothing it changes no entry and reports. -/
def HandlesSafely (coord : Coordinator) (env : Json) : Prop :=
  (coord.handle env).result = .ok () ∧
    (¬Applies coord (coord.handle env).state → Alerts coord (coord.handle env).state)

namespace Coordinator

/-- Publishing hands over the message first. -/
theorem calls_safePublish (coord : Coordinator) (topic : Json) (message : Message) :
    ∃ delivered more, (coord.safePublish topic message).bus.calls =
      coord.bus.calls ++ ⟨topic, message, delivered⟩ :: more := by
  rcases hattempt : coord.attempt topic message with ⟨published, delivered⟩
  have hcalls : published.bus.calls = coord.bus.calls ++ [⟨topic, message, delivered⟩] := by
    obtain ⟨rfl, rfl⟩ := hattempt
    rfl
  rw [safePublish, hattempt]
  cases delivered with
  | true => exact ⟨_, [], hcalls⟩
  | false =>
    dsimp only
    split
    · exact ⟨_, [], hcalls⟩
    · have hfault : ∃ call, (faultWith publishHalted { published with halted := true }
          "communication.unavailable" none).bus.calls = published.bus.calls ++ [call] := ⟨_, rfl⟩
      obtain ⟨call, hcall⟩ := hfault
      refine ⟨false, [call], ?_⟩
      rw [hcall, hcalls, append_assoc]
      rfl

theorem publishes_safePublish {before coord : Coordinator}
    (hcalls : coord.bus.calls = before.bus.calls) (topic : Json) (message : Message) :
    Publishes before (coord.safePublish topic message) message := by
  obtain ⟨delivered, more, hpublished⟩ := coord.calls_safePublish topic message
  refine ⟨⟨topic, message, delivered⟩, ?_, rfl⟩
  rw [hpublished, hcalls, drop_left]
  exact mem_cons_self

theorem publishes_emitWith (coord : Coordinator) (name requestId payload : Json)
    (config : ConfigView) : ∃ sent : Outbound, sent.eventName = name ∧
      Publishes coord (emitWith safePublish coord name requestId payload config none)
        (.envelope sent) :=
  ⟨_, rfl, @publishes_safePublish coord { coord with outSeq := coord.outSeq + 1 } rfl _ _⟩

theorem alerts_fault (coord : Coordinator) (reason : String) (env : Option Json) :
    Alerts coord (coord.fault reason env) := by
  refine ⟨congrArg Core.ledger (core_fault coord reason env), .inl ?_⟩
  unfold fault faultWith
  split
  · exact publishes_emitWith coord _ _ _ _
  · exact publishes_emitWith coord _ _ _ _

theorem alerts_noop (coord : Coordinator) (entry : RequestState) (env : Json) :
    Alerts coord (coord.logRecord (noopRecord entry env "duplicate")) := by
  refine ⟨ledger_logRecord coord _, .inr ⟨noopRecord entry env "duplicate", ?_, rfl, ?_⟩⟩
  · have hlog := congrArg Core.log (core_logRecord coord (noopRecord entry env "duplicate"))
    rw [core_log] at hlog
    rw [hlog]
    change _ ∈ (coord.log ++ [_]).drop coord.log.length
    rw [drop_left]
    exact mem_singleton_self _
  · exact @publishes_safePublish coord
      { coord with log := coord.log ++ [noopRecord entry env "duplicate"] } rfl _ _

/-- Performing actions of which the first leaves a record of its own applies something. -/
theorem applies_of_core {coord after : Coordinator} {action : Action} {rest : List Action}
    {record : Record} (hcore : after.core = coord.core.perform (action :: rest))
    (hrecord : action.record? coord.config = some record) (hverdict : record.verdict = none) :
    Applies coord after := by
  have hlog : coord.log ++ [record] <+: after.log := by
    have hprefix := Core.log_prefix_perform (coord.core.act action) rest
    rw [Core.log_act, core_config, hrecord] at hprefix
    have hafter : after.log = ((coord.core.act action).perform rest).log := congrArg Core.log hcore
    rw [hafter]
    exact hprefix
  obtain ⟨more, hmore⟩ := hlog
  refine ⟨record, ?_, hverdict⟩
  rw [← hmore, append_assoc, drop_left]
  exact mem_cons_self

variable {env : Json}

theorem actions_admitDecision {halted : Bool} {active : Nat}
    (hid : (env.item "request_id").nonemptyStr = true)
    (hresult : (admitDecision config halted active env).result = .ok ()) :
    ∃ entry event row permitted info unit rest,
      applied entry event (env.item "event_id") row permitted config info = .ok unit ∧
        (admitDecision config halted active env).actions = .commit unit :: rest := by
  revert hresult
  rw [admitDecision, if_neg (by simp [hid])]
  rcases admissionDecide env config halted active with raised | ⟨permitted, reason⟩
  · rintro ⟨⟩
  rcases config.rows (.str "created") (.str "request.received") with
    raised | _ | _ | ⟨first, rest⟩
  · rintro ⟨⟩
  · rintro ⟨⟩
  · rintro ⟨⟩
  dsimp only
  generalize (if permitted then first else (first :: rest).getLast (cons_ne_nil _ _)) = row
  rcases happlied : applied (Coordinator.admittedEntry env config) (.str "request.received")
    (env.item "event_id") row permitted config
    (some [("declared_type", (Coordinator.admittedEntry env config).declaredType),
      ("reason", .str reason)]) with raised | unit
  · rintro ⟨⟩
  dsimp only
  by_cases hchain : (permitted && row.chain.truthy) = true
  · rw [if_pos hchain]
    exact fun _ ↦ ⟨_, _, _, _, _, unit, _, happlied, rfl⟩
  · rw [if_neg hchain]
    exact fun _ ↦ ⟨_, _, _, _, _, unit, _, happlied, rfl⟩

/-- The record of a transition is its own. -/
theorem verdict_applied {event eventId : Json} {row : Row}
    {guardResult : Bool} {info : Option (List (String × Json))}
    {unit : Applied} (happlied : applied entry event eventId row guardResult config
      info = .ok unit) :
    unit.record.verdict = none := by
  obtain ⟨emits, actions, -, -, rfl⟩ := applied_eq_ok happlied
  rfl

variable {coord : Coordinator}

theorem applies_or_alerts_apply {event env : Json}
    (hreturns : (coord.apply entry event env).result = .ok ()) :
    Applies coord (coord.apply entry event env).state ∨
      Alerts coord (coord.apply entry event env).state := by
  revert hreturns
  unfold apply
  dsimp only
  rcases (coord.pinned entry).rows entry.lifecycleState event with raised | _ | rows
  · rintro ⟨⟩
  · exact fun _ ↦ .inr (alerts_fault _ _ _)
  dsimp only
  rcases pickRow rows entry (coord.pinned entry) with raised | _ | ⟨row, guardResult⟩
  · rintro ⟨⟩
  · exact fun _ ↦ .inr (alerts_fault _ _ _)
  dsimp only
  rcases coord.transition_eq entry event (env.item "event_id") row guardResult
    (coord.pinned entry) none with
    ⟨raised, -, htransition⟩ | ⟨unit, committed, happlied, htransition, hcore⟩
  · rw [htransition]
    rintro ⟨⟩
  · rw [htransition]
    intro _
    have hperform : committed.core = coord.core.perform [.commit unit] := hcore
    exact .inl (applies_of_core hperform rfl (verdict_applied happlied))

theorem applies_or_alerts_admitRequest (hfresh : coord.ledger.get? (env.item "request_id") = none)
    (hreturns : (coord.admitRequest env).result = .ok ()) :
    Applies coord (coord.admitRequest env).state ∨ Alerts coord (coord.admitRequest env).state := by
  by_cases hid : (env.item "request_id").nonemptyStr = true
  · obtain ⟨hcore, hresult⟩ := admit_carriesOut coord env hfresh
    obtain ⟨_, _, _, _, _, unit, rest, happlied, hactions⟩ :=
      actions_admitDecision hid (hresult.symm.trans hreturns)
    rw [hactions] at hcore
    exact .inl (applies_of_core hcore rfl (verdict_applied happlied))
  · rw [admitRequest, if_pos (by simp [hid])]
    exact .inr (alerts_fault _ _ _)

theorem applies_or_alerts_handleConfig (coord : Coordinator) (env : Json) :
    Applies coord (coord.handleConfig env) ∨ Alerts coord (coord.handleConfig env) := by
  have hcore := (handleConfig_carriesOut coord env).1
  revert hcore
  dsimp only [handleConfig, configDecision]
  rcases ConfigView.ofData ((env.item "payload").item "snapshot") with reason | view
  · exact fun _ ↦ .inr (alerts_fault _ _ _)
  · exact fun hcore ↦ .inl (applies_of_core hcore rfl rfl)

theorem applies_or_alerts_handleRequest (hreturns : (coord.handleRequest env).result = .ok ()) :
    Applies coord (coord.handleRequest env).state ∨
      Alerts coord (coord.handleRequest env).state := by
  revert hreturns
  unfold handleRequest
  by_cases hhashable : (!(env.item "request_id").hashable) = true
  · rw [if_pos hhashable]
    rintro ⟨⟩
  rw [if_neg hhashable]
  rcases hheld : coord.ledger.get? (env.item "request_id") with _ | entry
  · by_cases hreceived : env.item "event_name" = .str "request.received"
    · rw [if_pos hreceived]
      exact applies_or_alerts_admitRequest hheld
    · rw [if_neg hreceived]
      rcases env.item "event_name" with _ | _ | _ | _ | text | _ | _
      case str => exact fun _ ↦ .inr (alerts_fault _ _ _)
      all_goals rintro ⟨⟩
  · dsimp only
    by_cases hduplicate : env.item "event_id" = entry.lastAppliedEventId
    · rw [if_pos hduplicate]
      exact fun _ ↦ .inr (alerts_noop _ _ _)
    rw [if_neg hduplicate]
    by_cases hreceived : env.item "event_name" = .str "request.received"
    · rw [if_pos hreceived]
      exact fun _ ↦ .inr (alerts_fault _ _ _)
    · rw [if_neg hreceived]
      exact applies_or_alerts_apply

/-- An inbound value that is handled applies something or is reported. -/
theorem applies_or_alerts (hreturns : (coord.handle env).result = .ok ()) :
    Applies coord (coord.handle env).state ∨ Alerts coord (coord.handle env).state := by
  revert hreturns
  unfold handle
  rcases Envelope.validate env coord.config.inboundEvents with reason | ⟨⟩
  · exact fun _ ↦ .inr (alerts_fault _ _ _)
  by_cases hconfig : env.item "event_name" = .str "config.changed"
  · rw [if_pos hconfig]
    exact fun _ ↦ applies_or_alerts_handleConfig coord env
  rw [if_neg hconfig]
  by_cases hsession : env.item "event_name" ∈ sessionEvents
  · rw [if_pos hsession]
    exact fun _ ↦ .inl (applies_of_core (handleSession_carriesOut coord _).1 rfl rfl)
  · rw [if_neg hsession]
    exact applies_or_alerts_handleRequest

/-- The event loop handles an inbound value safely, in any state and under any valid snapshot, if
and only if the value meets the condition. -/
theorem handlesSafely_iff (coord : Coordinator) (env : Json) :
    HandlesSafely coord env ↔ Survives coord env := by
  rw [← handle_returns_iff]
  refine ⟨And.left, fun hreturns ↦ ⟨hreturns, fun happlies ↦ ?_⟩⟩
  exact (applies_or_alerts hreturns).resolve_left happlies

/-- A well-formed admission whose request id is a list. -/
def listRequest : Json :=
  Envelope.make (.str "e1") (.str "request.received") (.arr [.str "r1"]) (.int 0) .null
    (.obj [("declared_type", .str "type.alpha")])

theorem not_handlesSafely_listRequest : ¬HandlesSafely selftest listRequest := by
  rintro ⟨hreturns, -⟩
  have hraises : (selftest.handle listRequest).result = .error .typeError := by decide +kernel
  cases hraises.symm.trans hreturns

end Coordinator

end AbsoluteZero.Kernel

import AbsoluteZero.Foundations.SeparatedText
import AbsoluteZero.Kernel.Core
import AbsoluteZero.Kernel.DefaultConfig

/-!
# The request lifecycle

The state machine that the shipped transition table encodes: its states (`Phase`) and its
transitions (`Rule`). Looking a state and an event up in a shipped table gives the rows of the rules
listed for them (`rows_of_shipped`), and the row picked is that of a rule whose guard is decided so
(`pickRow_rules`).
-/

namespace AbsoluteZero.Kernel

open Foundations List

/-- The lifecycle states. -/
inductive Phase
  | created
  | initialized
  | scheduled
  | executing
  | verifying
  | completed
  | failed
  | cancelled
  deriving DecidableEq

namespace Phase

/-- The name of a phase in the ledger and in the transition table. -/
def name : Phase → String
  | created => "created"
  | initialized => "initialized"
  | scheduled => "scheduled"
  | executing => "executing"
  | verifying => "verifying"
  | completed => "completed"
  | failed => "failed"
  | cancelled => "cancelled"

def state (phase : Phase) : Json := .str phase.name

/-- The phases that no transition leaves. -/
def terminal : Phase → Bool
  | completed => true
  | failed => true
  | cancelled => true
  | _ => false

theorem name_injective : Function.Injective name := by
  intro first second hname
  cases first <;> cases second <;> first | rfl | (revert hname; decide)

theorem state_injective : Function.Injective state := fun _ _ hstate ↦
  name_injective (Json.str.inj hstate)

@[simp] theorem state_inj {first second : Phase} : first.state = second.state ↔ first = second :=
  state_injective.eq_iff

theorem state_mem_terminalStates (phase : Phase) :
    phase.state ∈ terminalStates ↔ phase.terminal = true := by
  cases phase <;> decide

theorem bar_notMem_name (phase : Phase) : '|' ∉ phase.name.toList := by
  cases phase <;> decide

end Phase

/-! ### Rules -/

/-- The transitions of the lifecycle: one rule for each row of the table. -/
inductive Rule
  | accept
  | reject
  | route
  | misroute
  | plan
  | revise
  | pass
  | fail
  | complete
  | hold
  | replan
  | exhaust
  | passLate
  | failLate
  | cancel (source : Phase)
  | settle (source : Phase)
  deriving DecidableEq

namespace Rule

def source : Rule → Phase
  | accept | reject => .created
  | route | misroute => .initialized
  | plan | revise => .scheduled
  | pass | fail | complete | hold | replan | exhaust => .executing
  | passLate | failLate => .verifying
  | cancel source | settle source => source

def event : Rule → String
  | accept | reject => "request.received"
  | route | misroute => "__routing__"
  | plan => "plan.created"
  | revise => "plan.rejected"
  | pass | passLate => "verify.passed"
  | fail | failLate => "verify.failed"
  | complete | hold => "task.completed"
  | replan | exhaust => "task.failed"
  | cancel _ | settle _ => "request.cancelled"

def target : Rule → Phase
  | accept => .initialized
  | route | revise | replan | failLate => .scheduled
  | plan | pass | fail => .executing
  | hold => .verifying
  | complete | passLate => .completed
  | reject | misroute | exhaust => .failed
  | cancel _ => .cancelled
  | settle source => source

def guardName : Rule → Json
  | accept => .str "admission_ok"
  | route => .str "routing_ok"
  | complete => .str "gate:completion"
  | replan => .str "replans_remaining"
  | _ => .null

/-- The outbound events of a rule, in order. -/
def emits : Rule → List String
  | accept => ["request.admitted", "gate.enforced"]
  | reject | misroute => ["request.rejected", "gate.enforced"]
  | route => ["routing.directive"]
  | complete | passLate => ["request.completed", "gate.enforced"]
  | hold | failLate => ["gate.enforced"]
  | exhaust => ["request.failed"]
  | cancel _ => ["request.cancelled", "gate.enforced"]
  | plan | revise | pass | fail | replan | settle _ => []

def gate : Rule → String
  | accept | reject => "admission"
  | route | misroute => "routing"
  | complete | hold | passLate | failLate => "completion"
  | cancel _ => "cancellation"
  | _ => ""

def blocks : Rule → Bool
  | reject | misroute | hold | exhaust | failLate => true
  | _ => false

def action? : Rule → Option String
  | route => some "set_routing_target"
  | pass | fail | passLate | failLate => some "record_verdict"
  | replan => some "increment_replan"
  | cancel _ => some "set_cancel_flag"
  | _ => none

/-- The row of the transition table that a rule stands for. -/
def row (rule : Rule) : Row where
  guardName := rule.guardName
  next := rule.target.state
  emit := .arr (rule.emits.map .str)
  gate := .str rule.gate
  decision := if rule.blocks then .str "block" else .null
  actions := rule.action?.map fun action ↦ .arr [.str action]
  chain := if rule = accept then .str "__routing__" else .null

end Rule

/-- The rules listed for a phase and an event, in the order of their rows. -/
def ruleTable : List ((Phase × String) × List Rule) :=
  [((.created, "request.received"), [.accept, .reject]),
    ((.initialized, "__routing__"), [.route, .misroute]),
    ((.scheduled, "plan.created"), [.plan]),
    ((.scheduled, "plan.rejected"), [.revise]),
    ((.executing, "verify.passed"), [.pass]),
    ((.executing, "verify.failed"), [.fail]),
    ((.executing, "task.completed"), [.complete, .hold]),
    ((.executing, "task.failed"), [.replan, .exhaust]),
    ((.verifying, "verify.passed"), [.passLate]),
    ((.verifying, "verify.failed"), [.failLate]),
    ((.created, "request.cancelled"), [.cancel .created]),
    ((.initialized, "request.cancelled"), [.cancel .initialized]),
    ((.scheduled, "request.cancelled"), [.cancel .scheduled]),
    ((.executing, "request.cancelled"), [.cancel .executing]),
    ((.verifying, "request.cancelled"), [.cancel .verifying]),
    ((.completed, "request.cancelled"), [.settle .completed]),
    ((.failed, "request.cancelled"), [.settle .failed]),
    ((.cancelled, "request.cancelled"), [.settle .cancelled])]

def rulesAt (phase : Phase) (event : String) : Option (List Rule) :=
  OrderedDict.find (phase, event) ruleTable

def tableKey (key : Phase × String) : String := key.1.name ++ "|" ++ key.2

theorem tableKey_injective : Function.Injective tableKey := by
  rintro ⟨first, event⟩ ⟨second, event'⟩ hkey
  obtain ⟨hname, hevent⟩ := SeparatedText.append_separator_inj '|'
    first.bar_notMem_name second.bar_notMem_name hkey
  exact Prod.ext (Phase.name_injective hname) hevent

theorem tableRows_transitions (phase : Phase) (event : String) :
    tableRows (.obj transitions) (phase.name ++ "|" ++ event) =
      (rulesAt phase event).map fun rules ↦ rules.map Rule.row := by
  have hread := OrderedDict.find_map id Function.injective_id
    (fun rows : Json ↦ rows.elements.map Row.ofJson) (tableKey (phase, event)) transitions
  have hrules := OrderedDict.find_map tableKey tableKey_injective
    (fun rules : List Rule ↦ rules.map Rule.row) (phase, event) ruleTable
  exact hread.symm.trans hrules

theorem rows_of_shipped {view : ConfigView} (hview : view.ShippedTable) (phase : Phase)
    (event : String) : view.rows phase.state (.str event) =
      .ok ((rulesAt phase event).map fun rules ↦ rules.map Rule.row) := by
  change Except.ok (tableRows view.transitionTable (phase.name ++ "|" ++ event)) = _
  rw [hview, tableRows_transitions]

variable {rules : List Rule} {event : String} {phase : Phase}

theorem mem_ruleTable
    (hrules : rulesAt phase event = some rules) : ((phase, event), rules) ∈ ruleTable :=
  OrderedDict.mem_of_find hrules

variable {rule : Rule}

theorem source_event_of_mem (hrules : rulesAt phase event = some rules) (hrule : rule ∈ rules) :
    rule.source = phase ∧ rule.event = event := by
  have hall : ∀ item ∈ ruleTable, ∀ rule ∈ item.2,
      rule.source = item.1.1 ∧ rule.event = item.1.2 := by decide
  exact hall _ (mem_ruleTable hrules) rule hrule

/-- The shape of the rules under one key: one without a guard, or a guarded one that permits and
one without a guard that blocks. -/
inductive RulesShape : List Rule → Prop
  | single {rule : Rule} (hguard : rule.guardName = .null) : RulesShape [rule]
  | guarded {first second : Rule} (hguard : first.guardName ≠ .null)
      (hpermits : first.blocks = false) (hfallback : second.guardName = .null)
      (hblocks : second.blocks = true) : RulesShape [first, second]

theorem rulesShape (hrules : rulesAt phase event = some rules) : RulesShape rules := by
  have hmem := mem_ruleTable hrules
  simp only [ruleTable, mem_cons, Prod.mk.injEq, not_mem_nil, or_false] at hmem
  rcases hmem with ⟨-, rfl⟩ | ⟨-, rfl⟩ | ⟨-, rfl⟩ | ⟨-, rfl⟩ | ⟨-, rfl⟩ | ⟨-, rfl⟩ | ⟨-, rfl⟩ |
    ⟨-, rfl⟩ | ⟨-, rfl⟩ | ⟨-, rfl⟩ | ⟨-, rfl⟩ | ⟨-, rfl⟩ | ⟨-, rfl⟩ | ⟨-, rfl⟩ | ⟨-, rfl⟩ |
    ⟨-, rfl⟩ | ⟨-, rfl⟩ | ⟨-, rfl⟩
  all_goals first
    | exact .single rfl
    | exact .guarded (by decide) rfl rfl rfl

/-- Whether a rule counts as a permission selects it among the rules of its lookup. -/
theorem selected_of_mem (hrules : rulesAt phase event = some rules) (hrule : rule ∈ rules) :
    ∃ first rest, rules = first :: rest ∧ (if !rule.blocks then first.row else
        ((first :: rest).map Rule.row).getLast (by simp)) = rule.row := by
  cases rulesShape hrules with
  | @single other hguard =>
    rw [mem_singleton.mp hrule]
    exact ⟨other, [], rfl, by simp⟩
  | @guarded first second hguard hpermits hfallback hblocks =>
    refine ⟨first, [second], rfl, ?_⟩
    rcases mem_cons.mp hrule with rfl | hsecond
    · simp [hpermits]
    · rw [mem_singleton.mp hsecond]
      simp [hblocks]

/-- What the guards say when the table picks a rule for an entry. Admission and routing are not
decided by a guard, and a cancellation has one of two rules by its phase. -/
def Rule.Enabled (rule : Rule) (entry : RequestState) (config : ConfigView) : Prop :=
  match rule with
  | .complete => guardHolds (.str "gate:completion") entry config = .ok true
  | .hold => guardHolds (.str "gate:completion") entry config = .ok false
  | .replan => (entry.replanCount : Int) < config.maxReplans
  | .exhaust => ¬ (entry.replanCount : Int) < config.maxReplans
  | .cancel source => source.terminal = false
  | .settle source => source.terminal = true
  | _ => True

theorem Rule.Enabled.target_of_terminal {entry : RequestState} {config : ConfigView}
    (henabled : rule.Enabled entry config) (hterminal : rule.source.terminal = true) :
    rule.target = rule.source := by
  cases rule
  case cancel source => exact absurd (hterminal.symm.trans henabled) (by decide)
  case settle => rfl
  all_goals exact absurd hterminal (by decide)

theorem guardHolds_replans (entry : RequestState) (config : ConfigView) :
    guardHolds (.str "replans_remaining") entry config =
      .ok (decide ((entry.replanCount : Int) < config.maxReplans)) := by
  simp [guardHolds, stripStart]

theorem permits_row (rule : Rule) :
    decide (rule.row.decision.orElse (.str "permit") = .str "permit") = !rule.blocks := by
  cases hblocks : rule.blocks <;> simp [Rule.row, hblocks, Json.orElse, Json.truthy]

theorem pickRow_single (rule : Rule) (hguard : rule.guardName = .null) (entry : RequestState)
    (config : ConfigView) :
    pickRow [rule.row] entry config = .ok (some (rule.row, !rule.blocks)) := by
  have hnull : rule.row.guardName = .null := hguard
  simp only [pickRow, pickRowFrom, hnull, if_true, permits_row]

theorem pickRow_guarded (first second : Rule) (hguard : first.guardName ≠ .null)
    (hpermits : first.blocks = false) (hfallback : second.guardName = .null)
    (hblocks : second.blocks = true) (entry : RequestState) (config : ConfigView) :
    pickRow [first.row, second.row] entry config =
      match guardHolds first.guardName entry config with
      | .error raised => .error raised
      | .ok true => .ok (some (first.row, true))
      | .ok false => .ok (some (second.row, false)) := by
  have hfirst : first.row.guardName = first.guardName := rfl
  have hsecond : second.row.guardName = .null := hfallback
  have hblock : second.row.decision.orElse (.str "block") = .str "block" := by
    simp [Rule.row, hblocks, Json.orElse, Json.truthy]
  simp only [pickRow, pickRowFrom, hfirst, if_neg hguard, hsecond, if_true, permits_row, hpermits]
  rcases guardHolds first.guardName entry config with raised | (_ | _)
  · rfl
  · simp [hblock]
  · rfl

/-- The row picked for an entry is the row of a rule listed for its phase whose guard is decided
accordingly, unless a gate raises. -/
theorem pickRow_rules
    (hrules : rulesAt phase event = some rules) (entry : RequestState) (config : ConfigView) :
    (∃ raised, pickRow (rules.map Rule.row) entry config = .error raised) ∨
      ∃ rule ∈ rules, pickRow (rules.map Rule.row) entry config =
        .ok (some (rule.row, !rule.blocks)) ∧ rule.Enabled entry config := by
  have hmem := mem_ruleTable hrules
  cases rulesShape hrules with
  | @single rule hguard =>
    refine Or.inr ⟨rule, mem_singleton_self rule, pickRow_single rule hguard entry config, ?_⟩
    have hunguarded : ∀ item ∈ ruleTable, ∀ rule, item.2 = [rule] →
        (rule ≠ .complete ∧ rule ≠ .hold ∧ rule ≠ .replan ∧ rule ≠ .exhaust) ∧
          (∀ source, rule = .cancel source → source.terminal = false) ∧
          ∀ source, rule = .settle source → source.terminal = true := by
      simp [ruleTable, Phase.terminal]
    obtain ⟨⟨hcomplete, hhold, hreplan, hexhaust⟩, hcancel, hsettle⟩ := hunguarded _ hmem rule rfl
    cases rule
    case cancel source => exact hcancel source rfl
    case settle source => exact hsettle source rfl
    all_goals trivial
  | @guarded first second hguard hpermits hfallback hblocks =>
    have hpick := pickRow_guarded first second hguard hpermits hfallback hblocks entry config
    have hpairs : ∀ item ∈ ruleTable, ∀ first second, item.2 = [first, second] →
        (first = .accept ∧ second = .reject) ∨ (first = .route ∧ second = .misroute) ∨
          (first = .complete ∧ second = .hold) ∨ (first = .replan ∧ second = .exhaust) := by
      simp [ruleTable]
    rcases hgate : guardHolds first.guardName entry config with raised | (_ | _)
    · rw [hgate] at hpick
      exact Or.inl ⟨raised, hpick⟩
    · rw [hgate] at hpick
      refine Or.inr ⟨second, by simp, by rw [hblocks]; exact hpick, ?_⟩
      rcases hpairs _ hmem first second rfl with
        ⟨rfl, rfl⟩ | ⟨rfl, rfl⟩ | ⟨rfl, rfl⟩ | ⟨rfl, rfl⟩
      · trivial
      · trivial
      · exact hgate
      · rw [Rule.guardName, guardHolds_replans] at hgate
        exact of_decide_eq_false (Except.ok.inj hgate)
    · rw [hgate] at hpick
      refine Or.inr ⟨first, by simp, by rw [hpermits]; exact hpick, ?_⟩
      rcases hpairs _ hmem first second rfl with
        ⟨rfl, rfl⟩ | ⟨rfl, rfl⟩ | ⟨rfl, rfl⟩ | ⟨rfl, rfl⟩
      · trivial
      · trivial
      · exact hgate
      · rw [Rule.guardName, guardHolds_replans] at hgate
        change (entry.replanCount : Int) < config.maxReplans
        exact of_decide_eq_true (Except.ok.inj hgate)

/-! ### Rules carried out -/

def Rule.unit (rule : Rule) (entry : RequestState) (eventId : Json) (config : ConfigView)
    (info : Option (List (String × Json))) : Applied :=
  let info := info.map truthyInfo
  let advanced :=
    entry.advance (.str rule.event) eventId rule.row (rule.action?.toList.map .str) info
  { entry := advanced
    record := transitionRecord entry (.str rule.event) eventId rule.row (!rule.blocks) config
      (rule.emits.map .str) info
    emissions := rowEmissions advanced rule.row (rule.row.outcome !rule.blocks) config info 0
      (rule.emits.map .str) }

@[simp] theorem iterate_row (rule : Rule) : rule.row.emit.iterate = .ok (rule.emits.map .str) := rfl

@[simp] theorem actionList_row (rule : Rule) :
    rule.row.actionList = .ok (rule.action?.toList.map .str) := by
  cases haction : rule.action? <;> simp [Row.actionList, Rule.row, haction, Json.iterate]

/-- Every rule can be carried out on any entry. -/
theorem applied_rule (rule : Rule) (entry : RequestState) (eventId : Json) (config : ConfigView)
    (info : Option (List (String × Json))) :
    applied entry (.str rule.event) eventId rule.row (!rule.blocks) config info =
      .ok (rule.unit entry eventId config info) := by
  simp only [applied, iterate_row, actionList_row, Rule.unit]

section Unit

variable (rule : Rule) (entry : RequestState) (eventId : Json) (config : ConfigView)
  (info : Option (List (String × Json)))

@[simp] theorem state_unit :
    (rule.unit entry eventId config info).entry.lifecycleState = rule.target.state := rfl

@[simp] theorem requestId_unit :
    (rule.unit entry eventId config info).entry.requestId = entry.requestId := by
  cases rule <;> rfl

@[simp] theorem requestId_record_unit :
    (rule.unit entry eventId config info).record.requestId = entry.requestId := rfl

@[simp] theorem configVersion_unit :
    (rule.unit entry eventId config info).entry.configVersion = entry.configVersion := by
  cases rule <;> rfl

@[simp] theorem transitionSequence_unit :
    (rule.unit entry eventId config info).entry.transitionSequence =
      entry.transitionSequence + 1 := by
  cases rule <;> rfl

@[simp] theorem replanCount_unit : (rule.unit entry eventId config info).entry.replanCount =
      entry.replanCount + if rule = .replan then 1 else 0 := by
  cases rule <;> rfl

@[simp] theorem recordedVerdicts_unit :
    (rule.unit entry eventId config info).entry.recordedVerdicts =
      if rule.action? = some "record_verdict" then
        entry.recordedVerdicts.insert "verification" (rule.event = "verify.passed")
      else entry.recordedVerdicts := by
  cases rule <;> rfl

end Unit

end AbsoluteZero.Kernel

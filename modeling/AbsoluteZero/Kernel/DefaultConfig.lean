import AbsoluteZero.Kernel.ConfigView

/-!
# The shipped configuration

The default snapshot as data: `snapshot` is the default with top-level keys replaced, and
`defaultView` the default as a validated view. A view carries the shipped table when it looks up the
same rows as `transitions` under every key; its other keys are free.
-/

namespace AbsoluteZero.Kernel

open Foundations

def nonTerminal : List String := ["created", "initialized", "scheduled", "executing", "verifying"]

def terminal : List String := ["completed", "failed", "cancelled"]

def cancelRow : Json :=
  .arr [.obj [("when", .null), ("next", .str "cancelled"),
    ("emit", .arr [.str "request.cancelled", .str "gate.enforced"]),
    ("gate", .str "cancellation"), ("actions", .arr [.str "set_cancel_flag"])]]

/-- The rows of `TRANSITIONS` written out in its literal. -/
def literalTransitions : List (String × Json) :=
  [("created|request.received", .arr [
      .obj [("when", .str "admission_ok"), ("next", .str "initialized"),
        ("emit", .arr [.str "request.admitted", .str "gate.enforced"]),
        ("gate", .str "admission"), ("chain", .str "__routing__")],
      .obj [("when", .null), ("next", .str "failed"),
        ("emit", .arr [.str "request.rejected", .str "gate.enforced"]),
        ("gate", .str "admission"), ("decision", .str "block")]]),
    -- Routing lookup happens in the same event processing as admission.
    ("initialized|__routing__", .arr [
      .obj [("when", .str "routing_ok"), ("next", .str "scheduled"),
        ("emit", .arr [.str "routing.directive"]), ("gate", .str "routing"),
        ("actions", .arr [.str "set_routing_target"])],
      .obj [("when", .null), ("next", .str "failed"),
        ("emit", .arr [.str "request.rejected", .str "gate.enforced"]),
        ("gate", .str "routing"), ("decision", .str "block")]]),
    ("scheduled|plan.created", .arr [
      .obj [("when", .null), ("next", .str "executing"), ("emit", .arr [])]]),
    ("scheduled|plan.rejected", .arr [
      .obj [("when", .null), ("next", .str "scheduled"), ("emit", .arr [])]]),
    -- Verdicts are recorded while executing; no transition.
    ("executing|verify.passed", .arr [
      .obj [("when", .null), ("next", .str "executing"), ("emit", .arr []),
        ("actions", .arr [.str "record_verdict"])]]),
    ("executing|verify.failed", .arr [
      .obj [("when", .null), ("next", .str "executing"), ("emit", .arr []),
        ("actions", .arr [.str "record_verdict"])]]),
    -- Completion gate: a recorded verify.passed, never a default permit.
    ("executing|task.completed", .arr [
      .obj [("when", .str "gate:completion"), ("next", .str "completed"),
        ("emit", .arr [.str "request.completed", .str "gate.enforced"]),
        ("gate", .str "completion")],
      .obj [("when", .null), ("next", .str "verifying"), ("emit", .arr [.str "gate.enforced"]),
        ("gate", .str "completion"), ("decision", .str "block")]]),
    -- Replan loop bounded by fault policy max_replans.
    ("executing|task.failed", .arr [
      .obj [("when", .str "replans_remaining"), ("next", .str "scheduled"), ("emit", .arr []),
        ("actions", .arr [.str "increment_replan"])],
      .obj [("when", .null), ("next", .str "failed"), ("emit", .arr [.str "request.failed"]),
        ("decision", .str "block")]]),
    ("verifying|verify.passed", .arr [
      .obj [("when", .null), ("next", .str "completed"),
        ("emit", .arr [.str "request.completed", .str "gate.enforced"]),
        ("gate", .str "completion"), ("actions", .arr [.str "record_verdict"])]]),
    ("verifying|verify.failed", .arr [
      .obj [("when", .null), ("next", .str "scheduled"), ("emit", .arr [.str "gate.enforced"]),
        ("gate", .str "completion"), ("decision", .str "block"),
        ("actions", .arr [.str "record_verdict"])]])]

/-- `TRANSITIONS`: the literal rows, then the cancellation rows added by the two loops. In a
terminal state a cancellation is a no-op. -/
def transitions : List (String × Json) :=
  literalTransitions ++
    nonTerminal.map (fun state ↦ (state ++ "|request.cancelled", cancelRow)) ++
    terminal.map (fun state ↦ (state ++ "|request.cancelled",
      .arr [.obj [("when", .null), ("next", .str state), ("emit", .arr [])]]))

/-- `DEFAULT`. -/
def defaultData : Json :=
  .obj [("version", .int 1),
    ("inbound_events", .arr [.str "request.received", .str "request.cancelled",
      .str "plan.created", .str "plan.rejected", .str "task.completed", .str "task.failed",
      .str "verify.passed", .str "verify.failed", .str "config.changed", .str "session.wake",
      .str "session.sleep"]),
    ("envelope_schemas", .obj [("request.received", .arr [.str "declared_type"]),
      ("config.changed", .arr [.str "snapshot"])]),
    ("routing_table", .obj [("type.alpha", .str "planning"), ("type.beta", .str "scheduling")]),
    ("gates", .obj [("completion", .obj [("check", .str "verdict_true"),
      ("verdict", .str "verification")])]),
    ("transitions", .obj transitions),
    ("fault_policy", .obj [("max_replans", .int 2), ("max_active_requests", .int 1000)])]

/-- `snapshot(**overrides)`: the default with top-level keys replaced. -/
def snapshot (overrides : List (String × Json)) : Json :=
  match defaultData with
  | .obj fields =>
    .obj (overrides.foldl (fun fields field ↦ OrderedDict.upsert field.1 field.2 fields) fields)
  | other => other

def defaultView : ConfigView := ⟨defaultData, by decide +kernel⟩

/-- A view that looks up the rows of `TRANSITIONS` under every key. -/
def ConfigView.ShippedTable (view : ConfigView) : Prop :=
  ∀ key, tableRows view.transitionTable key = tableRows (.obj transitions) key

theorem shippedTable_of_table {view : ConfigView}
    (htable : view.transitionTable = .obj transitions) : view.ShippedTable := fun key ↦ by
  rw [htable]

theorem defaultView_shippedTable : defaultView.ShippedTable :=
  shippedTable_of_table (by decide +kernel)

end AbsoluteZero.Kernel

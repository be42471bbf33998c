import AbsoluteZero.Foundations.ClosedVocabulary
import AbsoluteZero.Foundations.OrderedDict

/-!
# The compiled workflow

The frozen artifact that the dispatcher runs: units with their priority band and branch group, the
dependency edges, the canonical total order, and the alternative groups, best rank first. It carries
what the compiler guarantees, so a run never looks up a unit or a group that is not there.
-/

namespace AbsoluteZero.Scheduler

open Foundations

/-- `BANDS`. -/
inductive PriorityBand
  | critical
  | required
  | optional
  | deferred
  deriving DecidableEq

instance : ClosedVocabulary PriorityBand where
  all := [.critical, .required, .optional, .deferred]
  text
    | .critical => "CRITICAL"
    | .required => "REQUIRED"
    | .optional => "OPTIONAL"
    | .deferred => "DEFERRED"

/-- `_BLOCKING_BANDS`: a failed unit of such a band stalls the workflow. -/
def PriorityBand.blocking : PriorityBand → Bool
  | .critical | .required => true
  | .optional | .deferred => false

/-- One execution unit, with what the run reads of it. -/
structure WorkflowUnit where
  priorityBand : PriorityBand
  groupId : Option String

/-- A compiled workflow: the canonical order lists every unit once and follows the edges, and the
groups list the units that name them. -/
structure Workflow where
  workflowId : String
  units : OrderedDict String WorkflowUnit
  edges : List (String × String)
  canonicalOrder : List String
  groups : OrderedDict String (List String)
  order_perm : canonicalOrder.Perm units.keys
  edges_forward : ∀ edge ∈ edges, edge.1 ∈ units.keys ∧ edge.2 ∈ units.keys ∧
    canonicalOrder.idxOf edge.1 < canonicalOrder.idxOf edge.2
  members_named : ∀ group ∈ groups.items, group.2 ≠ [] ∧ group.2.Nodup ∧
    ∀ member ∈ group.2, (units.get? member).map WorkflowUnit.groupId = some (some group.1)
  named_members : ∀ unit ∈ units.items, ∀ groupId ∈ unit.2.groupId,
    ∃ members, groups.get? groupId = some members ∧ unit.1 ∈ members

/-- `predecessors`: the units an edge leads from into the unit. -/
def Workflow.predecessors (workflow : Workflow) (unit : String) : List String :=
  (workflow.edges.filter fun edge ↦ edge.2 = unit).map Prod.fst

end AbsoluteZero.Scheduler

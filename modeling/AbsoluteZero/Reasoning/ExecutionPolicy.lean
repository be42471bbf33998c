import AbsoluteZero.Reasoning.Outcome

/-!
# Execution policy

Which failure classes are retried or allow a substitution, how many attempts a request gets, and the
table of timeout classes. The default table has an entry for every latency class and rung
(`deriveTimeoutClass_default`); a lookup in a gap of a supplied one is refused.
-/

namespace AbsoluteZero.Reasoning

open Foundations

/-- `TIMEOUT_CLASSES`. -/
inductive TimeoutClass
  | standard
  | extended
  | long
  deriving DecidableEq

instance : ClosedVocabulary TimeoutClass where
  all := [.standard, .extended, .long]
  text
    | .standard => "standard"
    | .extended => "extended"
    | .long => "long"

abbrev TimeoutTable := OrderedDict (LatencyClass × Rung) TimeoutClass

/-- `ExecutionPolicyView`: at least one attempt is allowed. -/
structure ExecutionPolicyView where
  policyVersion : Int
  attemptCeiling : Int
  retryableClasses : List FailureClass
  substitutionClasses : List FailureClass
  timeoutTable : TimeoutTable
  ceiling_pos : 1 ≤ attemptCeiling
  deriving DecidableEq

def LatencyClass.index : LatencyClass → Nat
  | .fast => 0
  | .standard => 1
  | .slow => 2

/-- The place of a rung in its vocabulary. -/
def Rung.index : Rung → Nat
  | .c0 => 0
  | .c1 => 1
  | .c2 => 2
  | .c3 => 3
  | .c4 => 4

/-- The timeout class of a latency class and a rung by their weighted sum. -/
def defaultTimeout (latency : LatencyClass) (rung : Rung) : TimeoutClass :=
  let score := rung.index + latency.index * 2
  if score ≤ 2 then .standard else if score ≤ 5 then .extended else .long

def defaultTimeoutTable : TimeoutTable :=
  ((ClosedVocabulary.all : List LatencyClass).product (ClosedVocabulary.all : List Rung)).foldl
    (fun table key ↦ table.insert key (defaultTimeout key.1 key.2)) .empty

def readFailureClass (text : String) : Except String FailureClass :=
  match ClosedVocabulary.read text with
  | none => .error ("execution_policy.unknown_failure_class:" ++ text)
  | some failureClass => .ok failureClass

def readTimeoutEntry (entry : (String × String) × String) :
    Except String ((LatencyClass × Rung) × TimeoutClass) :=
  match ClosedVocabulary.read entry.1.1, ClosedVocabulary.read entry.1.2,
      ClosedVocabulary.read entry.2 with
  | some latency, some rung, some timeout => .ok ((latency, rung), timeout)
  | _, _, _ => .error ("execution_policy.bad_timeout_table_entry:" ++
      (Json.arr [.str entry.1.1, .str entry.1.2, .str entry.2]).repr)

/-- The table of a policy: the supplied one, checked entry by entry, or the default. -/
def readTimeoutTable (supplied : Option (List ((String × String) × String))) :
    Except String TimeoutTable :=
  match supplied with
  | none => .ok defaultTimeoutTable
  | some entries => do
    let entries ← entries.mapM readTimeoutEntry
    .ok (entries.foldl (fun table entry ↦ table.insert entry.1 entry.2) .empty)

/-- `build_execution_policy_view`, with the text of `ExecutionPolicyRefusal`. -/
def buildExecutionPolicyView (policyVersion attemptCeiling : Json) (retryableClasses : List String)
    (substitutionClasses : Option (List String))
    (timeoutTable : Option (List ((String × String) × String))) :
    Except String ExecutionPolicyView :=
  match policyVersion with
  | .int version =>
    let badCeiling : Except String ExecutionPolicyView :=
      .error ("execution_policy.bad_attempt_ceiling:" ++ attemptCeiling.repr)
    match attemptCeiling with
    | .int ceiling =>
      if hceiling : 1 ≤ ceiling then do
        let retryable ← retryableClasses.mapM readFailureClass
        let substitution ← (substitutionClasses.getD ["F1", "F2"]).mapM readFailureClass
        let table ← readTimeoutTable timeoutTable
        .ok ⟨version, ceiling, retryable, substitution, table, hceiling⟩
      else badCeiling
    | _ => badCeiling
  | _ => .error ("execution_policy.bad_policy_version:" ++ policyVersion.repr)

/-- `derive_timeout_class`, with the text of `UnknownTimeoutInputError`. -/
def deriveTimeoutClass (policy : ExecutionPolicyView) (latencyConstraint complexityRung : String) :
    Except String TimeoutClass :=
  match (ClosedVocabulary.read latencyConstraint : Option LatencyClass) with
  | none => .error ("execution_policy.unknown_latency_constraint:" ++ latencyConstraint)
  | some latency =>
    match (ClosedVocabulary.read complexityRung : Option Rung) with
    | none => .error ("execution_policy.unknown_complexity_rung:" ++ complexityRung)
    | some rung =>
      match policy.timeoutTable.get? (latency, rung) with
      | none => .error ("execution_policy.no_timeout_table_entry:(" ++
          Json.quoted latencyConstraint ++ ", " ++ Json.quoted complexityRung ++ ")")
      | some timeout => .ok timeout

theorem deriveTimeoutClass_default {policy : ExecutionPolicyView}
    (htable : policy.timeoutTable = defaultTimeoutTable) (latency : LatencyClass) (rung : Rung) :
    deriveTimeoutClass policy (ClosedVocabulary.text latency) (ClosedVocabulary.text rung) =
      .ok (defaultTimeout latency rung) := by
  have hentry : defaultTimeoutTable.get? (latency, rung) = some (defaultTimeout latency rung) := by
    cases latency <;> cases rung <;> rfl
  unfold deriveTimeoutClass
  simp only [ClosedVocabulary.read_text, htable, hentry]

end AbsoluteZero.Reasoning

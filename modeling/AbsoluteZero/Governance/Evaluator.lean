import AbsoluteZero.Governance.Compiler

/-!
# The evaluator

`evaluate` answers a question from a snapshot and a slice of grant records: well-formedness, memo
probe, retrieval of the winning entry through the shadows edges, the final check, the grant overlay,
and the limits of sibling domains for an `ALLOW`. It returns a decision or an ill-posed verdict; a
snapshot that cannot answer raises.
-/

namespace AbsoluteZero.Governance

open Foundations

structure Question where
  subsystem : String
  requestId : String
  principal : String
  domain : String
  operation : String
  resource : String
  facts : List (String × Scalar)
  deriving DecidableEq

def Question.labelled (question : Question) : List (String × String) :=
  [("subsystem", question.subsystem), ("request_id", question.requestId),
    ("principal", question.principal), ("domain", question.domain),
    ("operation", question.operation), ("resource", question.resource)]

/-- `dict(facts)`. -/
def factDict (facts : List (String × Scalar)) : OrderedDict String Scalar :=
  facts.foldl (fun dict fact ↦ dict.insert fact.1 fact.2) .empty

/-- `build_question` on the parts of a question: the question with its facts sorted by name, or the
text of the refusal. -/
def rebuildQuestion (question : Question) : Except String Question :=
  match question.labelled.find? fun part ↦ part.2 = "" with
  | some part => .error ("evaluator.bad_" ++ part.1 ++ ":" ++ Json.quoted part.2)
  | none =>
    let facts := sortedBy Prod.fst (factDict question.facts).items
    if facts.any fun fact ↦ fact.1 = "" then
      .error ("evaluator.bad_fact_name:" ++ Json.quoted "")
    else .ok { question with facts := facts }

/-- `question_to_dict`. -/
def Question.toJson (question : Question) : Json :=
  .obj [("subsystem", .str question.subsystem), ("request_id", .str question.requestId),
    ("principal", .str question.principal), ("domain", .str question.domain),
    ("operation", .str question.operation), ("resource", .str question.resource),
    ("facts", .arr (question.facts.map fun fact ↦ .arr [.str fact.1, fact.2.val]))]

section Hashes

variable (digest : Json → String)

def questionHash (question : Question) : String := digest question.toJson

/-- `ask_signature`: principal, action and resource; neither facts nor request. -/
def askSignature (question : Question) : String :=
  digest (.obj [("principal", .str question.principal), ("domain", .str question.domain),
    ("operation", .str question.operation), ("resource", .str question.resource)])

end Hashes

/-- `GRANT` and `REVOCATION`. -/
inductive RecordKind
  | grant
  | revocation
  deriving DecidableEq

def RecordKind.text : RecordKind → String
  | .grant => "grant"
  | .revocation => "revocation"

/-- A grant record of a slice. A revocation names the grant it revokes. -/
structure GrantRecord where
  kind : RecordKind
  grantId : String
  askSignature : String

inductive TraceStep
  | index (matched : List Citation) (winner : Citation) (decidedBy : List DecidedBy) (final : Bool)
      (totalityFallback : Bool)
  | grant (grantId : String) (ledgerPosition : Nat) (overrode : Citation)
  | constraint (domain : String) (value : Json) (citation : Citation)

/-- A limit that binds an `ALLOW`: the domain it comes from, its value and its rule. -/
structure BindingConstraint where
  domain : String
  value : Json
  citation : Citation

structure Decision where
  effect : Effect
  askSignature : Option String
  constraints : List BindingConstraint
  explanation : List TraceStep
  snapshotVersion : Nat
  grantSlicePosition : Nat
  evaluationRulesetVersion : Nat
  questionHash : String

inductive IllPosedCode
  | nonCanonical
  | unknownAction
  | missingFacts
  | undeclaredFacts
  | incomparable
  deriving DecidableEq

structure IllPosedVerdict where
  code : IllPosedCode
  detail : String
  snapshotVersion : Nat
  grantSlicePosition : Nat
  evaluationRulesetVersion : Nat
  deriving DecidableEq

/-- The two classes of outcomes. -/
inductive Outcome
  | decision (decision : Decision)
  | illPosed (verdict : IllPosedVerdict)

/-! ### Conditions over facts -/

/-- What ends an evaluation early: an incomparable range comparison, a fact that is not there, or a
snapshot that cannot answer. -/
inductive Interruption
  | incomparable (text : String)
  | keyError (fact : String)
  | totalityHole (text : String)
  | noUndominatedWinner (text : String)
  | divergentCowinners (text : String)
  deriving DecidableEq

/-- `SnapshotIntegrityError`. -/
def Interruption.snapshotIntegrity : Interruption → Bool
  | .totalityHole _ | .noUndominatedWinner _ | .divergentCowinners _ => true
  | .incomparable _ | .keyError _ => false

abbrev FactMap := OrderedDict String Scalar

/-- `fact_map[fact]`. -/
def factOf (facts : FactMap) (fact : String) : Except Interruption Scalar :=
  match facts.get? fact with
  | some value => .ok value
  | none => .error (.keyError fact)

def compareNumbers : ComparisonOp → Rat → Rat → Bool
  | .lt, first, second => first < second
  | .lte, first, second => first ≤ second
  | .gt, first, second => second < first
  | .gte, first, second => second ≤ first
  | .eq, first, second => first = second
  | .ne, first, second => first ≠ second

/-- A comparison of a fact value with the value of a rule; range operators want two numbers. -/
def comparisonSatisfied (fact : String) (op : ComparisonOp) (factValue value : Scalar) :
    Except Interruption Bool :=
  match op with
  | .eq => .ok (factValue.pyEq value)
  | .ne => .ok (!factValue.pyEq value)
  | .lt | .lte | .gt | .gte =>
    match factValue.val.numeric?, value.val.numeric? with
    | some number, some number' => .ok (compareNumbers op number number')
    | _, _ => .error (.incomparable ("fact " ++ Json.quoted fact ++ " op " ++ op.text ++
        ": non-numeric operand " ++ factValue.val.repr ++ " vs " ++ value.val.repr))

def membershipSatisfied (op : SetOp) (factValue : Scalar) (values : List Scalar) : Bool :=
  match op with
  | .isIn => factValue.isIn values
  | .notIn => !factValue.isIn values

/-- `all(results)` and `any(results)`. -/
def combine : BoolOp → List Bool → Bool
  | .and, results => results.all id
  | .or, results => results.any id

mutual

/-- `_condition_satisfied`: every operand is evaluated. -/
def conditionSatisfied (facts : FactMap) : Condition → Except Interruption Bool
  | .comparison fact op value => do
    let factValue ← factOf facts fact
    comparisonSatisfied fact op factValue value
  | .setMembership fact op values => do
    let factValue ← factOf facts fact
    return membershipSatisfied op factValue values
  | .composition op first second rest => do
    let firstResult ← conditionSatisfied facts first
    let secondResult ← conditionSatisfied facts second
    let results ← conditionsSatisfied facts rest
    return combine op (firstResult :: secondResult :: results)
  | .negation operand => do
    let result ← conditionSatisfied facts operand
    return !result

def conditionsSatisfied (facts : FactMap) : List Condition → Except Interruption (List Bool)
  | [] => return []
  | operand :: rest => do
    let result ← conditionSatisfied facts operand
    let results ← conditionsSatisfied facts rest
    return result :: results

end

def guardSatisfied (facts : FactMap) : Option Condition → Except Interruption Bool
  | none => .ok true
  | some condition => conditionSatisfied facts condition

def selectorMatches (selector resource : String) : Bool := selector = resource || selector = "*"

/-- The part of the match that reads no facts: action and selector. -/
def IndexEntry.targets (entry : IndexEntry) (domain operation resource : String) : Bool :=
  entry.domain = domain && entry.operation = operation &&
    selectorMatches entry.resourceSelector resource

/-- The entries among some whose condition is satisfied, in order. -/
def satisfiedEntries (facts : FactMap) : List IndexEntry → Except Interruption (List IndexEntry)
  | [] => return []
  | entry :: rest => do
    let satisfied ← guardSatisfied facts entry.condition
    let matched ← satisfiedEntries facts rest
    return if satisfied then entry :: matched else matched

def undominated (matched : List IndexEntry) : List IndexEntry :=
  let shadowed := matched.flatMap IndexEntry.shadows
  matched.filter fun entry ↦ entry.citation ∉ shadowed

/-- `repr` of a citation triple. -/
def reprCitation (citation : Citation) : String := (cited citation).repr

/-- `_match_and_win`: the first undominated entry among those that match, provided that all
undominated entries have its effect; with the matched citations and the totality fallback. -/
def matchAndWin (snapshot : CompiledSnapshot) (domain operation resource : String)
    (facts : FactMap) : Except Interruption (IndexEntry × List Citation × Bool) := do
  let matched ← satisfiedEntries facts
    (snapshot.entries.filter fun entry ↦ entry.targets domain operation resource)
  if matched = [] then
    throw (.totalityHole ("evaluator.totality_hole:" ++ domain ++ "." ++ operation ++
      ":" ++ resource))
  else
    match undominated matched with
    | [] => throw (.noUndominatedWinner
        ("evaluator.no_undominated_winner:" ++ domain ++ "." ++ operation ++ ":" ++ resource))
    | winner :: others =>
      match others.find? fun entry ↦ !entry.effect.pyEq winner.effect with
      | some other => throw (.divergentCowinners ("evaluator.divergent_cowinners:" ++
          reprCitation winner.citation ++ ":" ++ reprCitation other.citation))
      | none =>
        return (winner, matched.map IndexEntry.citation,
          decide (winner.scope = .system) && decide (winner.resourceSelector = "*") &&
            decide (matched.length = 1))

/-! ### The lifecycle -/

/-- `_required_fact_names`: the declared facts of every domain that has the operation. -/
def requiredFactNames (snapshot : CompiledSnapshot) (operation : String) : TermSet :=
  (snapshot.declaredFacts.filter fun item ↦ item.1.2 = operation).foldl
    (fun required item ↦ required.update item.2) .empty

def operationDomains (snapshot : CompiledSnapshot) (operation : String) : List String :=
  sortedBy id ((snapshot.declaredFacts.filter fun item ↦ item.1.2 = operation).map fun item ↦
    item.1.1)

/-- The first applicable grant of a slice: it covers the signature, and no record of the slice
revokes it. -/
def coveringGrant (slice : List GrantRecord) (signature : String) : Option GrantRecord :=
  let revoked := (slice.filter fun record ↦ record.kind = .revocation).map GrantRecord.grantId
  (slice.filter fun record ↦ record.kind = .grant ∧ record.askSignature = signature ∧
    record.grantId ∉ revoked).head?

/-- Step 6, for the sibling domains of an operation: the limits that win there. A sibling that
cannot answer binds nothing. -/
def bindingConstraints (snapshot : CompiledSnapshot) (question : Question) (facts : FactMap) :
    List String → Except Interruption (List BindingConstraint)
  | [] => return []
  | domain :: rest =>
    if domain = question.domain then
      bindingConstraints snapshot question facts rest
    else
      match matchAndWin snapshot domain question.operation question.resource facts with
      | .error interruption =>
        if interruption.snapshotIntegrity then bindingConstraints snapshot question facts rest
        else throw interruption
      | .ok (ceiling, _, _) =>
        if ceiling.effect.kind = .limit then do
          let constraints ← bindingConstraints snapshot question facts rest
          return ⟨domain, ceiling.effect.value, ceiling.citation⟩ :: constraints
        else
          bindingConstraints snapshot question facts rest

structure Stamps where
  snapshotVersion : Nat
  grantSlicePosition : Nat
  evaluationRulesetVersion : Nat
  deriving DecidableEq

section Evaluate

variable (digest : Json → String)

/-- Steps 4 and 5: the grant that answers the question, if the winner asks for approval and is not
final. -/
def grantOverlay (slice : List GrantRecord) (question : Question) (winner : IndexEntry) :
    Option GrantRecord :=
  if winner.final = false ∧ winner.effect.kind = .requireApproval then
    coveringGrant slice (askSignature digest question)
  else none

def decidedEffect (winner : IndexEntry) (grant : Option GrantRecord) : Effect :=
  if grant.isSome then .allow else winner.effect

variable (snapshot : CompiledSnapshot)

/-- Step 6: an `ALLOW` is bound by the limits of the sibling domains. -/
def attachConstraints (question : Question) (effect : Effect) :
    Except Interruption (List BindingConstraint) :=
  if effect.kind = .allow then
    bindingConstraints snapshot question (factDict question.facts)
      (operationDomains snapshot question.operation)
  else .ok []

def assembleDecision (question : Question) (stamps : Stamps) (winner : IndexEntry)
    (matched : List Citation) (fallback : Bool) (grant : Option GrantRecord)
    (constraints : List BindingConstraint) : Decision where
  effect := decidedEffect winner grant
  askSignature := if winner.effect.kind = .requireApproval ∧ grant = none then
      some (askSignature digest question)
    else none
  constraints := constraints
  explanation := .index matched winner.citation winner.decidedBy winner.final fallback ::
    (grant.toList.map fun record ↦
      .grant record.grantId stamps.grantSlicePosition winner.citation) ++
    constraints.map fun constraint ↦
      .constraint constraint.domain constraint.value constraint.citation
  snapshotVersion := stamps.snapshotVersion
  grantSlicePosition := stamps.grantSlicePosition
  evaluationRulesetVersion := stamps.evaluationRulesetVersion
  questionHash := questionHash digest question

/-- Steps 3 to 7: the decision on a well-formed question. -/
def decideQuestion (slice : List GrantRecord) (question : Question)
    (stamps : Stamps) : Except Interruption Decision := do
  let (winner, matched, fallback) ← matchAndWin snapshot question.domain question.operation
    question.resource (factDict question.facts)
  let grant := grantOverlay digest slice question winner
  let constraints ← attachConstraints snapshot question (decidedEffect winner grant)
  return assembleDecision digest question stamps winner matched fallback grant constraints

def illPosed (code : IllPosedCode) (detail : String) (stamps : Stamps) : IllPosedVerdict where
  code := code
  detail := detail
  snapshotVersion := stamps.snapshotVersion
  grantSlicePosition := stamps.grantSlicePosition
  evaluationRulesetVersion := stamps.evaluationRulesetVersion

/-- `repr` of a list of terms. -/
def reprTerms (terms : List String) : String := (Json.arr (terms.map .str)).repr

def questionDefect (question : Question) (stamps : Stamps) :
    Option IllPosedVerdict :=
  match rebuildQuestion question with
  | .error text =>
    some (illPosed .nonCanonical ("MalformedQuestionError(\"" ++ text ++ "\")") stamps)
  | .ok rebuilt =>
    let supplied := question.facts.map Prod.fst
    let required := requiredFactNames snapshot question.operation
    if rebuilt ≠ question then
      some (illPosed .nonCanonical "facts_not_in_canonical_order" stamps)
    else if (question.domain, question.operation) ∉ snapshot.declaredFacts.map Prod.fst then
      some (illPosed .unknownAction (question.domain ++ "." ++ question.operation) stamps)
    else if ∃ name ∈ required.elements, name ∉ supplied then
      some (illPosed .missingFacts
        (reprTerms (required.elements.filter fun name ↦ name ∉ supplied)) stamps)
    else if ∃ name ∈ supplied, name ∉ required then
      some (illPosed .undeclaredFacts
        (reprTerms (supplied.filter fun name ↦ name ∉ required)) stamps)
    else none

structure MemoKey where
  stamps : Stamps
  questionHash : String
  deriving DecidableEq

/-- The caller-owned memo. -/
abbrev Memo := OrderedDict MemoKey Decision

def currentEvaluationRulesetVersion : Nat := 1

/-- `_check_inputs`, on stamps of the right types. -/
def checkInputs (stamps : Stamps) : Option Refusal :=
  if stamps.snapshotVersion < 1 then
    some ⟨.malformedEvaluationInput, "evaluator.bad_snapshot_version:" ++
      toString stamps.snapshotVersion⟩
  else if stamps.evaluationRulesetVersion ≠ currentEvaluationRulesetVersion then
    some ⟨.unsupportedEvaluationRulesetVersion, "evaluator.unsupported_ruleset_version:" ++
      toString stamps.evaluationRulesetVersion⟩
  else none

/-- What `evaluate` makes of the end of steps 3 to 7. -/
def conclude (stamps : Stamps) : Except Interruption Decision → Except Refusal Outcome
  | .ok decision => .ok (.decision decision)
  | .error (.incomparable text) => .ok (.illPosed (illPosed .incomparable text stamps))
  | .error (.keyError fact) => .error ⟨.keyError, fact⟩
  | .error (.totalityHole text) => .error ⟨.snapshotIntegrity, text⟩
  | .error (.noUndominatedWinner text) => .error ⟨.snapshotIntegrity, text⟩
  | .error (.divergentCowinners text) => .error ⟨.snapshotIntegrity, text⟩

/-- `evaluate`: the outcome, and the memo afterwards. -/
def evaluate (slice : List GrantRecord) (question : Question)
    (stamps : Stamps) (memo : Option Memo) : Except Refusal Outcome × Option Memo :=
  match checkInputs stamps with
  | some refusal => (.error refusal, memo)
  | none =>
    match questionDefect snapshot question stamps with
    | some verdict => (.ok (.illPosed verdict), memo)
    | none =>
      let key : MemoKey := { stamps := stamps, questionHash := questionHash digest question }
      match memo.bind fun memo ↦ memo.get? key with
      | some decision => (.ok (.decision decision), memo)
      | none =>
        let result := decideQuestion digest snapshot slice question stamps
        (conclude stamps result,
          match result with
          | .ok decision => memo.map fun memo ↦ memo.insert key decision
          | .error _ => memo)

end Evaluate

end AbsoluteZero.Governance

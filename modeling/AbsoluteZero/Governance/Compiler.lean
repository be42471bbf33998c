import AbsoluteZero.Governance.Store
import Mathlib.Algebra.Order.Ring.Rat
import Mathlib.Order.WithBot

/-!
# The admission compiler

`compile_snapshot` reads the policy set as of a catalog position and either rejects it with findings
or compiles it into a snapshot; a stage reports all its findings, and the first stage that has
errors rejects. The content hash is a parameter, the function `digest` from the payload to its text.
-/

namespace AbsoluteZero.Governance

open Foundations

/-! ### Findings -/

/-- The stages that report findings. -/
inductive Stage
  | vocabulary
  | scopeModifier
  | dependency
  | totality
  | conflict
  | construction

def Stage.text : Stage → String
  | .vocabulary => "vocabulary"
  | .scopeModifier => "scope_modifier"
  | .dependency => "dependency"
  | .totality => "totality"
  | .conflict => "conflict"
  | .construction => "construction"

/-- `ERROR` and `WARNING`. -/
inductive Severity
  | error
  | warning

def Severity.text : Severity → String
  | .error => "error"
  | .warning => "warning"

/-- `CORRUPTION` and `AUTHORING`. -/
inductive ErrorClass
  | corruption
  | authoring

inductive FindingCode
  | domainUnresolved
  | operationUnresolved
  | factUnresolved
  | finalIllegalScope
  | finalContradicted
  | versionAhead
  | totalityGap
  | undecidableConflict
  | shadowed
  | staleVocabulary

def FindingCode.text : FindingCode → String
  | .domainUnresolved => "vocabulary_domain_unresolved"
  | .operationUnresolved => "vocabulary_operation_unresolved"
  | .factUnresolved => "vocabulary_fact_unresolved"
  | .finalIllegalScope => "final_illegal_scope"
  | .finalContradicted => "final_contradicted"
  | .versionAhead => "vocabulary_version_ahead_of_compile"
  | .totalityGap => "totality_gap"
  | .undecidableConflict => "undecidable_conflict"
  | .shadowed => "shadowed_by_precedence"
  | .staleVocabulary => "stale_vocabulary_version"

/-- A citation in a finding, which may name a whole document. -/
structure FindingCitation where
  did : DocId
  version : Nat
  ruleId : Option String

structure Finding where
  stage : Stage
  severity : Severity
  errorClass : Option ErrorClass
  code : FindingCode
  message : String
  citations : List FindingCitation
  witness : Json

/-- `repr` of a citation. -/
def FindingCitation.repr (citation : FindingCitation) : String :=
  "(" ++ reprDocId citation.did ++ ", " ++ toString citation.version ++ ", " ++
    (match citation.ruleId with
    | some ruleId => Json.quoted ruleId
    | none => "None") ++ ")"

/-- `repr` of a tuple of citations. -/
def reprCitations : List FindingCitation → String
  | [] => "()"
  | [citation] => "(" ++ citation.repr ++ ",)"
  | citations => "(" ++ ", ".intercalate (citations.map FindingCitation.repr) ++ ")"

def Finding.sortKey (finding : Finding) : String ×ₗ String ×ₗ String ×ₗ String ×ₗ
    String ×ₗ String :=
  toLex (finding.stage.text, toLex (finding.severity.text, toLex (finding.code.text,
    toLex (reprCitations finding.citations, toLex (finding.witness.repr, finding.message)))))

def cited (citation : Citation) : FindingCitation where
  did := (ofLex citation).1
  version := (ofLex (ofLex citation).2).1
  ruleId := some (ofLex (ofLex citation).2).2

/-! ### Overlap of selectors and conditions -/

/-- `_selectors_overlap`: equal, or one of them the wildcard. -/
def selectorsOverlap (first second : String) : Bool :=
  first = second || first = "*" || second = "*"

def overlapWitnessSelector (first second : String) : String :=
  if first = second then first else if first = "*" then second else first

/-- A bound of an interval: a number or an infinity. -/
abbrev Bound := WithBot (WithTop Rat)

def Bound.of (number : Rat) : Bound := ((number : WithTop Rat) : WithBot (WithTop Rat))

structure Interval where
  low : Bound
  lowOpen : Bool
  high : Bound
  highOpen : Bool

/-- `_interval`: the numbers that satisfy a range comparison; none for the other operators. -/
def interval? (op : ComparisonOp) (number : Rat) : Option Interval :=
  match op with
  | .lt => some ⟨⊥, true, .of number, true⟩
  | .lte => some ⟨⊥, true, .of number, false⟩
  | .gt => some ⟨.of number, true, ((⊤ : WithTop Rat) : Bound), true⟩
  | .gte => some ⟨.of number, false, ((⊤ : WithTop Rat) : Bound), true⟩
  | .eq | .ne => none

def intervalsDisjoint (first second : Interval) : Bool :=
  decide (first.high < second.low) ||
    (decide (first.high = second.low) && (first.highOpen || second.lowOpen)) ||
  (decide (second.high < first.low) ||
    (decide (second.high = first.low) && (second.highOpen || first.lowOpen)))

namespace Condition

def range? : Condition → Option Interval
  | .comparison _ op value => value.val.numeric?.bind (interval? op)
  | _ => none

/-- `_finite_constraint`: a fact is, or is not, one of finitely many values. -/
def finiteConstraint? : Condition → Option (SetOp × List Scalar)
  | .comparison _ .eq value => some (.isIn, [value])
  | .comparison _ .ne value => some (.notIn, [value])
  | .setMembership _ op values => some (op, values)
  | _ => none

def singleFact? : Condition → Option String
  | .comparison fact _ _ => some fact
  | .setMembership fact _ _ => some fact
  | .composition .. | .negation _ => none

end Condition

/-- Two finite constraints that no value satisfies together. -/
def constraintsDisjoint : SetOp × List Scalar → SetOp × List Scalar → Bool
  | (.isIn, first), (.isIn, second) => first.all fun value ↦ !value.isIn second
  | (.isIn, first), (.notIn, second) => first.all fun value ↦ value.isIn second
  | (.notIn, first), (.isIn, second) => second.all fun value ↦ value.isIn first
  | (.notIn, _), (.notIn, _) => false

def sameFactDisjoint (first second : Condition) : Bool :=
  match first.range?, second.range? with
  | some interval, some interval' => intervalsDisjoint interval interval'
  | _, _ =>
    match first.finiteConstraint?, second.finiteConstraint? with
    | some constraint, some constraint' => constraintsDisjoint constraint constraint'
    | _, _ => false

/-- `_conditions_provably_disjoint`: only comparisons and memberships of the same fact. -/
def conditionsProvablyDisjoint : Option Condition → Option Condition → Bool
  | some first, some second =>
    match first.singleFact?, second.singleFact? with
    | some fact, some fact' => decide (fact = fact') && sameFactDisjoint first second
    | _, _ => false
  | _, _ => false

def targetsOverlap (first second : Target) : Bool :=
  first.domain = second.domain && first.operation = second.operation &&
    selectorsOverlap first.resourceSelector second.resourceSelector

structure Assembled where
  did : DocId
  version : Nat
  document : PolicyDocument

/-- A rule of the policy set, with the document it stands in. -/
structure ScopedRule where
  did : DocId
  version : Nat
  scope : Scope
  rule : Rule

def ScopedRule.citation (entry : ScopedRule) : Citation :=
  Governance.citation entry.did entry.version entry.rule.ruleId

def ScopedRule.action (entry : ScopedRule) : String ×ₗ String :=
  toLex (entry.rule.target.domain, entry.rule.target.operation)

def Assembled.scopedRules (entry : Assembled) : List ScopedRule :=
  entry.document.rules.map fun rule ↦ ⟨entry.did, entry.version, entry.document.header.scope, rule⟩

/-- The rules of the policy set, document by document. -/
def scopedRules (assembled : List Assembled) : List ScopedRule :=
  assembled.flatMap Assembled.scopedRules

/-- Stage 1, assembly: the document versions as of the position, less those marked as deprecated,
sorted. -/
def assemble (store : PolicyStore) (position : Nat) : List Assembled :=
  sortedBy (fun entry : Assembled ↦ toLex (entry.did, entry.version))
    ((store.documentsAsOf position).filterMap fun ref ↦
      if store.isDeprecated ref.1 ref.2 then none
      else (store.documentVersion ref.1 ref.2).map (Assembled.mk ref.1 ref.2))

/-- The findings of `_check_vocabulary` about one rule. -/
def vocabularyFindings (vocabulary : Vocabulary) (entry : ScopedRule) : List Finding :=
  let target := entry.rule.target
  if target.domain ∉ vocabulary.domains then
    [{ stage := .vocabulary, severity := .error, errorClass := some .corruption
       code := .domainUnresolved
       message := "rule targets a domain absent from the compile vocabulary -- impossible under " ++
           "PS-8 additivity; indicates Store-integrity corruption, not an authoring error"
       citations := [cited entry.citation]
       witness := .obj [("domain", .str target.domain)] }]
  else
    (if vocabulary.operations.elements ≠ [] ∧
        target.domain ++ "." ++ target.operation ∉ vocabulary.operations then
      [{ stage := .vocabulary, severity := .error, errorClass := some .corruption
         code := .operationUnresolved
         message := "rule targets an operation absent from the compile vocabulary"
         citations := [cited entry.citation]
         witness := .obj [("domain", .str target.domain), ("operation", .str target.operation)] }]
    else []) ++
    (((entry.rule.condition.map Condition.factNames).getD []).filter fun fact ↦
      fact ∉ vocabulary.factNames).map fun fact ↦
      { stage := .vocabulary, severity := .error, errorClass := some .corruption
        code := .factUnresolved
        message := "rule condition references a fact name absent from the compile vocabulary"
        citations := [cited entry.citation]
        witness := .obj [("fact", .str fact)] }

def checkVocabulary (assembled : List Assembled) (vocabulary : Vocabulary) : List Finding :=
  sortedBy Finding.sortKey ((scopedRules assembled).flatMap (vocabularyFindings vocabulary))

/-- `_check_scope_and_modifier`: final rules stand at the system scope, and no rule of a higher
scope with another effect overlaps one of them. -/
def checkScopeAndModifier (assembled : List Assembled) : List Finding :=
  let finals := (scopedRules assembled).filter fun entry ↦ entry.rule.final
  let legality := (finals.filter fun entry ↦ entry.scope ≠ .system).map fun entry ↦
    { stage := .scopeModifier, severity := .error, errorClass := some .authoring
      code := .finalIllegalScope
      message := "`final` is legal at system scope only (SGPE/00 §6)"
      citations := [cited entry.citation]
      witness := .obj [("scope", .str entry.scope.text)] }
  if legality ≠ [] then
    sortedBy Finding.sortKey legality
  else
    sortedBy Finding.sortKey (finals.flatMap fun final ↦
      ((scopedRules assembled).filter fun entry ↦ entry.scope ≠ .system ∧
        targetsOverlap final.rule.target entry.rule.target ∧
        ¬ final.rule.effect.pyEq entry.rule.effect).map fun entry ↦
          { stage := .scopeModifier, severity := .error, errorClass := some .authoring
            code := .finalContradicted
            message := "a higher-scope rule contradicts a system-scope `final` rule"
            citations := [cited final.citation, cited entry.citation]
            witness := .obj [("domain", .str final.rule.target.domain),
              ("operation", .str final.rule.target.operation)] })

def versionsWitness (document : PolicyDocument) (vocabulary : Vocabulary) : Json :=
  .obj [("document_vocabulary_version", .int document.header.vocabularyVersion),
    ("compile_vocabulary_version", .int vocabulary.version)]

def checkDependency (assembled : List Assembled) (vocabulary : Vocabulary) : List Finding :=
  sortedBy Finding.sortKey ((assembled.filter fun entry ↦
    vocabulary.version < entry.document.header.vocabularyVersion).map fun entry ↦
      { stage := .dependency, severity := .error, errorClass := some .corruption
        code := .versionAhead
        message := "document references a vocabulary version newer than the compile vocabulary -- " ++
            "impossible through the Store's own append checks; indicates Store-integrity corruption"
        citations := [⟨entry.did, entry.version, none⟩]
        witness := versionsWitness entry.document vocabulary })

/-- `term.partition(".")`, without the separator. -/
def partitionDot (term : String) : String × String :=
  let parts := term.toList.span (· ≠ '.')
  (String.ofList parts.1, String.ofList parts.2.tail)

/-- The actions that the system scope answers for every resource, as far as selectors go. -/
def covered (assembled : List Assembled) : List (String × String) :=
  ((scopedRules assembled).filter fun entry ↦
    entry.scope = .system ∧ entry.rule.target.resourceSelector = "*").map fun entry ↦
      (entry.rule.target.domain, entry.rule.target.operation)

def checkTotality (assembled : List Assembled) (vocabulary : Vocabulary) : List Finding :=
  (vocabulary.operations.elements.filter fun term ↦
    partitionDot term ∉ covered assembled).map fun term ↦
      { stage := .totality, severity := .error, errorClass := some .authoring
        code := .totalityGap
        message := "system-default scope has no universal (resource selector '*') rule for this " ++
            "domain/operation -- INV-12 requires the system scope to answer every declared operation"
        citations := []
        witness := .obj [("domain", .str (partitionDot term).1),
          ("operation", .str (partitionDot term).2)] }

/-! ### Stage 6: conflicts -/

/-- The rules that decide a pair. -/
inductive DecidedBy
  | scope
  | denyOverrides
  | minLimit

def DecidedBy.text : DecidedBy → String
  | .scope => "scope-precedence"
  | .denyOverrides => "deny-overrides"
  | .minLimit => "minimum-limit"

theorem DecidedBy.text_injective : Function.Injective DecidedBy.text := by
  intro first second htext
  cases first <;> cases second <;> first | rfl | exact absurd htext (by decide)

instance : LinearOrder DecidedBy := LinearOrder.lift' DecidedBy.text DecidedBy.text_injective

/-- `EFFECT_PRIORITY`; limits take no part in it. -/
def EffectKind.priority : EffectKind → Nat
  | .deny => 3
  | .requireApproval => 2
  | .allow => 1
  | .limit => 0

/-- A decided pair. The loser is eclipsed only if the two disagree. -/
structure PairDecision where
  winner : Citation
  loser : Citation
  decidedBy : DecidedBy
  realShadow : Bool

/-- `_decide_pair`: scope precedence, then deny-overrides for permissions and the minimum for
limits; none if these do not cover the pair. -/
def decidePair (first second : ScopedRule) : Option PairDecision :=
  let effect := first.rule.effect
  let effect' := second.rule.effect
  if first.scope.rank ≠ second.scope.rank then
    if second.scope.rank < first.scope.rank then
      some ⟨first.citation, second.citation, .scope, true⟩
    else
      some ⟨second.citation, first.citation, .scope, true⟩
  else if (effect.kind = .limit) ≠ (effect'.kind = .limit) then none
  else if effect.kind = .limit then
    match effect.value.numeric?, effect'.value.numeric? with
    | some number, some number' =>
      if number = number' then some ⟨first.citation, second.citation, .minLimit, false⟩
      else if number < number' then some ⟨first.citation, second.citation, .minLimit, true⟩
      else some ⟨second.citation, first.citation, .minLimit, true⟩
    | _, _ => none
  else if effect.kind.priority = effect'.kind.priority then
    some ⟨first.citation, second.citation, .denyOverrides, false⟩
  else if effect'.kind.priority < effect.kind.priority then
    some ⟨first.citation, second.citation, .denyOverrides, true⟩
  else
    some ⟨second.citation, first.citation, .denyOverrides, true⟩

/-- The pairs of a list, earlier item first, in the order of two nested loops. -/
def pairsOf {Item : Type} : List Item → List (Item × Item)
  | [] => []
  | item :: rest => rest.map (Prod.mk item) ++ pairsOf rest

/-- The rules of the policy set in the order of their citations. -/
def sortedRules (assembled : List Assembled) : List ScopedRule :=
  sortedBy ScopedRule.citation (scopedRules assembled)

/-- The pairs that can match together: same action, overlapping selectors, and conditions that are
not provably disjoint. -/
def contestedPairs (assembled : List Assembled) : List (ScopedRule × ScopedRule) :=
  let rules := sortedRules assembled
  let actions := SortedSet.ofList (rules.map ScopedRule.action)
  (actions.elements.flatMap fun action ↦
    pairsOf (rules.filter fun entry ↦ entry.action = action)).filter fun pair ↦
      selectorsOverlap pair.1.rule.target.resourceSelector pair.2.rule.target.resourceSelector &&
        !conditionsProvablyDisjoint pair.1.rule.condition pair.2.rule.condition

/-- What was decided about one rule: by which rules, and whom it shadows. -/
structure Judgement where
  decidedBy : SortedSet DecidedBy
  shadows : SortedSet Citation

/-- Nothing was decided. -/
def Judgement.empty : Judgement := ⟨.empty, .empty⟩

abbrev Decisions := OrderedDict Citation Judgement

/-- `decisions.get(citation, {})`. -/
def judgementOf (decisions : Decisions) (citation : Citation) : Judgement :=
  (decisions.get? citation).getD .empty

def recordDecision (decisions : Decisions) (citation : Citation) (decidedBy : DecidedBy) :
    Decisions :=
  let judgement := judgementOf decisions citation
  decisions.insert citation { judgement with decidedBy := judgement.decidedBy.insert decidedBy }

def recordShadow (decisions : Decisions) (decision : PairDecision) : Decisions :=
  let judgement := judgementOf decisions decision.winner
  decisions.insert decision.winner
    { judgement with shadows := judgement.shadows.insert decision.loser }

/-- One turn of the inner loop of `_detect_conflicts`, for a decided pair. -/
def notePair (decisions : Decisions) (pair : ScopedRule × ScopedRule) : Decisions :=
  match decidePair pair.1 pair.2 with
  | none => decisions
  | some decision =>
    let marked := recordDecision (recordDecision decisions decision.winner decision.decidedBy)
      decision.loser decision.decidedBy
    if decision.realShadow then recordShadow marked decision else marked

def conflictError (pair : ScopedRule × ScopedRule) : Finding where
  stage := .conflict
  severity := .error
  errorClass := some .authoring
  code := .undecidableConflict
  message := "overlapping rule pair cannot be decided by the SGPE/00 §6 three-rule procedure " ++
      "(scope precedence / deny-overrides / minimum-limit)"
  citations := [cited pair.1.citation, cited pair.2.citation]
  witness := .obj [("domain", .str pair.1.rule.target.domain),
    ("operation", .str pair.1.rule.target.operation),
    ("resource", .str (overlapWitnessSelector pair.1.rule.target.resourceSelector
      pair.2.rule.target.resourceSelector))]

def shadowWarning (decision : PairDecision) : Finding where
  stage := .conflict
  severity := .warning
  errorClass := none
  code := .shadowed
  message := "rule fully eclipsed by precedence -- kept in the snapshot but never wins"
  citations := [cited decision.winner, cited decision.loser]
  witness := .obj [("decided_by", .str decision.decidedBy.text)]

/-- The errors of `_detect_conflicts`. -/
def conflictErrors (assembled : List Assembled) : List Finding :=
  sortedBy Finding.sortKey (((contestedPairs assembled).filter fun pair ↦
    (decidePair pair.1 pair.2).isNone).map conflictError)

/-- The decisions of `_detect_conflicts`. -/
def decisionsOf (assembled : List Assembled) : Decisions :=
  (contestedPairs assembled).foldl notePair .empty

/-- The warnings of `_detect_conflicts`. -/
def shadowWarnings (assembled : List Assembled) : List Finding :=
  sortedBy Finding.sortKey (((contestedPairs assembled).filterMap fun pair ↦
    (decidePair pair.1 pair.2).filter PairDecision.realShadow).map shadowWarning)

def checkStaleVocabulary (assembled : List Assembled) (vocabulary : Vocabulary) : List Finding :=
  sortedBy Finding.sortKey ((assembled.filter fun entry ↦
    entry.document.header.vocabularyVersion < vocabulary.version).map fun entry ↦
      { stage := .construction, severity := .warning, errorClass := none
        code := .staleVocabulary
        message :=
          "document authored against an older vocabulary version than the compile vocabulary"
        citations := [⟨entry.did, entry.version, none⟩]
        witness := versionsWitness entry.document vocabulary })

structure IndexEntry where
  domain : String
  operation : String
  scope : Scope
  resourceSelector : String
  effect : Effect
  condition : Option Condition
  final : Bool
  citation : Citation
  decidedBy : List DecidedBy
  shadows : List Citation

structure CompiledSnapshot where
  catalogPosition : Nat
  vocabularyVersion : Nat
  compilerRulesetVersion : Nat
  documentRefs : List (DocId × Nat)
  entries : List IndexEntry
  declaredFacts : List ((String × String) × List String)
  contentHash : String

def indexEntry (decisions : Decisions) (entry : ScopedRule) : IndexEntry where
  domain := entry.rule.target.domain
  operation := entry.rule.target.operation
  scope := entry.scope
  resourceSelector := entry.rule.target.resourceSelector
  effect := entry.rule.effect
  condition := entry.rule.condition
  final := entry.rule.final
  citation := entry.citation
  decidedBy := (judgementOf decisions entry.citation).decidedBy.elements
  shadows := (judgementOf decisions entry.citation).shadows.elements

/-- The canonical order of entries. -/
def IndexEntry.sortKey (entry : IndexEntry) : String ×ₗ String ×ₗ Scope ×ₗ String ×ₗ Citation :=
  toLex (entry.domain, toLex (entry.operation, toLex (entry.scope,
    toLex (entry.resourceSelector, entry.citation))))

/-- The fact names that the conditions of a rule mention, added to those of its action. -/
def declareFacts (declared : OrderedDict (String × String) TermSet) (entry : ScopedRule) :
    OrderedDict (String × String) TermSet :=
  let key := (entry.rule.target.domain, entry.rule.target.operation)
  declared.insert key (((declared.get? key).getD .empty).update
    ((entry.rule.condition.map Condition.factNames).getD []))

def declaredFacts (assembled : List Assembled) : List ((String × String) × List String) :=
  (sortedBy (fun item : (String × String) × TermSet ↦ toLex item.1)
    ((scopedRules assembled).foldl declareFacts .empty).items).map fun item ↦
      (item.1, item.2.elements)

/-- `_entry_to_dict`. -/
def IndexEntry.toJson (entry : IndexEntry) : Json :=
  .obj [("domain", .str entry.domain), ("operation", .str entry.operation),
    ("scope", .str entry.scope.text), ("resource_selector", .str entry.resourceSelector),
    ("effect_kind", .str entry.effect.kind.text), ("effect_value", entry.effect.value),
    ("condition", conditionToJson entry.condition), ("final", .bool entry.final),
    ("citation", citationToJson entry.citation),
    ("decided_by", .arr (entry.decidedBy.map fun marker ↦ .str marker.text)),
    ("shadows", .arr (entry.shadows.map citationToJson))]

/-- The payload of `_content_hash`. -/
def snapshotPayload (position vocabularyVersion rulesetVersion : Nat)
    (documentRefs : List (DocId × Nat)) (entries : List IndexEntry)
    (declared : List ((String × String) × List String)) : Json :=
  .obj [("catalog_position", .int position), ("vocabulary_version", .int vocabularyVersion),
    ("compiler_ruleset_version", .int rulesetVersion),
    ("document_refs", .arr (documentRefs.map documentRefToJson)),
    ("entries", .arr (entries.map IndexEntry.toJson)),
    ("declared_facts", .arr (declared.map fun item ↦
      .arr [.arr [.str item.1.1, .str item.1.2], .arr (item.2.map .str)]))]

section Compile

variable (digest : Json → String)

def snapshotEntries (assembled : List Assembled) : List IndexEntry :=
  sortedBy IndexEntry.sortKey
    ((scopedRules assembled).map (indexEntry (decisionsOf assembled)))

def constructSnapshot (assembled : List Assembled) (position : Nat) (vocabulary : Vocabulary)
    (rulesetVersion : Nat) : CompiledSnapshot :=
  let documentRefs := assembled.map fun entry ↦ (entry.did, entry.version)
  let entries := snapshotEntries assembled
  let declared := declaredFacts assembled
  { catalogPosition := position
    vocabularyVersion := vocabulary.version
    compilerRulesetVersion := rulesetVersion
    documentRefs := documentRefs
    entries := entries
    declaredFacts := declared
    contentHash := digest (snapshotPayload position vocabulary.version rulesetVersion documentRefs
      entries declared) }

/-! ### The pipeline -/

structure CompileReport where
  catalogPosition : Nat
  vocabularyVersion : Nat
  compilerRulesetVersion : Nat
  manifestEcho : List (DocId × Nat)
  errors : List Finding
  warnings : List Finding
  contentHash : Option String

/-- A compile result: the report, and the snapshot of a compiled one. A result without a snapshot is
a rejection. -/
structure CompileResult where
  report : CompileReport
  snapshot : Option CompiledSnapshot

inductive CompileOutcome
  | compiled
  | rejected
  deriving DecidableEq

def CompileResult.outcome (result : CompileResult) : CompileOutcome :=
  if result.snapshot.isSome then .compiled else .rejected

def finish (position rulesetVersion : Nat) (vocabulary : Vocabulary) (assembled : List Assembled)
    (errors warnings : List Finding) (snapshot : Option CompiledSnapshot) : CompileResult where
  report :=
    { catalogPosition := position
      vocabularyVersion := vocabulary.version
      compilerRulesetVersion := rulesetVersion
      manifestEcho := assembled.map fun entry ↦ (entry.did, entry.version)
      errors := sortedBy Finding.sortKey errors
      warnings := sortedBy Finding.sortKey warnings
      contentHash := snapshot.map CompiledSnapshot.contentHash }
  snapshot := snapshot

/-- Stages 2 to 8 of `compile_snapshot`, on an assembled policy set. -/
def compileAssembled (assembled : List Assembled) (position : Nat) (vocabulary : Vocabulary)
    (rulesetVersion : Nat) : CompileResult :=
  let reject := fun errors warnings ↦
    finish position rulesetVersion vocabulary assembled errors warnings none
  if checkVocabulary assembled vocabulary ≠ [] then
    reject (checkVocabulary assembled vocabulary) []
  else if checkScopeAndModifier assembled ≠ [] then
    reject (checkScopeAndModifier assembled) []
  else if checkDependency assembled vocabulary ≠ [] then
    reject (checkDependency assembled vocabulary) []
  else if checkTotality assembled vocabulary ≠ [] then
    reject (checkTotality assembled vocabulary) []
  else if conflictErrors assembled ≠ [] then
    reject (conflictErrors assembled) (shadowWarnings assembled)
  else
    finish position rulesetVersion vocabulary assembled []
      (shadowWarnings assembled ++ checkStaleVocabulary assembled vocabulary)
      (some (constructSnapshot digest assembled position vocabulary rulesetVersion))

def currentCompilerRulesetVersion : Nat := 1

def compileSnapshot (store : PolicyStore) (position rulesetVersion : Nat) :
    Except Refusal CompileResult :=
  if store.catalogPosition < position then
    .error ⟨.malformedCompileInput, "compiler.position_beyond_catalog:" ++ toString position⟩
  else if rulesetVersion ≠ currentCompilerRulesetVersion then
    .error ⟨.unsupportedCompilerRulesetVersion, "compiler.unsupported_ruleset_version:" ++
      toString rulesetVersion⟩
  else
    match store.vocabularyAsOf position with
    | none => .error ⟨.malformedCompileInput, "compiler.no_vocabulary_as_of_position:" ++
        toString position⟩
    | some vocabulary =>
      .ok (compileAssembled digest (assemble store position) position vocabulary rulesetVersion)

/-- `regenerate`: recompile what a manifest records, and compare the content hash. The texts leave
out the `repr` of the manifest. -/
def regenerate (store : PolicyStore) (recorded : SnapshotManifest) :
    Except Refusal CompiledSnapshot := do
  let result ← compileSnapshot digest store recorded.catalogPosition
    recorded.compilerRulesetVersion
  match result.snapshot with
  | none => throw ⟨.regenerationMismatch, "compiler.regeneration_rejected"⟩
  | some snapshot =>
    if snapshot.contentHash ≠ recorded.contentHash then
      throw ⟨.regenerationMismatch, "compiler.regeneration_hash_mismatch:expected=" ++
        recorded.contentHash ++ ":got=" ++ snapshot.contentHash⟩
    else
      return snapshot

end Compile

/-- `build_manifest`, on fields of the right types. -/
def buildManifest (recorded : SnapshotManifest) : Except Refusal SnapshotManifest :=
  if recorded.snapshotVersion < 1 then
    .error ⟨.malformedManifest, "manifest.bad_snapshot_version:" ++
      toString recorded.snapshotVersion⟩
  else if recorded.vocabularyVersion < 1 then
    .error ⟨.malformedManifest, "manifest.bad_vocabulary_version:" ++
      toString recorded.vocabularyVersion⟩
  else if recorded.compilerRulesetVersion < 1 then
    .error ⟨.malformedManifest, "manifest.bad_compiler_ruleset_version:" ++
      toString recorded.compilerRulesetVersion⟩
  else if recorded.contentHash = "" then
    .error ⟨.malformedManifest, "manifest.bad_content_hash:''"⟩
  else .ok recorded

def PolicyStore.activeSnapshotVersion (store : PolicyStore) : Option Nat :=
  store.activations.getLast?.map ActivationFact.snapshotVersion

def PolicyStore.nextSnapshotVersion (store : PolicyStore) : Nat :=
  store.activeSnapshotVersion.getD 0 + 1

def CompiledSnapshot.manifest (snapshot : CompiledSnapshot) (version : Nat) : SnapshotManifest where
  snapshotVersion := version
  catalogPosition := snapshot.catalogPosition
  vocabularyVersion := snapshot.vocabularyVersion
  compilerRulesetVersion := snapshot.compilerRulesetVersion
  documentRefs := snapshot.documentRefs
  contentHash := snapshot.contentHash

/-- `activate`: the manifest is appended, then the activation fact, in two writes. -/
def activate (result : CompileResult) : StoreCall Unit := do
  let desk ← get
  match result.snapshot with
  | none =>
    throw ⟨.activationRefused, "compiler.activation_requires_zero_error_compiled_result"⟩
  | some snapshot =>
    if result.report.errors ≠ [] then
      throw ⟨.activationRefused, "compiler.activation_requires_zero_error_compiled_result"⟩
    else do
      let previous := desk.store.activeSnapshotVersion
      let next := desk.store.nextSnapshotVersion
      match buildManifest (snapshot.manifest next) with
      | .error refusal => throw refusal
      | .ok recorded => do
        appendManifest recorded
        appendActivation { previousSnapshotVersion := previous, snapshotVersion := next }

/-- `rollback`: recompile what an old manifest records, and activate the result as a new version. -/
def rollback (digest : Json → String) (old : SnapshotManifest) : StoreCall Unit := do
  let desk ← get
  match compileSnapshot digest desk.store old.catalogPosition old.compilerRulesetVersion with
  | .error refusal => throw refusal
  | .ok result =>
    if result.snapshot.isNone ∨ result.report.errors ≠ [] then
      throw ⟨.activationRefused, "compiler.rollback_recompile_rejected"⟩
    else
      activate result

end AbsoluteZero.Governance

import AbsoluteZero.Foundations.Scalar
import AbsoluteZero.Foundations.SortedSet
import Mathlib.Data.Prod.Lex
import Mathlib.Data.String.Basic

/-!
# Policy documents

The closed grammar of conditions over the facts of a question. The builders refuse a malformed node;
the arities that `build_boolean` demands are in the type. A document is a header and an ordered list
of rules, no two with the same id; the citation of a rule is its document, the version and its id.
-/

namespace AbsoluteZero.Governance

open Foundations

/-- `COMPARISON_OPS`. -/
inductive ComparisonOp
  | eq
  | ne
  | lt
  | lte
  | gt
  | gte

/-- `SET_OPS`. -/
inductive SetOp
  | isIn
  | notIn

/-- The operators of `BOOL_OPS` that take two operands or more. -/
inductive BoolOp
  | and
  | or

/-- A condition node: `Comparison`, `SetMembership` or `BooleanComposition`, the last one split by
arity. -/
inductive Condition
  | comparison (fact : String) (op : ComparisonOp) (value : Scalar)
  | setMembership (fact : String) (op : SetOp) (values : List Scalar)
  | composition (op : BoolOp) (first second : Condition) (rest : List Condition)
  | negation (operand : Condition)

def ComparisonOp.text : ComparisonOp → String
  | .eq => "eq"
  | .ne => "ne"
  | .lt => "lt"
  | .lte => "lte"
  | .gt => "gt"
  | .gte => "gte"

def SetOp.text : SetOp → String
  | .isIn => "in"
  | .notIn => "not_in"

/-- The text of a boolean operator. -/
def BoolOp.text : BoolOp → String
  | .and => "and"
  | .or => "or"

namespace Condition

mutual

/-- `_walk_fact_names`: the facts a condition mentions, in order. -/
def factNames : Condition → List String
  | .comparison fact _ _ => [fact]
  | .setMembership fact _ _ => [fact]
  | .composition _ first second rest =>
    factNames first ++ (factNames second ++ factNamesOf rest)
  | .negation operand => factNames operand

def factNamesOf : List Condition → List String
  | [] => []
  | operand :: rest => factNames operand ++ factNamesOf rest

end

mutual

/-- `to_dict`. -/
def toJson : Condition → Json
  | .comparison fact op value => .obj [("node", .str "comparison"), ("fact", .str fact),
      ("op", .str op.text), ("value", value.val)]
  | .setMembership fact op values => .obj [("node", .str "set_membership"), ("fact", .str fact),
      ("op", .str op.text), ("values", .arr (values.map Subtype.val))]
  | .composition op first second rest => .obj [("node", .str "boolean"), ("op", .str op.text),
      ("operands", .arr (toJson first :: toJson second :: toJsonOf rest))]
  | .negation operand => .obj [("node", .str "boolean"), ("op", .str "not"),
      ("operands", .arr [toJson operand])]

def toJsonOf : List Condition → List Json
  | [] => []
  | operand :: rest => toJson operand :: toJsonOf rest

end

end Condition

/-- `EFFECT_KINDS`. -/
inductive EffectKind
  | allow
  | deny
  | requireApproval
  | limit
  deriving DecidableEq

def EffectKind.text : EffectKind → String
  | .allow => "ALLOW"
  | .deny => "DENY"
  | .requireApproval => "REQUIRE_APPROVAL"
  | .limit => "LIMIT"

structure Effect where
  kind : EffectKind
  value : Json
  value_iff : value ≠ .null ↔ kind = .limit
  deriving DecidableEq

namespace Effect

def allow : Effect := ⟨.allow, .null, by decide⟩
def deny : Effect := ⟨.deny, .null, by decide⟩
def requireApproval : Effect := ⟨.requireApproval, .null, by decide⟩

/-- `_effects_equal`, which is also how the evaluator compares winners. -/
def pyEq (first second : Effect) : Bool :=
  first.kind = second.kind && first.value.pyEq second.value

theorem value_of_ne_limit {effect : Effect} (hkind : effect.kind ≠ .limit) :
    effect.value = .null := by
  by_contra hvalue
  exact hkind (effect.value_iff.mp hvalue)

end Effect

/-- A target, in vocabulary terms. -/
structure Target where
  domain : String
  operation : String
  resourceSelector : String

structure Rule where
  ruleId : String
  target : Target
  effect : Effect
  condition : Option Condition
  final : Bool

/-! ### Documents -/

/-- `SCOPES`: the three scopes that are authored. -/
inductive Scope
  | system
  | project
  | user
  deriving DecidableEq

def Scope.text : Scope → String
  | .system => "system"
  | .project => "project"
  | .user => "user"

theorem Scope.text_injective : Function.Injective Scope.text := by
  intro first second htext
  cases first <;> cases second <;> first | rfl | exact absurd htext (by decide)

instance : LinearOrder Scope := LinearOrder.lift' Scope.text Scope.text_injective

/-- `SCOPE_RANK`: the order of precedence, which is not the order of the texts. -/
def Scope.rank : Scope → Nat
  | .system => 0
  | .project => 1
  | .user => 2

theorem Scope.rank_injective : Function.Injective Scope.rank := by
  intro first second hrank
  cases first <;> cases second <;> first | rfl | exact absurd hrank (by decide)

/-- Who authored a document, when and why. -/
structure Provenance where
  authorPrincipal : String
  authoringTimestamp : Json
  reason : String

structure Header where
  scope : Scope
  name : String
  domainRefs : List String
  provenance : Provenance
  vocabularyVersion : Nat
  schemaVersion : Nat

structure PolicyDocument where
  header : Header
  rules : List Rule
  nodup : (rules.map Rule.ruleId).Nodup

/-- The identity of a document. -/
abbrev DocId := Scope ×ₗ String

def PolicyDocument.docId (document : PolicyDocument) : DocId :=
  toLex (document.header.scope, document.header.name)

/-- A citation triple of a rule: document, version and rule id. -/
abbrev Citation := DocId ×ₗ Nat ×ₗ String

def citation (did : DocId) (version : Nat) (ruleId : String) : Citation :=
  toLex (did, toLex (version, ruleId))

theorem citation_inj {did did' : DocId} {version version' : Nat} {ruleId ruleId' : String} :
    citation did version ruleId = citation did' version' ruleId' ↔
      did = did' ∧ version = version' ∧ ruleId = ruleId' := by
  simp [citation]

/-- The id of a document as the list of its parts. -/
def docIdToJson (did : DocId) : Json := .arr [.str (ofLex did).1.text, .str (ofLex did).2]

/-- `_citation_to_list`. -/
def citationToJson (citation : Citation) : Json :=
  .arr [docIdToJson (ofLex citation).1, .int (ofLex (ofLex citation).2).1,
    .str (ofLex (ofLex citation).2).2]

def conditionToJson (condition : Option Condition) : Json :=
  match condition with
  | some condition => condition.toJson
  | none => .null

/-- `rule.to_dict`. -/
def Rule.toJson (rule : Rule) : Json :=
  .obj [("rule_id", .str rule.ruleId),
    ("target", .obj [("domain", .str rule.target.domain), ("operation", .str rule.target.operation),
      ("resource_selector", .str rule.target.resourceSelector)]),
    ("effect", .obj [("kind", .str rule.effect.kind.text), ("value", rule.effect.value)]),
    ("condition", conditionToJson rule.condition), ("final", .bool rule.final)]

def Provenance.toJson (provenance : Provenance) : Json :=
  .obj [("author_principal", .str provenance.authorPrincipal),
    ("authoring_timestamp", provenance.authoringTimestamp), ("reason", .str provenance.reason)]

def Header.toJson (header : Header) : Json :=
  .obj [("scope", .str header.scope.text), ("name", .str header.name),
    ("domain_refs", .arr (header.domainRefs.map .str)), ("provenance", header.provenance.toJson),
    ("vocabulary_version", .int header.vocabularyVersion),
    ("schema_version", .int header.schemaVersion)]

/-- `document.to_dict`. -/
def PolicyDocument.toJson (document : PolicyDocument) : Json :=
  .obj [("header", document.header.toJson), ("rules", .arr (document.rules.map Rule.toJson))]

end AbsoluteZero.Governance

import AbsoluteZero.Foundations.ClosedVocabulary
import AbsoluteZero.Verification.Evidence
import Mathlib.Data.List.Sort

/-!
# Derivation of verdicts

The pure function from a closed evidence body and a policy to its account. A claim is a rule at a
level; the evidence for it is every item of that rule and level. The quotient of two counts is a
parameter: the code divides in floating point.
-/

namespace AbsoluteZero.Verification

open Foundations

/-! ### Vocabularies -/

/-- `CANONICAL_LEVELS`. -/
inductive VerificationLevel
  | structural
  | execution
  | semantic
  | crossArtifact
  | system
  deriving DecidableEq

instance : ClosedVocabulary VerificationLevel where
  all := [.structural, .execution, .semantic, .crossArtifact, .system]
  text
    | .structural => "structural"
    | .execution => "execution"
    | .semantic => "semantic"
    | .crossArtifact => "cross_artifact"
    | .system => "system"

/-- `DIMENSIONS`. -/
inductive Dimension
  | structural
  | execution
  | semantic
  | consistency
  deriving DecidableEq

instance : ClosedVocabulary Dimension where
  all := [.structural, .execution, .semantic, .consistency]
  text
    | .structural => "structural"
    | .execution => "execution"
    | .semantic => "semantic"
    | .consistency => "consistency"

/-- `LEVEL_TO_DIMENSION`. -/
def VerificationLevel.dimension : VerificationLevel → Dimension
  | .structural => .structural
  | .execution => .execution
  | .semantic => .semantic
  | .crossArtifact | .system => .consistency

/-- `CONFIDENCE_LEVELS`. -/
inductive ConfidenceLevel
  | none
  | conflicted
  | weak
  | moderate
  | strong
  deriving DecidableEq

instance : ClosedVocabulary ConfidenceLevel where
  all := [.none, .conflicted, .weak, .moderate, .strong]
  text
    | .none => "none"
    | .conflicted => "conflicted"
    | .weak => "weak"
    | .moderate => "moderate"
    | .strong => "strong"

inductive Verdict
  | passed
  | failed
  deriving DecidableEq

instance : ClosedVocabulary Verdict where
  all := [.passed, .failed]
  text
    | .passed => "passed"
    | .failed => "failed"

/-- `FAILURE_CAUSES`, in the order in which they take precedence. -/
inductive FailureCause
  | contradictoryEvidence
  | inconclusiveVerification
  | executionFailure
  | verificationFailure
  | evidenceInsufficiency
  deriving DecidableEq

instance : ClosedVocabulary FailureCause where
  all := [.contradictoryEvidence, .inconclusiveVerification, .executionFailure,
    .verificationFailure, .evidenceInsufficiency]
  text
    | .contradictoryEvidence => "contradictory_evidence"
    | .inconclusiveVerification => "inconclusive_verification"
    | .executionFailure => "execution_failure"
    | .verificationFailure => "verification_failure"
    | .evidenceInsufficiency => "evidence_insufficiency"

/-- `ASSURANCE_LEVELS`. -/
inductive AssuranceLevel
  | verifiedHigh
  | verifiedModerate
  | verifiedLow
  | unverified
  | verificationFailed
  deriving DecidableEq

instance : ClosedVocabulary AssuranceLevel where
  all := [.verifiedHigh, .verifiedModerate, .verifiedLow, .unverified, .verificationFailed]
  text
    | .verifiedHigh => "Verified — High Assurance"
    | .verifiedModerate => "Verified — Moderate Assurance"
    | .verifiedLow => "Verified — Low Assurance"
    | .unverified => "Unverified"
    | .verificationFailed => "Verification Failed"

def worded {Word : Type} [ClosedVocabulary Word] (word : Word) : Json :=
  .str (ClosedVocabulary.text word)

/-- `DerivationPolicy`, with what `build_derivation_policy` checks. -/
structure DerivationPolicy where
  policyVersion : Int
  coverageModerateMinFraction : Rat
  coverageStrongMinFraction : Rat
  version_pos : 1 ≤ policyVersion
  moderate_pos : 0 < coverageModerateMinFraction
  strong_le_one : coverageStrongMinFraction ≤ 1
  moderate_le_strong : coverageModerateMinFraction ≤ coverageStrongMinFraction

/-! ### Verdict and cause -/

def passingResults : List Json := [.str "pass", .str "success"]

def executionFailureResults : List Json :=
  [.str "failure", .str "timeout", .str "crash", .str "execution_failure"]

def semanticFailResults : List Json := [.str "fail"]

namespace EvidenceItem

def Missing (item : EvidenceItem) : Prop := item.contributionKind = .str "missing"

def Conflicting (item : EvidenceItem) : Prop := item.contributionKind = .str "conflicting"

/-- The item reports a result that settles its claim well. -/
def Passing (item : EvidenceItem) : Prop := item.result ∈ passingResults

/-- The item reports that the check did not run through. -/
def ExecutionFailed (item : EvidenceItem) : Prop :=
  ¬ item.Missing ∧ item.result ∈ executionFailureResults

def SemanticFailed (item : EvidenceItem) : Prop :=
  ¬ item.Missing ∧ item.result ∈ semanticFailResults

/-- The item reports a result that settles nothing. -/
def Unresolved (item : EvidenceItem) : Prop :=
  ¬ item.Missing ∧ ¬ item.Passing ∧ item.result ∉ executionFailureResults ∧
    item.result ∉ semanticFailResults

variable (item : EvidenceItem)

instance : Decidable item.Missing := inferInstanceAs (Decidable (_ = _))
instance : Decidable item.Conflicting := inferInstanceAs (Decidable (_ = _))
instance : Decidable item.Passing := inferInstanceAs (Decidable (_ ∈ _))
instance : Decidable item.ExecutionFailed := inferInstanceAs (Decidable (_ ∧ _))
instance : Decidable item.SemanticFailed := inferInstanceAs (Decidable (_ ∧ _))
instance : Decidable item.Unresolved := inferInstanceAs (Decidable (_ ∧ _))

end EvidenceItem

def verdictAndCause (items : List EvidenceItem) : Verdict × Option FailureCause :=
  if items = [] then (.failed, some .evidenceInsufficiency)
  else if ∃ item ∈ items, item.Conflicting then (.failed, some .contradictoryEvidence)
  else if ∃ item ∈ items, item.Unresolved then (.failed, some .inconclusiveVerification)
  else if ∃ item ∈ items, item.ExecutionFailed then (.failed, some .executionFailure)
  else if ∃ item ∈ items, item.SemanticFailed then (.failed, some .verificationFailure)
  else if ∃ item ∈ items, item.Missing then (.failed, some .evidenceInsufficiency)
  else (.passed, none)

theorem verdictAndCause_eq_passed_iff {items : List EvidenceItem} :
    (verdictAndCause items).1 = .passed ↔
      items ≠ [] ∧ ∀ item ∈ items, item.Passing ∧ ¬ item.Missing ∧ ¬ item.Conflicting := by
  have hsettled : ∀ item : EvidenceItem,
      (¬ item.Conflicting ∧ ¬ item.Unresolved ∧ ¬ item.ExecutionFailed ∧ ¬ item.SemanticFailed ∧
        ¬ item.Missing) ↔ item.Passing ∧ ¬ item.Missing ∧ ¬ item.Conflicting := by
    intro item
    unfold EvidenceItem.Unresolved EvidenceItem.ExecutionFailed EvidenceItem.SemanticFailed
      EvidenceItem.Passing
    constructor
    · rintro ⟨hconflicting, hunresolved, hexecution, hsemantic, hmissing⟩
      refine ⟨?_, hmissing, hconflicting⟩
      by_contra hpassing
      exact hunresolved ⟨hmissing, hpassing, fun hresult ↦ hexecution ⟨hmissing, hresult⟩,
        fun hresult ↦ hsemantic ⟨hmissing, hresult⟩⟩
    · rintro ⟨hpassing, hmissing, hconflicting⟩
      have hnot : item.result ∉ executionFailureResults ∧ item.result ∉ semanticFailResults := by
        simp only [passingResults, List.mem_cons, List.not_mem_nil, or_false] at hpassing
        rcases hpassing with hresult | hresult <;> rw [hresult] <;> decide
      exact ⟨hconflicting, fun h ↦ h.2.1 hpassing, fun h ↦ hnot.1 h.2, fun h ↦ hnot.2 h.2, hmissing⟩
  simp only [← hsettled]
  unfold verdictAndCause
  split
  · next hitems => simp [hitems]
  next hitems =>
  split
  · next hsome =>
    obtain ⟨item, hmem, hitem⟩ := hsome
    exact ⟨by simp, fun hall ↦ absurd hitem (hall.2 item hmem).1⟩
  next hconflicting =>
  split
  · next hsome =>
    obtain ⟨item, hmem, hitem⟩ := hsome
    exact ⟨by simp, fun hall ↦ absurd hitem (hall.2 item hmem).2.1⟩
  next hunresolved =>
  split
  · next hsome =>
    obtain ⟨item, hmem, hitem⟩ := hsome
    exact ⟨by simp, fun hall ↦ absurd hitem (hall.2 item hmem).2.2.1⟩
  next hexecution =>
  split
  · next hsome =>
    obtain ⟨item, hmem, hitem⟩ := hsome
    exact ⟨by simp, fun hall ↦ absurd hitem (hall.2 item hmem).2.2.2.1⟩
  next hsemantic =>
  split
  · next hsome =>
    obtain ⟨item, hmem, hitem⟩ := hsome
    exact ⟨by simp, fun hall ↦ absurd hitem (hall.2 item hmem).2.2.2.2⟩
  next hmissing =>
  simp only [not_exists, not_and] at hconflicting hunresolved hexecution hsemantic hmissing
  refine ⟨fun _ ↦ ⟨hitems, fun item hmem ↦ ?_⟩, fun _ ↦ rfl⟩
  exact ⟨hconflicting item hmem, hunresolved item hmem, hexecution item hmem, hsemantic item hmem,
    hmissing item hmem⟩

/-! ### Claims -/

def itemLevel (item : EvidenceItem) : Except Refusal VerificationLevel :=
  let unknown := .error (.unknownVerificationLevel
    ("derivation.unknown_verification_level:" ++ item.level.repr))
  match item.level with
  | .str text => (ClosedVocabulary.read text).elim unknown .ok
  | _ => unknown

/-- The claim that an item bears on: its level and its rule, which must have a hash. -/
def claimKey (item : EvidenceItem) : Except Refusal (VerificationLevel × DictKey) :=
  match itemLevel item with
  | .error refusal => .error refusal
  | .ok level =>
    match item.rule.dictKey with
    | .error error => .error (.raised error)
    | .ok rule => .ok (level, rule)

/-- A claim with the evidence for it: each item with its position in the body. -/
structure Claim where
  level : VerificationLevel
  rule : Json
  entries : List (Nat × EvidenceItem)

def claimOf (keyed : List ((VerificationLevel × DictKey) × Nat × EvidenceItem))
    (key : VerificationLevel × DictKey) : Claim :=
  let entries := (keyed.filter fun entry ↦ entry.1 = key).map Prod.snd
  ⟨key.1, (entries.head?.map fun entry ↦ entry.2.rule).getD .null, entries⟩

def keyedEntry (entry : EvidenceItem × Nat) :
    Except Refusal ((VerificationLevel × DictKey) × Nat × EvidenceItem) :=
  (claimKey entry.1).map fun key ↦ (key, entry.2, entry.1)

/-- `_group_claims`: the claims in the order in which they first appear. -/
def groupClaims (items : List EvidenceItem) : Except Refusal (List Claim) :=
  (items.zipIdx.mapM keyedEntry).map fun keyed ↦
    (keyed.map Prod.fst).eraseDups.map (claimOf keyed)

/-- How well a claim stands. -/
inductive Strength
  | conflicted
  | absent
  | corroborated
  | single
  deriving DecidableEq

namespace Claim

/-- The positions of the claim's evidence. -/
def refs (claim : Claim) : List Nat := claim.entries.map Prod.fst

def kinds (claim : Claim) : List Json := claim.entries.map fun entry ↦ entry.2.contributionKind

/-- `_claim_strength`. -/
def strength (claim : Claim) : Strength :=
  if .str "conflicting" ∈ claim.kinds then .conflicted
  else if ∀ kind ∈ claim.kinds, kind = .str "missing" then .absent
  else
    match (claim.kinds.filter fun kind ↦
        kind = .str "independent" ∨ kind = .str "corroborating").length with
    | 0 => .absent
    | 1 => .single
    | _ => .corroborated

end Claim

/-- A confidence level with the positions of the evidence it rests on. -/
structure Confidence where
  level : ConfidenceLevel
  refs : List Nat

/-- The level that the strengths of the claims of a dimension give. -/
def confidenceLevel (strengths : List Strength) : ConfidenceLevel :=
  let established := strengths.filter fun strength ↦ strength = .corroborated ∨ strength = .single
  if strengths = [] then .none
  else if .conflicted ∈ strengths then .conflicted
  else if established = [] then .none
  else if ∀ strength ∈ established, strength = .corroborated then .strong
  else if ∀ strength ∈ established, strength = .single then .weak
  else .moderate

def dimensionConfidence (claims : List Claim) : Confidence :=
  ⟨confidenceLevel (claims.map Claim.strength),
    (claims.flatMap Claim.refs).dedup.mergeSort fun first second ↦ first ≤ second⟩

/-- The coverage of a body: how many of its claims are established. -/
structure Coverage where
  level : ConfidenceLevel
  established : Nat
  total : Nat
  refs : List Nat

variable (quotient : Nat → Nat → Rat) (policy : DerivationPolicy)

/-- The level of a number of established claims out of a positive total. -/
def coverageLevel (established total : Nat) : ConfidenceLevel :=
  if established = 0 then .none
  else if policy.coverageStrongMinFraction ≤ quotient established total then .strong
  else if policy.coverageModerateMinFraction ≤ quotient established total then .moderate
  else .weak

/-- The number of claims that some evidence stands behind. -/
def establishedCount (claims : List Claim) : Nat :=
  (claims.filter fun claim ↦ claim.strength ≠ .absent).length

def coverage (claims : List Claim) : Coverage :=
  ⟨coverageLevel quotient policy (establishedCount claims) claims.length, establishedCount claims,
    claims.length, List.range (claims.map fun claim ↦ claim.entries.length).sum⟩

/-- A claim for which nothing was found. -/
structure UncertaintyStatement where
  level : VerificationLevel
  rule : Json
  refs : List Nat

/-- `<` answers for two rules of one level: both are texts, or both are numbers. -/
def comparable (first second : Json) : Bool :=
  match first, second with
  | .str _, .str _ => true
  | _, _ => first.number?.isSome && second.number?.isSome

/-- The order of two comparable rules. -/
def ruleLe (first second : Json) : Bool :=
  match first, second with
  | .str a, .str b => a ≤ b
  | _, _ => first.number?.getD 0 ≤ second.number?.getD 0

/-- The order of two claims: by the text of the level, then by the rule. -/
def claimLe (first second : Claim) : Bool :=
  if first.level = second.level then ruleLe first.rule second.rule
  else ClosedVocabulary.text first.level ≤ ClosedVocabulary.text second.level

/-- `sorted(claim_order)`: a `TypeError` when two rules of one level have no order. -/
def sortedClaims (claims : List Claim) : Except Refusal (List Claim) :=
  if claims.Pairwise fun first second ↦
      first.level = second.level → comparable first.rule second.rule then
    .ok (claims.mergeSort claimLe)
  else .error (.raised .typeError)

def uncertainty (claims : List Claim) : Except Refusal (List UncertaintyStatement) :=
  (sortedClaims claims).map fun sorted ↦
    (sorted.filter fun claim ↦ claim.strength = .absent).map fun claim ↦
      ⟨claim.level, claim.rule, claim.refs⟩

def assuranceLevel (verdict : Verdict) (confidence : Dimension → ConfidenceLevel)
    (covered : ConfidenceLevel) : AssuranceLevel :=
  let applicable := ((ClosedVocabulary.all : List Dimension).map confidence).filter (· ≠ .none)
  if verdict = .failed then .verificationFailed
  else if applicable = [] then .verifiedLow
  else if (∀ level ∈ applicable, level = .strong) ∧ covered = .strong then .verifiedHigh
  else if ∀ level ∈ applicable, level = .weak then .verifiedLow
  else .verifiedModerate

/-- The account that `derive` answers. -/
structure Account where
  policyVersion : Int
  rulesVersion : Json
  verdict : Verdict
  failureCause : Option FailureCause
  confidence : Dimension → Confidence
  coverage : Coverage
  uncertainty : List UncertaintyStatement
  assuranceLevel : AssuranceLevel

def dimensionClaims (claims : List Claim) (dimension : Dimension) : List Claim :=
  claims.filter fun claim ↦ claim.level.dimension = dimension

def derive (record : EvidenceRecord) : Except Refusal Account := do
  let claims ← groupClaims record.items
  let statements ← uncertainty claims
  let confidence := fun dimension ↦ dimensionConfidence (dimensionClaims claims dimension)
  let covered := coverage quotient policy claims
  return {
    policyVersion := policy.policyVersion
    rulesVersion := record.rulesVersion
    verdict := (verdictAndCause record.items).1
    failureCause := (verdictAndCause record.items).2
    confidence := confidence
    coverage := covered
    uncertainty := statements
    assuranceLevel := assuranceLevel (verdictAndCause record.items).1
      (fun dimension ↦ (confidence dimension).level) covered.level }

/-- Positions as a list of numbers. -/
def refsJson (refs : List Nat) : Json := .arr (refs.map fun (ref : Nat) ↦ .int ref)

namespace Account

variable (account : Account)

def statementJson (statement : UncertaintyStatement) : Json :=
  .obj [("level", worded statement.level), ("rule", statement.rule),
    ("reason", .str "missing_evidence"), ("refs", refsJson statement.refs)]

def confidenceJson (dimension : Dimension) : Json :=
  .obj [("level", worded (account.confidence dimension).level),
    ("refs", refsJson (account.confidence dimension).refs)]

def coverageJson (coverage : Coverage) : Json :=
  .obj [("level", worded coverage.level), ("established", .int coverage.established),
    ("total", .int coverage.total), ("refs", refsJson coverage.refs)]

/-- The account as the dict that `derive` returns. -/
def toJson : Json :=
  .obj [("policy_version", .int account.policyVersion), ("rules_version", account.rulesVersion),
    ("verdict", worded account.verdict),
    ("failure_cause", (account.failureCause.map worded).getD .null),
    ("confidence", .obj ((ClosedVocabulary.all : List Dimension).map fun dimension ↦
      (ClosedVocabulary.text dimension, account.confidenceJson dimension))),
    ("coverage", coverageJson account.coverage),
    ("uncertainty", .arr (account.uncertainty.map statementJson)),
    ("assurance_level", worded account.assuranceLevel)]

end Account

def attachDerivation (record : EvidenceRecord) : Except Refusal EvidenceRecord := do
  let account ← derive quotient policy record
  withDerivationAccount record account.toJson

end AbsoluteZero.Verification

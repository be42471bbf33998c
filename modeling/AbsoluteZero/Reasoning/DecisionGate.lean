import AbsoluteZero.Reasoning.ExecutionPolicy
import AbsoluteZero.Reasoning.RecordTexts

/-!
# The necessity gate

The gate checks the structure of the sealed inputs, the ladder of deterministic means, the two
claims of necessity and the policy, in that order. It never raises, the first condition that fails
names the outcome, and the order of the ladder's evidence does not matter (`decide_exact`).
-/

namespace AbsoluteZero.Reasoning.DecisionGate

open Foundations List

/-! ### Sealed inputs -/

/-- `RUNGS`, of the ladder below reasoning. -/
def rungs : List String := ["D1", "D2", "D3", "D4", "D5"]

/-- `LADDER_STATUSES`. -/
def ladderStatuses : List String := ["exhausted", "inapplicable", "untried"]

structure DemandArtifact where
  demandId : String
  requiredCapabilityId : String
  requiredRung : String
  scope : ApprovedScope
  underdetermined : JsonDict
  generalizationRequired : JsonDict

def DemandArtifact.toDict (demand : DemandArtifact) : Json :=
  .obj [("kind", .str "demand"), ("demand_id", .str demand.demandId),
    ("required_capability_id", .str demand.requiredCapabilityId),
    ("required_rung", .str demand.requiredRung), ("scope", demand.scope.toDict),
    ("underdetermined", demand.underdetermined.toJson),
    ("generalization_required", demand.generalizationRequired.toJson)]

structure LadderEvidence where
  rung : String
  status : String
  justification : String
  outcomeRecordRef : Option String

def LadderEvidence.toDict (evidence : LadderEvidence) : Json :=
  .obj [("kind", .str "ladder_evidence"), ("rung", .str evidence.rung),
    ("status", .str evidence.status), ("justification", .str evidence.justification),
    ("outcome_record_ref", optionalText evidence.outcomeRecordRef)]

structure PolicyView where
  reasoningPermitted : Bool
  permittedCategories : List Category
  permittedRungs : List Rung
  policyVersion : Int

/-- `SealedInputs`. Where the type of a field is checked by the gate only, what is not of it is
absent. -/
structure SealedInputs where
  demand : DemandArtifact
  rqmContentHash : Option String
  ladderEvidence : List LadderEvidence
  workflowUnitRef : Option String
  capabilityRecord : Option CapabilityRecord
  priorsVersion : Option Int
  policy : Option PolicyView
  budgetAvailable : Option Bool

/-! ### The gate -/

def defectIf (failed : Prop) [Decidable failed] (code : String) : List String :=
  if failed then [code] else []

@[simp] theorem defectIf_eq_nil {failed : Prop} [Decidable failed] {code : String} :
    defectIf failed code = [] ↔ ¬failed := by
  simp [defectIf]

def DemandArtifact.rung? (demand : DemandArtifact) : Option Rung :=
  ClosedVocabulary.read demand.requiredRung

def isFlag : Option Json → Bool
  | some (.bool _) => true
  | _ => false

def scopeDefects (scope : ApprovedScope) : List String :=
  if scope.description.truthy = false ∨ scope.granularity.truthy = false then ["scope_incomplete"]
  else match scope.narrowing with
    | none => []
    | some narrowing => defectIf (isFlag (narrowing.get? "deterministic") = false)
        "narrowing_not_flagged_deterministic"

def claimDefects (fieldName : String) (evidence : JsonDict) : List String :=
  match evidence.get? "claim", evidence.get? "justification" with
  | some claim, some justification =>
    if isFlag (some claim) then
      defectIf (justification.truthy = false) ("n1_justification_missing:" ++ fieldName)
    else ["n1_claim_not_bool:" ++ fieldName]
  | _, _ => ["n1_claim_missing:" ++ fieldName]

/-- The check of the ladder's entries, from the rungs that are in `by_rung` already. -/
def ladderDefects (seen : List String) : List LadderEvidence → List String
  | [] =>
    let missing := rungs.filter fun rung ↦ rung ∉ seen
    defectIf (missing ≠ []) ("ladder_rungs_missing:" ++ ",".intercalate missing)
  | entry :: ladder =>
    if entry.rung ∉ rungs then
      ("ladder_rung_unknown:" ++ entry.rung) :: ladderDefects seen ladder
    else if entry.rung ∈ seen then
      ("ladder_rung_duplicate:" ++ entry.rung) :: ladderDefects seen ladder
    else
      defectIf (entry.status ∉ ladderStatuses) ("ladder_status_unknown:" ++ entry.rung) ++
        defectIf (entry.justification = "") ("ladder_justification_missing:" ++ entry.rung) ++
        ladderDefects (entry.rung :: seen) ladder

def capabilityDefects (requiredCapabilityId : String) : Option CapabilityRecord → List String
  | none => ["capability_record_missing_or_malformed"]
  | some capability =>
    defectIf (capability.id ≠ requiredCapabilityId) "capability_id_mismatch" ++
      defectIf (capability.lifecycle ∉ (ClosedVocabulary.all : List Lifecycle))
        "capability_lifecycle_unknown"

/-- `_structural_defects`. -/
def structuralDefects (inputs : SealedInputs) : List String :=
  defectIf (inputs.demand.rung? = none) "required_rung_unknown" ++
    scopeDefects inputs.demand.scope ++
    claimDefects "underdetermined" inputs.demand.underdetermined ++
    claimDefects "generalization_required" inputs.demand.generalizationRequired ++
    ladderDefects [] inputs.ladderEvidence ++
    capabilityDefects inputs.demand.requiredCapabilityId inputs.capabilityRecord ++
    defectIf (inputs.rqmContentHash.getD "" = "") "rqm_content_hash_missing" ++
    defectIf (inputs.workflowUnitRef.getD "" = "") "workflow_unit_ref_missing" ++
    defectIf (inputs.priorsVersion = none) "priors_version_missing_or_malformed" ++
    defectIf (inputs.policy.isNone = true) "policy_missing_or_malformed" ++
    defectIf (inputs.budgetAvailable = none) "budget_available_missing_or_malformed"

variable (platform : Platform)

/-- `_decided_from`. -/
def decidedFrom (inputs : SealedInputs) : JsonDict where
  items := [("demand_content_hash", .str (platform.hash inputs.demand.toDict)),
    ("rqm_content_hash", optionalText inputs.rqmContentHash),
    ("ladder_evidence_hash",
      .str (platform.hash (.arr (inputs.ladderEvidence.map LadderEvidence.toDict)))),
    ("workflow_unit_ref", optionalText inputs.workflowUnitRef),
    ("capability_content_hash", optionalText
      (inputs.capabilityRecord.map fun capability ↦ platform.hash capability.toDict)),
    ("priors_version", (inputs.priorsVersion.map Json.int).getD .null),
    ("policy_version", (inputs.policy.map fun policy ↦ Json.int policy.policyVersion).getD .null),
    ("budget_available", (inputs.budgetAvailable.map Json.bool).getD .null)]
  nodup := by simp

def withheld (inputs : SealedInputs) (outcome : String) (justification : JsonDict) :
    DecisionRecord :=
  ⟨outcome, justification, decidedFrom platform inputs, none, none, none⟩

/-- `by_rung[rung].status`: of two entries for one rung the last one is kept. -/
def statusOf (ladder : List LadderEvidence) (rung : String) : Except String String :=
  match ladder.reverse.find? fun entry ↦ entry.rung = rung with
  | none => .error ("KeyError: " ++ rung)
  | some entry => .ok entry.status

/-- The rungs that are `"untried"`. -/
def untried (ladder : List LadderEvidence) : List String → Except String (List String)
  | [] => .ok []
  | rung :: rungs => do
    let status ← statusOf ladder rung
    let others ← untried ladder rungs
    return if status = "untried" then rung :: others else others

/-- `evidence["claim"]`. -/
def claim (evidence : JsonDict) : Except String Json :=
  match evidence.get? "claim" with
  | none => .error "KeyError: claim"
  | some claim => .ok claim

def ceilingIndex (permittedRungs : List Rung) : Int :=
  (permittedRungs.map fun rung ↦ (rung.index : Int)).foldl max (-1)

def governanceGround (inputs : SealedInputs) (policy : PolicyView)
    (capability : CapabilityRecord) : Except String (Option String) :=
  if policy.reasoningPermitted = false then .ok (some "reasoning_not_permitted")
  else if capability.category ∉ policy.permittedCategories then
    .ok (some "category_not_permitted")
  else match inputs.demand.rung? with
    | none => .error ("ValueError: " ++ inputs.demand.requiredRung)
    | some rung =>
      if ceilingIndex policy.permittedRungs < rung.index then .ok (some "rung_above_ceiling")
      else if inputs.budgetAvailable.getD false = false then .ok (some "budget_unavailable")
      else if capability.lifecycle.matchable = false then
        .ok (some "capability_lifecycle_ineligible")
      else .ok none

/-- `decide`, with the exceptions that its reads could raise. -/
def decide (inputs : SealedInputs) : Except String DecisionRecord := do
  let defects := structuralDefects inputs
  if defects ≠ [] then
    return withheld platform inputs "INSUFFICIENT_INFORMATION"
      ⟨[("failed_condition", .str "structural_validity"), ("defects", .arr (defects.map .str))],
        by simp⟩
  let untried ← untried inputs.ladderEvidence rungs
  if untried ≠ [] then
    return withheld platform inputs "DETERMINISTIC_CONTINUATION_REQUIRED"
      ⟨[("failed_condition", .str "ladder"), ("untried_rungs", .arr (untried.map .str))], by simp⟩
  let underdetermined ← claim inputs.demand.underdetermined
  let generalization ← claim inputs.demand.generalizationRequired
  if (underdetermined.truthy && generalization.truthy) = false then
    return withheld platform inputs "REASONING_REJECTED"
      ⟨[("failed_condition", .str "necessity_n1"), ("underdetermined_claim", underdetermined),
        ("generalization_required_claim", generalization)], by simp⟩
  let some policy := inputs.policy | throw "AttributeError: reasoning_permitted"
  let some capability := inputs.capabilityRecord | throw "AttributeError: category"
  match ← governanceGround inputs policy capability with
  | some ground =>
    return withheld platform inputs "GOVERNANCE_REFUSED"
      ⟨[("failed_condition", .str "governance"), ("ground", .str ground)], by simp⟩
  | none =>
    return ⟨"REASONING_APPROVED",
      ⟨[("passed", .arr (["structural_validity", "ladder", "necessity_n1", "necessity_n2",
        "governance"].map .str))], by simp⟩,
      decidedFrom platform inputs, some inputs.demand.requiredCapabilityId,
      some inputs.demand.requiredRung, some inputs.demand.scope⟩

/-! ### Its conditions -/

def Declared (evidence : JsonDict) : Prop :=
  isFlag (evidence.get? "claim") ∧
    ∃ justification, evidence.get? "justification" = some justification ∧ justification.truthy

@[mk_iff] structure Covered (ladder : List LadderEvidence) : Prop where
  sound : ∀ entry ∈ ladder, entry.status ∈ ladderStatuses ∧ entry.justification ≠ ""
  known : ∀ entry ∈ ladder, entry.rung ∈ rungs
  once : (ladder.map LadderEvidence.rung).Nodup
  every : ∀ rung ∈ rungs, rung ∈ ladder.map LadderEvidence.rung

variable (inputs : SealedInputs)

/-- Every input is present and agrees with the demand. -/
@[mk_iff] structure WellFormed : Prop where
  required : ∃ rung, inputs.demand.rung? = some rung
  description : inputs.demand.scope.description.truthy
  granularity : inputs.demand.scope.granularity.truthy
  narrowing : ∀ narrowing ∈ inputs.demand.scope.narrowing, isFlag (narrowing.get? "deterministic")
  underdetermined : Declared inputs.demand.underdetermined
  generalization : Declared inputs.demand.generalizationRequired
  ladder : Covered inputs.ladderEvidence
  capability : ∃ capability, inputs.capabilityRecord = some capability ∧
    capability.id = inputs.demand.requiredCapabilityId
  rqm : inputs.rqmContentHash.getD "" ≠ ""
  workflow : inputs.workflowUnitRef.getD "" ≠ ""
  priors : ∃ version, inputs.priorsVersion = some version
  policy : ∃ policy, inputs.policy = some policy
  budget : ∃ available, inputs.budgetAvailable = some available

/-- No deterministic means is left to try. -/
def Exhausted : Prop := ∀ entry ∈ inputs.ladderEvidence, entry.status ≠ "untried"

def Necessary : Prop :=
  inputs.demand.underdetermined.get? "claim" = some (.bool true) ∧
    inputs.demand.generalizationRequired.get? "claim" = some (.bool true)

def Permitted : Prop :=
  ∃ policy ∈ inputs.policy, ∃ capability ∈ inputs.capabilityRecord,
    policy.reasoningPermitted ∧ capability.category ∈ policy.permittedCategories ∧
      (∃ rung ∈ inputs.demand.rung?, ∃ permitted ∈ policy.permittedRungs,
        rung.index ≤ permitted.index) ∧
      inputs.budgetAvailable = some true ∧ capability.lifecycle.matchable

open Classical in
noncomputable def firstFailing : String :=
  if ¬WellFormed inputs then "INSUFFICIENT_INFORMATION"
  else if ¬Exhausted inputs then "DETERMINISTIC_CONTINUATION_REQUIRED"
  else if ¬Necessary inputs then "REASONING_REJECTED"
  else if ¬Permitted inputs then "GOVERNANCE_REFUSED"
  else "REASONING_APPROVED"

variable {ladder : List LadderEvidence}

theorem scopeDefects_eq_nil {scope : ApprovedScope} : scopeDefects scope = [] ↔
    scope.description.truthy ∧ scope.granularity.truthy ∧
      ∀ narrowing ∈ scope.narrowing, isFlag (narrowing.get? "deterministic") := by
  unfold scopeDefects
  split
  case isTrue hmissing =>
    refine iff_of_false (by simp) ?_
    rintro ⟨hdescription, hgranularity, -⟩
    simp [hdescription, hgranularity] at hmissing
  case isFalse hpresent =>
    simp only [not_or, Bool.not_eq_false] at hpresent
    cases scope.narrowing <;> simp [hpresent]

theorem claimDefects_eq_nil {fieldName : String} {evidence : JsonDict} :
    claimDefects fieldName evidence = [] ↔ Declared evidence := by
  unfold claimDefects Declared
  split
  case h_1 claim justification hclaim hjustification =>
    rw [hclaim, hjustification]
    cases isFlag (some claim) <;> simp
  case h_2 habsent =>
    refine iff_of_false (by simp) ?_
    rintro ⟨hflag, justification, hjustification, -⟩
    cases hclaim : evidence.get? "claim" with
    | none => simp [hclaim, isFlag] at hflag
    | some claim => exact habsent _ _ hclaim hjustification

theorem ladderDefects_eq_nil {seen : List String} : ladderDefects seen ladder = [] ↔
      (∀ entry ∈ ladder, entry.status ∈ ladderStatuses ∧ entry.justification ≠ "") ∧
      (∀ entry ∈ ladder, entry.rung ∈ rungs ∧ entry.rung ∉ seen) ∧
      (ladder.map LadderEvidence.rung).Nodup ∧
      ∀ rung ∈ rungs, rung ∈ seen ∨ rung ∈ ladder.map LadderEvidence.rung := by
  induction ladder generalizing seen with
  | nil => simp [ladderDefects]
  | cons entry ladder ih =>
    unfold ladderDefects
    split
    case isTrue hunknown => simp [hunknown]
    case isFalse hknown =>
      split
      case isTrue hseen => simp [hseen]
      case isFalse hfresh =>
        simp only [append_eq_nil_iff, defectIf_eq_nil, ih, not_not, map_cons, nodup_cons, mem_cons,
          not_or] at hknown ⊢
        grind

theorem ladderDefects_nil_iff : ladderDefects [] ladder = [] ↔ Covered ladder := by
  simp only [ladderDefects_eq_nil, covered_iff, not_mem_nil, not_false_eq_true, and_true, false_or]

theorem capabilityDefects_eq_nil {required : String} {record : Option CapabilityRecord} :
    capabilityDefects required record = [] ↔
      ∃ capability, record = some capability ∧ capability.id = required := by
  cases record with
  | none => simp [capabilityDefects]
  | some capability =>
    simp [capabilityDefects, ClosedVocabulary.complete capability.lifecycle]

theorem structuralDefects_eq_nil : structuralDefects inputs = [] ↔ WellFormed inputs := by
  simp only [structuralDefects, append_eq_nil_iff, defectIf_eq_nil, scopeDefects_eq_nil,
    claimDefects_eq_nil, ladderDefects_nil_iff, capabilityDefects_eq_nil, Option.isNone_iff_eq_none,
    ← ne_eq, Option.ne_none_iff_exists', wellFormed_iff, and_assoc]

variable {inputs}

theorem statusOf_eq (hcovered : Covered ladder) {entry : LadderEvidence} (hentry : entry ∈ ladder) :
    statusOf ladder entry.rung = .ok entry.status := by
  unfold statusOf
  cases hfound : ladder.reverse.find? fun other ↦ other.rung = entry.rung with
  | none => simpa using find?_eq_none.mp hfound entry (mem_reverse.mpr hentry)
  | some other =>
    have hother := mem_reverse.mp (mem_of_find?_eq_some hfound)
    have hrung : other.rung = entry.rung := by simpa using find?_some hfound
    rw [inj_on_of_nodup_map hcovered.once hother hentry hrung]

theorem untried_eq {names : List String}
    (hread : ∀ rung ∈ names, ∃ status, statusOf ladder rung = .ok status) :
    ∃ found, untried ladder names = .ok found ∧
      (found = [] ↔ ∀ rung ∈ names, statusOf ladder rung ≠ .ok "untried") := by
  induction names with
  | nil => exact ⟨[], rfl, by simp⟩
  | cons rung names ih =>
    obtain ⟨status, hstatus⟩ := hread rung mem_cons_self
    obtain ⟨found, hfound, hiff⟩ := ih fun other hother ↦ hread other (mem_cons_of_mem rung hother)
    refine ⟨if status = "untried" then rung :: found else found, ?_, ?_⟩
    · rw [untried, hstatus, hfound]
      rfl
    · rw [forall_mem_cons, ← hiff, hstatus]
      split <;> simp_all

theorem exists_untried (hcovered : Covered inputs.ladderEvidence) :
    ∃ found, untried inputs.ladderEvidence rungs = .ok found ∧ (found = [] ↔ Exhausted inputs) := by
  have hentry : ∀ rung ∈ rungs, ∃ entry ∈ inputs.ladderEvidence, entry.rung = rung :=
    fun rung hrung ↦ mem_map.mp (hcovered.every rung hrung)
  obtain ⟨found, hfound, hiff⟩ := @untried_eq inputs.ladderEvidence rungs fun rung hrung ↦ by
    obtain ⟨entry, hentry, rfl⟩ := hentry rung hrung
    exact ⟨entry.status, statusOf_eq hcovered hentry⟩
  refine ⟨found, hfound, hiff.trans ⟨fun hnone entry hin huntried ↦ ?_, fun hall rung hrung ↦ ?_⟩⟩
  · refine hnone entry.rung (hcovered.known entry hin) ?_
    rw [statusOf_eq hcovered hin, huntried]
  · obtain ⟨entry, hin, rfl⟩ := hentry rung hrung
    rw [statusOf_eq hcovered hin]
    exact fun heq ↦ hall entry hin (Except.ok.inj heq)

theorem foldl_max_lt {numbers : List Int} {start bound : Int} :
    numbers.foldl max start < bound ↔ start < bound ∧ ∀ number ∈ numbers, number < bound := by
  induction numbers generalizing start with
  | nil => simp
  | cons number numbers ih => rw [foldl_cons, ih, max_lt_iff, forall_mem_cons, and_assoc]

theorem ceilingIndex_lt {permitted : List Rung} {rung : Rung} :
    ceilingIndex permitted < rung.index ↔ ∀ other ∈ permitted, other.index < rung.index := by
  rw [ceilingIndex, foldl_max_lt, forall_mem_map]
  have hstart : (-1 : Int) < rung.index := by omega
  simp [hstart]

theorem exists_ground {policy : PolicyView} {capability : CapabilityRecord}
    (hpolicy : inputs.policy = some policy)
    (hcapability : inputs.capabilityRecord = some capability)
    (hrung : ∃ rung, inputs.demand.rung? = some rung) :
    ∃ ground, governanceGround inputs policy capability = .ok ground ∧
      (ground = none ↔ Permitted inputs) := by
  obtain ⟨rung, hrung⟩ := hrung
  have hpermitted : Permitted inputs ↔ policy.reasoningPermitted ∧
      capability.category ∈ policy.permittedCategories ∧
      ¬ceilingIndex policy.permittedRungs < rung.index ∧
      inputs.budgetAvailable = some true ∧ capability.lifecycle.matchable = true := by
    simp [Permitted, hpolicy, hcapability, hrung, ceilingIndex_lt]
  unfold governanceGround
  rw [hrung]
  dsimp only
  split_ifs <;> refine ⟨_, rfl, ?_⟩ <;> cases hbudget : inputs.budgetAvailable <;> simp_all

theorem claim_of_declared {evidence : JsonDict} (hdeclared : Declared evidence) :
    ∃ flag, claim evidence = .ok (.bool flag) ∧ evidence.get? "claim" = some (.bool flag) := by
  have hflag := hdeclared.1
  unfold isFlag at hflag
  split at hflag
  case h_1 flag hclaim => exact ⟨flag, by rw [claim, hclaim], hclaim⟩
  case h_2 => cases hflag

theorem exists_decide :
    ∃ record, decide platform inputs = .ok record ∧ record.outcome = firstFailing inputs := by
  unfold decide firstFailing
  by_cases hwell : WellFormed inputs
  case neg =>
    have hdefects := (structuralDefects_eq_nil inputs).not.mpr hwell
    refine ⟨_, if_pos hdefects, ?_⟩
    rw [if_pos hwell]
    rfl
  case pos =>
    have hdefects := (structuralDefects_eq_nil inputs).mpr hwell
    obtain ⟨found, hfound, hexhausted⟩ := exists_untried hwell.ladder
    obtain ⟨first, hfirst, hunder⟩ := claim_of_declared hwell.underdetermined
    obtain ⟨second, hsecond, hgeneral⟩ := claim_of_declared hwell.generalization
    obtain ⟨capability, hcapability, -⟩ := hwell.capability
    obtain ⟨policy, hpolicy⟩ := hwell.policy
    obtain ⟨ground, hground, hpermitted⟩ := exists_ground hpolicy hcapability hwell.required
    have hnecessary : Necessary inputs ↔ (first && second) = true := by
      simp [Necessary, hunder, hgeneral]
    simp only [hdefects, hfound, hfirst, hsecond, hpolicy, hcapability, hground, ← hexhausted,
      hnecessary, ← hpermitted, hwell, not_true_eq_false, if_false, ne_eq]
    -- a defect of the ladder first, then a claim that is not made, then the policy's ground
    cases found with
    | cons rung others => exact ⟨_, rfl, by simp [withheld]⟩
    | nil =>
      cases first <;> cases second <;> cases ground <;> exact ⟨_, rfl, by simp [withheld]⟩

theorem covered_perm {other : List LadderEvidence} (hperm : ladder.Perm other) :
    Covered ladder ↔ Covered other := by
  simp only [covered_iff, hperm.mem_iff, (hperm.map _).mem_iff, (hperm.map _).nodup_iff]

theorem firstFailing_perm (hperm : ladder.Perm inputs.ladderEvidence) :
    firstFailing { inputs with ladderEvidence := ladder } = firstFailing inputs := by
  have hwell : WellFormed { inputs with ladderEvidence := ladder } ↔ WellFormed inputs := by
    simp only [wellFormed_iff, covered_perm hperm]
  have hexhausted : Exhausted { inputs with ladderEvidence := ladder } ↔ Exhausted inputs :=
    forall_congr' fun entry ↦ imp_congr_left hperm.mem_iff
  unfold firstFailing
  rw [hwell, hexhausted]
  rfl

/-- The gate always answers. It approves exactly when every condition holds, its outcome is
otherwise the one of the first condition that fails, and the order of the ladder's evidence does
not change it. -/
theorem decide_exact (inputs : SealedInputs) :
    ∃ record, decide platform inputs = .ok record ∧ record.outcome = firstFailing inputs ∧
      (record.outcome = "REASONING_APPROVED" ↔
        WellFormed inputs ∧ Exhausted inputs ∧ Necessary inputs ∧ Permitted inputs) ∧
      ∀ ladder, ladder.Perm inputs.ladderEvidence → ∃ other,
        decide platform { inputs with ladderEvidence := ladder } = .ok other ∧
          other.outcome = record.outcome := by
  obtain ⟨record, hrecord, houtcome⟩ := exists_decide platform
  refine ⟨record, hrecord, houtcome, ?_, fun ladder hperm ↦ ?_⟩
  · rw [houtcome]
    unfold firstFailing
    split_ifs <;> simp_all
  · obtain ⟨other, hother, hsame⟩ := exists_decide platform
    exact ⟨other, hother, (hsame.trans (firstFailing_perm hperm)).trans houtcome.symm⟩

end AbsoluteZero.Reasoning.DecisionGate

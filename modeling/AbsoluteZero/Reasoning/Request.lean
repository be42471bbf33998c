import AbsoluteZero.Reasoning.Context
import AbsoluteZero.Reasoning.Selection

/-!
# Requests, resolutions and their preparation

`prepare` turns an approved decision and its sealed inputs into the reasoning request, which carries
no provider, and the provider resolution, which names the selected provider and the request by its
content hash. The constraint categories may be absent from a request that `prepare` did not build.
-/

namespace AbsoluteZero.Reasoning

open Foundations

/-! ### Requests -/

/-- The `output_form` constraint. -/
structure OutputForm where
  schemaId : String
  version : Int
  requiredFields : List String

def OutputForm.toDict (form : OutputForm) : Json :=
  .obj [("schema_id", .str form.schemaId), ("version", .int form.version),
    ("required_fields", .arr (form.requiredFields.map .str))]

/-- The six constraint categories of a request. -/
structure Constraints where
  allowedScope : Option ApprovedScope
  outputForm : Option OutputForm
  forbiddenBehaviors : Option (List Json)
  determinismExpectations : Option Level
  policyConstraints : Option Json
  verificationExpectations : Option Json

namespace Constraints

/-- Each of `_CONSTRAINT_CATEGORIES` with its value, if it is there. -/
def categories (constraints : Constraints) : List (String × Option Json) :=
  [("allowed_scope", constraints.allowedScope.map ApprovedScope.toDict),
    ("output_form", constraints.outputForm.map OutputForm.toDict),
    ("forbidden_behaviors", constraints.forbiddenBehaviors.map .arr),
    ("determinism_expectations",
      constraints.determinismExpectations.map fun level ↦ .str (ClosedVocabulary.text level)),
    ("policy_constraints", constraints.policyConstraints),
    ("verification_expectations", constraints.verificationExpectations)]

def toDict (constraints : Constraints) : Json :=
  .obj (constraints.categories.filterMap fun category ↦
    category.2.map fun value ↦ (category.1, value))

def missing (constraints : Constraints) : List String :=
  (constraints.categories.filter fun category ↦ category.2.isNone).map Prod.fst

end Constraints

structure ReasoningRequest where
  requestId : String
  capabilityId : String
  requiredRung : String
  context : List ContextItem
  inclusion : List InclusionRecord
  reduction : List ReductionRecord
  constraints : Constraints
  budget : BudgetEnvelope
  schemaId : String
  schemaVersion : Int
  preparationCoordinates : JsonDict

namespace ReasoningRequest

def toDict (request : ReasoningRequest) : Json :=
  .obj [("kind", .str "reasoning_request"), ("request_id", .str request.requestId),
    ("capability_id", .str request.capabilityId), ("required_rung", .str request.requiredRung),
    ("context", .arr (request.context.map ContextItem.toDict)),
    ("context_audit", .obj [
      ("inclusion", .arr (request.inclusion.map InclusionRecord.toDict)),
      ("reduction", .arr (request.reduction.map ReductionRecord.toDict))]),
    ("constraints", request.constraints.toDict), ("budget", request.budget.toDict),
    ("schema_ref", .obj [("schema_id", .str request.schemaId),
      ("version", .int request.schemaVersion)]),
    ("preparation_coordinates", request.preparationCoordinates.toJson)]

def contentHash (platform : Platform) (request : ReasoningRequest) : String :=
  platform.hash request.toDict

/-- `sum(len(item["content"].encode("utf-8")) for item in context)`. -/
def contextBytes (context : List ContextItem) : Nat :=
  (context.map fun item ↦ item.content.utf8ByteSize).sum

end ReasoningRequest

structure ProviderResolution where
  providerId : String
  descriptorSpaceVersion : Int
  policyVersion : Int
  eligibilityExclusions : List (String × List String)
  selectionJustification : SelectionJustification
  preparationCoordinates : JsonDict
  resolvedForRequestHash : String

namespace ProviderResolution

def toDict (resolution : ProviderResolution) : Json :=
  let justification := resolution.selectionJustification
  .obj [("kind", .str "provider_resolution"), ("provider_id", .str resolution.providerId),
    ("descriptor_space_version", .int resolution.descriptorSpaceVersion),
    ("policy_version", .int resolution.policyVersion),
    ("eligibility_exclusions", .arr (resolution.eligibilityExclusions.map fun exclusion ↦
      .obj [("provider_id", .str exclusion.1), ("reasons", .arr (exclusion.2.map .str))])),
    ("selection_justification", .obj [
      ("cost_class", .str (ClosedVocabulary.text justification.costClass)),
      ("declared_preference_rank", .int justification.declaredPreferenceRank),
      ("alphabetical_tiebreak_id", .str justification.alphabeticalTiebreakId),
      ("eligible_count", .int justification.eligibleCount),
      ("candidate_count", .int justification.candidateCount)]),
    ("preparation_coordinates", resolution.preparationCoordinates.toJson),
    ("resolved_for_request_hash", .str resolution.resolvedForRequestHash)]

def contentHash (platform : Platform) (resolution : ProviderResolution) : String :=
  platform.hash resolution.toDict

end ProviderResolution

/-! ### Preparation -/

/-- The refusals of `prepare`, its own and those of the modules it calls. -/
inductive PrepareError
  | unapprovedDecision (message : String)
  | unconstrainedRequest (message : String)
  | context (error : ContextError)
  | budget (error : BudgetError)
  | matching (error : MatchingError)
  | schema (error : SchemaError)
  | raised (error : PyError)

/-- The arguments of `prepare` less the descriptor rows. -/
structure PrepareInputs where
  decisionRecord : DecisionRecord
  rqm : RequestMemory
  capabilityRecord : CapabilityRecord
  descriptorSpaceVersion : Int
  policyVersion : Int
  priorsVersion : Int
  schemaRegistry : SchemaRegistry
  schemaId : String
  schemaVersion : Int
  budgetCeiling : Int
  budgetSourcePolicyVersion : Int
  verificationExpectations : Json
  forbiddenBehaviors : List Json
  userPolicy : Json
  terms : SelectionTerms
  relevanceThreshold : Rat
  rqmStale : Bool
  expectedRqmHash : Option String
  parentBudget : Option BudgetEnvelope
  alreadyAllocatedFromParent : Int

variable (platform : Platform)

/-- Turn a refusal of another module into one of `prepare`. -/
def lift {Refusal Result : Type} (wrap : Refusal → PrepareError)
    (computation : Except Refusal Result) : Except PrepareError Result :=
  computation.mapError wrap

theorem nodup_coordinateNames : ["decision_record_content_hash", "rqm_content_hash",
    "descriptor_space_version", "policy_version", "priors_version", "schema_version"].Nodup := by
  decide

variable (inputs : PrepareInputs)

def preparationCoordinates (rqmHash : String) : JsonDict where
  items := [("decision_record_content_hash",
      .str (inputs.decisionRecord.contentHash platform)),
    ("rqm_content_hash", .str rqmHash),
    ("descriptor_space_version", .int inputs.descriptorSpaceVersion),
    ("policy_version", .int inputs.policyVersion),
    ("priors_version", .int inputs.priorsVersion),
    ("schema_version", .int inputs.schemaVersion)]
  nodup := nodup_coordinateNames

/-- The constraints of a prepared request: all six categories. -/
def preparedConstraints (scope : ApprovedScope) (schema : SchemaRecord) :
    Constraints where
  allowedScope := some scope
  outputForm := some ⟨schema.schemaId, schema.version, schema.requiredFields⟩
  forbiddenBehaviors := some inputs.forbiddenBehaviors
  determinismExpectations := some inputs.capabilityRecord.characteristics.determinismTolerance
  policyConstraints := some (.obj [
    ("compliance_tags_required", .arr (inputs.terms.requiredComplianceTags.map .str)),
    ("privacy_domain_required",
      .str (ClosedVocabulary.text inputs.terms.privacyDomainRequired)),
    ("user_policy", inputs.userPolicy)])
  verificationExpectations := some inputs.verificationExpectations

def requestIdOf (capabilityId : String) : String :=
  platform.digest (inputs.decisionRecord.contentHash platform ++ ":" ++ capabilityId ++ ":" ++
    inputs.schemaId ++ ":" ++ toString inputs.schemaVersion)

/-- The capability and the rung that the decision approved: no row claims `None`, and joining it
into the text of the refusal raises. -/
def approvedTarget (record : DecisionRecord) : Except PrepareError (String × String) :=
  match record.approvedCapabilityId, record.approvedRequiredRung with
  | some capabilityId, some rung => .ok (capabilityId, rung)
  | _, _ => .error (.raised .typeError)

/-- The request that the sealed inputs determine, with the reduced context and the hash of the
memory. -/
def preparedRequest (rqmHash : String) (reduced : Reduced)
    (envelope : BudgetEnvelope) (target : String × String) (schema : SchemaRecord)
    (scope : ApprovedScope) : ReasoningRequest where
  requestId := requestIdOf platform inputs target.1
  capabilityId := target.1
  requiredRung := target.2
  context := reduced.included
  inclusion := reduced.inclusion
  reduction := reduced.reduction
  constraints := preparedConstraints inputs scope schema
  budget := envelope
  schemaId := inputs.schemaId
  schemaVersion := inputs.schemaVersion
  preparationCoordinates := preparationCoordinates platform inputs rqmHash

def resolutionOf (request : ReasoningRequest) (selection : Selection) :
    ProviderResolution where
  providerId := selection.winner.providerId
  descriptorSpaceVersion := inputs.descriptorSpaceVersion
  policyVersion := inputs.policyVersion
  eligibilityExclusions := selection.exclusions
  selectionJustification := selection.justification
  preparationCoordinates := request.preparationCoordinates
  resolvedForRequestHash := request.contentHash platform

def selectFor (terms : SelectionTerms) (rows : List DescriptorRow) (target : String × String)
    (contextBytes : Nat) : Except MatchingError Selection := do
  let candidates ← buildCandidateSet rows target.1 target.2
  selectProvider terms (deriveSizeClass contextBytes) candidates

def prepare (rows : List DescriptorRow) :
    Except PrepareError (ReasoningRequest × ProviderResolution) :=
  let record := inputs.decisionRecord
  if record.outcome ≠ "REASONING_APPROVED" then
    .error (.unapprovedDecision
      ("request.prepare_from_non_approved_outcome:" ++ record.outcome))
  else if inputs.verificationExpectations = .null then
    .error (.unconstrainedRequest "request.missing_verification_expectations")
  else do
    let rqmHash ← lift .context
      (checkFreshness platform inputs.rqm inputs.rqmStale inputs.expectedRqmHash)
    let reduced ← lift .context
      (selectAndReduce platform inputs.rqm inputs.capabilityRecord inputs.relevanceThreshold)
    let totalBytes := ReasoningRequest.contextBytes reduced.included
    let envelope ← lift .budget (allocateBudget platform inputs.budgetCeiling
      inputs.budgetSourcePolicyVersion inputs.parentBudget inputs.alreadyAllocatedFromParent)
    lift .budget (requireFits envelope totalBytes)
    let target ← approvedTarget record
    let selection ← lift .matching (selectFor inputs.terms rows target totalBytes)
    let schema ← lift .schema
      (SchemaRegistry.require inputs.schemaRegistry inputs.schemaId inputs.schemaVersion)
    match record.approvedScope with
    | none => .error (.raised .typeError)
    | some scope =>
      let request := preparedRequest platform inputs rqmHash reduced envelope target schema scope
      .ok (request, resolutionOf platform inputs request selection)

end AbsoluteZero.Reasoning

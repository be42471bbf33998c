import AbsoluteZero.Foundations.Lifecycle
import AbsoluteZero.Foundations.OrderedDict

/-!
# Records of the descriptor space

A capability with its category and its eight characteristic bands, a relationship between two
capabilities, and the descriptor row with which a provider declares what it fulfils. Every
categorical field is a word of its closed vocabulary.
-/

namespace AbsoluteZero.Reasoning

open Foundations

/-! ### Vocabularies -/

/-- `CATEGORIES`. -/
inductive Category
  | interpretive
  | analytic
  | generative
  | deliberative
  | inferential
  deriving DecidableEq

instance : ClosedVocabulary Category where
  all := [.interpretive, .analytic, .generative, .deliberative, .inferential]
  text
    | .interpretive => "INTERPRETIVE"
    | .analytic => "ANALYTIC"
    | .generative => "GENERATIVE"
    | .deliberative => "DELIBERATIVE"
    | .inferential => "INFERENTIAL"

/-- `RELATIONSHIP_KINDS`. -/
inductive RelationshipKind
  | composition
  | specialization
  | dependency
  deriving DecidableEq

instance : ClosedVocabulary RelationshipKind where
  all := [.composition, .specialization, .dependency]
  text
    | .composition => "composition"
    | .specialization => "specialization"
    | .dependency => "dependency"

/-- `COMPLEXITY_RUNGS`. -/
inductive Rung
  | c0
  | c1
  | c2
  | c3
  | c4
  deriving DecidableEq

instance : ClosedVocabulary Rung where
  all := [.c0, .c1, .c2, .c3, .c4]
  text
    | .c0 => "C0"
    | .c1 => "C1"
    | .c2 => "C2"
    | .c3 => "C3"
    | .c4 => "C4"

/-- The bands `low`, `medium` and `high`. -/
inductive Level
  | low
  | medium
  | high
  deriving DecidableEq

instance : ClosedVocabulary Level where
  all := [.low, .medium, .high]
  text
    | .low => "low"
    | .medium => "medium"
    | .high => "high"

/-- The bands of `inference_depth`. -/
inductive InferenceDepth
  | shallow
  | moderate
  | deep
  deriving DecidableEq

instance : ClosedVocabulary InferenceDepth where
  all := [.shallow, .moderate, .deep]
  text
    | .shallow => "shallow"
    | .moderate => "moderate"
    | .deep => "deep"

/-- The bands of `expected_output_structure`. -/
inductive OutputStructure
  | strict
  | bounded
  | open
  deriving DecidableEq

instance : ClosedVocabulary OutputStructure where
  all := [.strict, .bounded, .open]
  text
    | .strict => "strict"
    | .bounded => "bounded"
    | .open => "open"

/-- `CONTEXT_CAPACITY_CLASSES`, which are also the size classes of a request. -/
inductive CapacityClass
  | small
  | medium
  | large
  | xlarge
  deriving DecidableEq

instance : ClosedVocabulary CapacityClass where
  all := [.small, .medium, .large, .xlarge]
  text
    | .small => "small"
    | .medium => "medium"
    | .large => "large"
    | .xlarge => "xlarge"

/-- `LATENCY_CLASSES`. -/
inductive LatencyClass
  | fast
  | standard
  | slow
  deriving DecidableEq

instance : ClosedVocabulary LatencyClass where
  all := [.fast, .standard, .slow]
  text
    | .fast => "fast"
    | .standard => "standard"
    | .slow => "slow"

/-- `DETERMINISM_CLASSES`. -/
inductive DeterminismClass
  | lowVariance
  | mediumVariance
  | highVariance
  deriving DecidableEq

instance : ClosedVocabulary DeterminismClass where
  all := [.lowVariance, .mediumVariance, .highVariance]
  text
    | .lowVariance => "low_variance"
    | .mediumVariance => "medium_variance"
    | .highVariance => "high_variance"

/-- `DEPLOYMENT_LOCALITY_CLASSES`. -/
inductive DeploymentLocality
  | local
  | remote
  deriving DecidableEq

instance : ClosedVocabulary DeploymentLocality where
  all := [.local, .remote]
  text
    | .local => "local"
    | .remote => "remote"

/-- `PRIVACY_DOMAINS`. -/
inductive PrivacyDomain
  | publicDomain
  | internal
  | restricted
  deriving DecidableEq

instance : ClosedVocabulary PrivacyDomain where
  all := [.publicDomain, .internal, .restricted]
  text
    | .publicDomain => "public"
    | .internal => "internal"
    | .restricted => "restricted"

/-- `REQUEST_FORMS`. -/
inductive RequestForm
  | promptText
  deriving DecidableEq

instance : ClosedVocabulary RequestForm where
  all := [.promptText]
  text
    | .promptText => "prompt_text"
  complete := by
    rintro ⟨⟩
    decide
  injective := by
    rintro ⟨⟩ ⟨⟩ -
    rfl

/-- The eight characteristics of a capability. -/
structure Characteristics where
  inferenceDepth : InferenceDepth
  contextSensitivity : Level
  determinismTolerance : Level
  knowledgeDependency : Level
  creativityRequirement : Level
  reasoningComplexity : Rung
  verificationDifficulty : Level
  expectedOutputStructure : OutputStructure

structure CapabilityRecord where
  id : String
  category : Category
  characteristics : Characteristics
  facets : List String
  lifecycle : Lifecycle

structure RelationshipRecord where
  kind : RelationshipKind
  src : String
  dst : String
  deriving DecidableEq

/-- The reliability that a row declares. -/
structure Reliability where
  baseline : Level
  priorsVersion : Option Int

/-- The rungs that a row claims for one capability: some, each once, in the order of the
vocabulary. -/
structure ClaimedRungs where
  rungs : List Rung
  nonempty : rungs ≠ []
  sorted : rungs.Sublist [.c0, .c1, .c2, .c3, .c4]

/-- A provider's declared fulfilment claim: it claims something. -/
structure DescriptorRow where
  providerId : String
  capabilitiesClaimed : OrderedDict String ClaimedRungs
  contextCapacityClass : CapacityClass
  costClass : Level
  latencyClass : LatencyClass
  determinismClass : DeterminismClass
  deploymentLocality : DeploymentLocality
  privacyDomain : PrivacyDomain
  complianceTags : List String
  reliability : Reliability
  requestForm : RequestForm
  claims_nonempty : capabilitiesClaimed.items ≠ []

end AbsoluteZero.Reasoning

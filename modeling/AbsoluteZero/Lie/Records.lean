import AbsoluteZero.Foundations.JsonText

/-!
# Records of the learning engine

An `Episode` is one attested unit of work in four parts, a `Decision` the record of a choice, an
`Annotation` a ruling on records that are named by their identities. Each carries what its builder
has checked. An `Envelope` is the provenance that records and derived knowledge have in common.
-/

namespace AbsoluteZero.Lie

open Foundations

/-- The exceptions raised by the learning engine, with their texts. -/
inductive Refusal
  | envelopeIncomplete (reason : String)
  | malformedDerived (reason : String)
  | missingEvidence (reason : String)
  | unknownVerdict (identity : String) (verdict : Option Json)
  | unwalkableChain (reason : String)
  | noLayerPublished
  | unknownStorageOutcome
  | overlayAppendRejected (position : Nat)
  | vocabularyNotAdvancing (current proposed : Int)
  deriving DecidableEq

/-! ### Provenance envelopes -/

/-- A dict with text keys. -/
abbrev Mapping := OrderedDict String Json

def Mapping.toJson (mapping : Mapping) : Json := .obj mapping.items

/-- What admitted a record of experience. -/
structure Attestation where
  attestationRef : String
  traceClosed : Bool
  vocabularyVersion : Int
  referenced : attestationRef ≠ ""
  versioned : 1 ≤ vocabularyVersion

/-- Where and when a record comes from. -/
structure Origin where
  project : String
  environment : String
  contributor : Option String
  occurredAt : Json
  identifiable : project ≠ ""
  located : environment ≠ ""
  dated : occurredAt ≠ .null

/-- `RELATION_TYPES`. -/
inductive RelationType
  | enacts
  | recovers
  | follows
  | evidencedBy
  | insteadOf
  | supersedes
  | about
  deriving DecidableEq

def RelationType.text : RelationType → String
  | enacts => "enacts"
  | recovers => "recovers"
  | follows => "follows"
  | evidencedBy => "evidenced-by"
  | insteadOf => "instead-of"
  | supersedes => "supersedes"
  | about => "about"

/-- A link to a record or an artifact, by identity only. -/
structure Relation where
  relationType : RelationType
  targetId : String

/-- A complete envelope: it has an identity and facets, and no facet is empty. -/
structure Envelope (Provenance : Type) where
  identity : String
  attestation : Provenance
  origin : Origin
  facets : List String
  relations : List Relation
  named : identity ≠ ""
  faceted : facets ≠ []
  termed : "" ∉ facets

def buildOrigin (project environment : String) (contributor : Option String) (occurredAt : Json) :
    Except Refusal Origin :=
  if hproject : project = "" then .error (.envelopeIncomplete "envelope.bad_project:''")
  else if henvironment : environment = "" then
    .error (.envelopeIncomplete "envelope.bad_environment:''")
  else if hoccurred : occurredAt = .null then
    .error (.envelopeIncomplete "envelope.missing_occurred_at")
  else .ok ⟨project, environment, contributor, occurredAt, hproject, henvironment, hoccurred⟩

/-- `build_relation` for a known type. -/
def buildRelation (relationType : RelationType) (targetId : String) : Except Refusal Relation :=
  if targetId = "" then .error (.envelopeIncomplete "envelope.bad_relation_target_id:''")
  else .ok ⟨relationType, targetId⟩

/-- `build_envelope` from a built attestation, a built origin and built relations. -/
def buildEnvelope {Provenance : Type} (identity : String) (attestation : Provenance)
    (origin : Origin) (facets : List String) (relations : List Relation) :
    Except Refusal (Envelope Provenance) :=
  if hnamed : identity = "" then .error (.envelopeIncomplete "envelope.bad_identity:''")
  else if hfaceted : facets = [] then
    .error (.envelopeIncomplete "envelope.empty_or_bad_facets:()")
  else if htermed : "" ∈ facets then .error (.envelopeIncomplete "envelope.bad_facet:''")
  else .ok ⟨identity, attestation, origin, facets, relations, hnamed, hfaceted, htermed⟩

/-- An envelope is built from complete parts. -/
theorem buildEnvelope_eq_ok {Provenance : Type} {identity : String} {facets : List String}
    (hnamed : identity ≠ "") (hfaceted : facets ≠ []) (htermed : "" ∉ facets)
    (attestation : Provenance) (origin : Origin) (relations : List Relation) :
    buildEnvelope identity attestation origin facets relations =
      .ok ⟨identity, attestation, origin, facets, relations, hnamed, hfaceted, htermed⟩ := by
  rw [buildEnvelope, dif_neg hnamed, dif_neg hfaceted, dif_neg htermed]

/-- `to_dict` of an envelope, over the rendering of its attestation. -/
def Envelope.toJson {Provenance : Type} (attestationJson : Provenance → Json)
    (envelope : Envelope Provenance) : Json :=
  .obj [("identity", .str envelope.identity),
    ("attestation", attestationJson envelope.attestation),
    ("origin", .obj [("project", .str envelope.origin.project),
      ("environment", .str envelope.origin.environment),
      ("contributor", envelope.origin.contributor.elim .null .str),
      ("occurred_at", envelope.origin.occurredAt)]),
    ("facets", .arr (envelope.facets.map .str)),
    ("relations", .arr (envelope.relations.map fun relation ↦
      .obj [("relation_type", .str relation.relationType.text),
        ("target_id", .str relation.targetId)]))]

/-- `_attestation_to_dict` of a record of experience. -/
def Attestation.toJson (attestation : Attestation) : Json :=
  .obj [("attestation_ref", .str attestation.attestationRef),
    ("trace_closed", .bool attestation.traceClosed),
    ("vocabulary_version", .int attestation.vocabularyVersion)]

/-! ### Experience -/

/-- One attested unit of work; none of its four parts is empty. -/
structure Episode where
  envelope : Envelope Attestation
  situation : Mapping
  approach : Mapping
  outcome : Mapping
  cost : Mapping
  situated : situation.items ≠ []
  approached : approach.items ≠ []
  concluded : outcome.items ≠ []
  costed : cost.items ≠ []

structure Decision where
  envelope : Envelope Attestation
  question : String
  options : List String
  chosen : String
  rationale : String
  constraints : Mapping
  consequencesExpected : Mapping
  questioned : question ≠ ""
  optional : "" ∉ options
  among : chosen ∈ options
  reasoned : rationale ≠ ""

/-- The two kinds of record that experience is kept in. -/
inductive Record
  | episode (episode : Episode)
  | decision (decision : Decision)

namespace Record

def envelope : Record → Envelope Attestation
  | episode record => record.envelope
  | decision record => record.envelope

def identity (record : Record) : String := record.envelope.identity

def attestationRef (record : Record) : String := record.envelope.attestation.attestationRef

/-- `to_dict` of an episode or a decision. -/
def toJson : Record → Json
  | episode record => .obj [("kind", .str "episode"),
      ("envelope", record.envelope.toJson Attestation.toJson),
      ("situation", record.situation.toJson), ("approach", record.approach.toJson),
      ("outcome", record.outcome.toJson), ("cost", record.cost.toJson)]
  | decision record => .obj [("kind", .str "decision"),
      ("envelope", record.envelope.toJson Attestation.toJson), ("question", .str record.question),
      ("options", .arr (record.options.map .str)), ("chosen", .str record.chosen),
      ("rationale", .str record.rationale), ("constraints", record.constraints.toJson),
      ("consequences_expected", record.consequencesExpected.toJson)]

def canonicalBytes (record : Record) : String := JsonText.dumps record.toJson

end Record

/-- `ANNOTATION_KINDS`. -/
inductive AnnotationKind
  | deprecation
  | supersession
  | contradictionResolution
  deriving DecidableEq

def AnnotationKind.text : AnnotationKind → String
  | deprecation => "deprecation"
  | supersession => "supersession"
  | contradictionResolution => "contradiction_resolution"

/-- A ruling on records or artifacts, with its reason and the evidence for it. -/
structure Annotation where
  kind : AnnotationKind
  targetIds : List String
  reason : String
  citedEvidence : List String
  targeted : targetIds ≠ []
  reasoned : reason ≠ ""
  cited : citedEvidence ≠ []

/-- `to_dict` of a ruling. -/
def Annotation.toJson (note : Annotation) : Json :=
  .obj [("kind", .str note.kind.text), ("target_ids", .arr (note.targetIds.map .str)),
    ("reason", .str note.reason), ("cited_evidence", .arr (note.citedEvidence.map .str))]

/-- The bytes that `CurationOverlay.append` writes. -/
def Annotation.bytes (note : Annotation) : String := JsonText.dumps note.toJson

end AbsoluteZero.Lie

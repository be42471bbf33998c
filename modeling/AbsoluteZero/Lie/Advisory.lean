import AbsoluteZero.Lie.Distillery

/-!
# Consultation and publication

`consult` answers a situation from the published layer: the advice whose facets are all among those
of the situation, each with the chain of its citations. Each trigger of `LieRuntime` compiles the
layer anew and publishes it, and a compiler that raises leaves the published layer as it is.
-/

namespace AbsoluteZero.Lie

open Foundations

/-- A link of a citation chain. -/
structure Link where
  artifact : String
  evidence : String
  attestationRef : String

def Ledger.byIdentity (ledger : Ledger) (identity : String) : Option Record :=
  ledger.entries.find? fun entry ↦ entry.identity = identity

/-- One turn of the loop of `citation_chain`. -/
def walk (ledger : Ledger) (artifact : Artifact) (relation : Relation) : Except Refusal Link :=
  match ledger.byIdentity relation.targetId with
  | none => .error (.unwalkableChain
      ("distillery.unresolvable_citation:" ++ artifact.identity ++ "->" ++ relation.targetId))
  | some record => .ok ⟨artifact.identity, relation.targetId, record.attestationRef⟩

def citationChain (ledger : Ledger) (artifact : Artifact) : Except Refusal (List Link) := do
  let links ← (artifact.envelope.relations.filter fun relation ↦
    relation.relationType = .evidencedBy).mapM (walk ledger artifact)
  if links = [] then .error (.unwalkableChain ("distillery.no_citations:" ++ artifact.identity))
  else .ok links

/-- The kind and the text of an artifact that bears advice; dossiers and packs bear none. -/
def Content.advice? : Content → Option (String × String)
  | .lesson statement => some ("lesson", statement)
  | .pattern approach _ => some ("pattern", "recommended approach: " ++ approach.toJson.repr)
  | .antiPattern approach consequence _ =>
    some ("anti_pattern", "avoid: " ++ approach.toJson.repr ++ " -- " ++ consequence)
  | .recipe steps => some ("recipe", "steps: " ++ " -> ".intercalate steps)
  | .projectDossier _ _ _ _ _ => none
  | .domainKnowledgePack _ => none

/-- `getattr(artifact, "contested", False)`. -/
def Content.contested : Content → Bool
  | .pattern _ contested => contested
  | .antiPattern _ _ contested => contested
  | _ => false

structure Recommendation where
  kind : String
  advice : String
  scope : List String
  maturity : Maturity
  contested : Bool
  citationChain : List Link
  derivationState : DerivationState

/-- What a consultation answers. -/
inductive Answer
  | recommendations (found : List Recommendation)
  | noRelevantExperience (derivationState : DerivationState)

/-- `_recommend`, for an artifact with its advice. -/
def recommend (ledger : Ledger) (state : DerivationState)
    (matched : Artifact × String × String) : Except Refusal Recommendation :=
  (citationChain ledger matched.1).map fun chain ↦ {
    kind := matched.2.1
    advice := matched.2.2
    scope := matched.1.envelope.facets
    maturity := matched.1.maturity
    contested := matched.1.content.contested
    citationChain := chain
    derivationState := state }

/-- The artifacts that bear advice and match the situation, sorted by identity. -/
def Layer.matching (layer : Layer) (situationFacets : List String) :
    List (Artifact × String × String) :=
  (sortedBy Artifact.identity (layer.artifacts.filter fun artifact ↦
    ∀ facet ∈ artifact.envelope.facets, facet ∈ situationFacets)).filterMap fun artifact ↦
      artifact.content.advice?.map fun advice ↦ (artifact, advice)

def consult (published : Option Layer) (ledger : Ledger) (situationFacets : List String) :
    Except Refusal Answer :=
  match published with
  | none => .error .noLayerPublished
  | some layer =>
    match layer.matching situationFacets with
    | [] => .ok (.noRelevantExperience layer.derivationState)
    | found => (found.mapM (recommend ledger layer.derivationState)).map .recommendations

/-! ### The runtime -/

/-- The parts that the runtime holds, with the storage of its ledger and its overlay. -/
structure LieRuntime where
  storage : Storage
  ledger : Ledger
  overlay : Overlay
  ruleset : DerivationRuleset
  layer : Option Layer

namespace LieRuntime

def new (storage : Storage) (ruleset : DerivationRuleset) : LieRuntime where
  storage := storage
  ledger := .empty
  overlay := .empty
  ruleset := ruleset
  layer := none

variable (digest : String → String) (runtime : LieRuntime)

/-- `_republish`: the new layer is published when it is complete. -/
def republish : LieRuntime :=
  match regenerate digest runtime.ledger runtime.overlay runtime.ruleset with
  | .ok layer => { runtime with layer := some layer }
  | .error _ => runtime

def onLedgerAppended : LieRuntime :=
  runtime.republish digest

def onCurationRuling : LieRuntime :=
  runtime.republish digest

/-- `on_ruleset_changed`: any built ruleset takes effect. -/
def onRulesetChanged (ruleset : DerivationRuleset) : LieRuntime :=
  ({ runtime with ruleset := ruleset } : LieRuntime).republish digest

/-- `regenerate`. -/
def onRegenerate : LieRuntime :=
  runtime.republish digest

/-- `ledger.append` with a receipt for the record. -/
def append (runtime : LieRuntime) (record : Record) : LieRuntime :=
  match runtime.ledger.append runtime.storage record with
  | (storage, .appended ledger) => { runtime with storage := storage, ledger := ledger }
  | (storage, _) => { runtime with storage := storage }

/-- `overlay.append`. -/
def rule (runtime : LieRuntime) (note : Annotation) : LieRuntime :=
  match runtime.overlay.append runtime.storage note with
  | (storage, .ok overlay) => { runtime with storage := storage, overlay := overlay }
  | (storage, .error _) => { runtime with storage := storage }

end LieRuntime

end AbsoluteZero.Lie

import AbsoluteZero.Foundations.Grouping
import AbsoluteZero.Lie.Derived
import AbsoluteZero.Lie.Gate

/-!
# The compiler of derived knowledge

`regenerate` makes a layer of artifacts from the ledger, the overlay and a ruleset: groups of
episodes that are large enough become lessons, patterns, anti-patterns and recipes; dossiers and
packs are views of these. A `Draft` is what the compiler hands to a builder, and every artifact
cites what its draft cites.
-/

namespace AbsoluteZero.Lie

open Foundations

/-! ### Reading records -/

/-- Sorted facets, each once. -/
abbrev Signature := List String

def signatureOf (envelope : Envelope Attestation) : Signature :=
  (SortedSet.ofList envelope.facets).elements

inductive Polarity
  | positive
  | negative
  deriving DecidableEq

def Polarity.text : Polarity → String
  | positive => "positive"
  | negative => "negative"

namespace Episode

def identity (episode : Episode) : String := episode.envelope.identity

def project (episode : Episode) : String := episode.envelope.origin.project

def signature (episode : Episode) : Signature := signatureOf episode.envelope

/-- The polarity of a verdict that is one of the two known ones. -/
def polarity? (episode : Episode) : Option Polarity :=
  match episode.outcome.get? "verdict" with
  | some (.str verdict) =>
    if verdict = "passed" then some .positive
    else if verdict = "failed" then some .negative
    else none
  | _ => none

/-- The steps of the approach: a list of strings, with at least one step and no empty one. -/
def steps? (episode : Episode) : Option (List String) :=
  match episode.approach.get? "steps" with
  | some (.arr elements) =>
    if elements = [] then none
    else elements.mapM fun element ↦ match element with
      | .str step => if step = "" then none else some step
      | _ => none
  | _ => none

end Episode

def polarityOf (episode : Episode) : Except Refusal Polarity :=
  match episode.polarity? with
  | some polarity => .ok polarity
  | none => .error (.unknownVerdict episode.identity (episode.outcome.get? "verdict"))

abbrev EvidenceSets := OrderedDict Signature (List (Polarity × Episode))

def judge (episode : Episode) : Except Refusal (Polarity × Episode) :=
  (polarityOf episode).map fun polarity ↦ (polarity, episode)

/-- `evidence_sets`, less the sorting of the partitions. -/
def evidenceSets (episodes : List Episode) : Except Refusal EvidenceSets :=
  (episodes.mapM judge).map (groupBy fun judged ↦ judged.2.signature)

/-- `sets[signature][polarity]`, sorted by identity. -/
def EvidenceSets.members (sets : EvidenceSets) (signature : Signature) (polarity : Polarity) :
    List Episode :=
  sortedBy Episode.identity
    ((((sets.get? signature).getD []).filter fun judged ↦ judged.1 = polarity).map Prod.snd)

/-- `sorted(sets, ...)`. -/
def EvidenceSets.signatures (sets : EvidenceSets) : List Signature := sortedBy id sets.keys

/-- What the compiler hands to a builder. -/
structure Draft where
  identity : String
  facets : List String
  evidence : List String
  projects : SortedSet String
  extra : List (RelationType × String)
  content : Content
  maturity : Maturity

def grade (ruleset : DerivationRuleset) (episodes : List Episode) : Maturity :=
  if ruleset.establishedMinProjects ≤
      (SortedSet.ofList (episodes.map Episode.project)).elements.length then .established
  else if ruleset.corroboratedMinEpisodes ≤ episodes.length then .corroborated
  else .provisional

def derivedEnvelope (identity : String) (facets evidenceIds : List String)
    (projects : SortedSet String) (state : DerivationState)
    (extra : List (RelationType × String)) : Except Refusal (Envelope DerivationState) := do
  let relations ← (sortedBy id evidenceIds).mapM (buildRelation .evidencedBy)
  let extraRelations ← extra.mapM fun relation ↦ buildRelation relation.1 relation.2
  let origin ← buildOrigin (",".intercalate projects.elements) "distillery" none (.str state.stamp)
  buildEnvelope identity state origin facets (relations ++ extraRelations)

namespace Draft

def ofGroup (ruleset : DerivationRuleset) (identity : String) (facets : List String)
    (members : List Episode) (extra : List (RelationType × String))
    (content : Content) : Draft where
  identity := identity
  facets := facets
  evidence := members.map Episode.identity
  projects := .ofList (members.map Episode.project)
  extra := extra
  content := content
  maturity := grade ruleset members

def build (state : DerivationState) (draft : Draft) : Except Refusal Artifact := do
  let envelope ← derivedEnvelope draft.identity draft.facets draft.evidence draft.projects state
    draft.extra
  match draft.content with
  | .lesson statement => buildLesson envelope statement draft.maturity
  | .pattern approach contested => buildPattern envelope approach draft.maturity contested
  | .antiPattern approach consequence contested =>
    buildAntiPattern envelope approach consequence draft.maturity contested
  | .recipe steps => buildRecipe envelope steps draft.maturity
  | .projectDossier project decisionRefs episodeRefs lessonRefs relationships =>
    buildProjectDossier envelope project decisionRefs episodeRefs lessonRefs relationships
      draft.maturity
  | .domainKnowledgePack memberRefs => buildDomainKnowledgePack envelope memberRefs draft.maturity

end Draft

def Overlay.targets (overlay : Overlay) (kinds : List AnnotationKind) : List String :=
  (overlay.entries.filter fun note ↦ note.kind ∈ kinds).flatMap Annotation.targetIds

def Overlay.excludedIds (overlay : Overlay) : List String :=
  overlay.targets [.deprecation, .supersession]

def Overlay.ruledAgainst (overlay : Overlay) : List String :=
  overlay.targets [.contradictionResolution]

def freshEpisodes (ledger : Ledger) (overlay : Overlay) : List Episode :=
  ledger.entries.filterMap fun record ↦ match record with
    | .episode episode => if episode.identity ∈ overlay.excludedIds then none else some episode
    | .decision _ => none

def freshDecisions (ledger : Ledger) (overlay : Overlay) : List Decision :=
  ledger.entries.filterMap fun record ↦ match record with
    | .episode _ => none
    | .decision decision =>
      if decision.envelope.identity ∈ overlay.excludedIds then none else some decision

/-- The corpus that a layer is compiled from. -/
structure Corpus where
  ruleset : DerivationRuleset
  ruledAgainst : List String
  episodes : List Episode
  decisions : List Decision
  sets : EvidenceSets

namespace Corpus

variable (digest : String → String) (corpus : Corpus)

def facetsKey (facets : List String) : String := "+".intercalate facets

def lessonIdentity (signature : Signature) (polarity : Polarity) : String :=
  "lesson:" ++ facetsKey signature ++ ":" ++ polarity.text

def lessonStatement (signature : Signature) (polarity : Polarity) (count : Nat) : String :=
  "in scope [" ++ ", ".intercalate signature ++ "]: verified " ++ polarity.text ++
    " outcome across " ++ toString count ++ " episode(s)"

def lesson? (signature : Signature) (polarity : Polarity) : Option Draft :=
  let members := corpus.sets.members signature polarity
  if members = [] ∨ lessonIdentity signature polarity ∈ corpus.ruledAgainst then none
  else some (.ofGroup corpus.ruleset (lessonIdentity signature polarity) signature members []
    (.lesson (lessonStatement signature polarity members.length)))

def lessons : List Draft :=
  corpus.sets.signatures.flatMap fun signature ↦
    [Polarity.positive, Polarity.negative].filterMap (corpus.lesson? signature)

/-! ### Patterns -/

def canonicalHash (value : Json) : String := digest (JsonText.dumps value)

def approachHash (episode : Episode) : String := canonicalHash digest episode.approach.toJson

/-- An item of `pattern_specs` or `anti_specs`: a signature, the hash of an approach, and the
episodes that share them. -/
structure Spec where
  signature : Signature
  approachHash : String
  members : List Episode

/-- `pattern_specs` or `anti_specs`, in the order of their keys. -/
def specs (polarity : Polarity) : List Spec :=
  corpus.sets.signatures.flatMap fun signature ↦
    ((sortedBy Prod.fst (groupBy (approachHash digest)
      (corpus.sets.members signature polarity)).items).filter fun group ↦
        corpus.ruleset.patternMinEpisodes ≤ group.2.length).map fun group ↦
          ⟨signature, group.1, group.2⟩

def patternIdentity (facets : List String) (key : String) : String :=
  "pattern:" ++ facetsKey facets ++ ":" ++ key

def antiIdentity (facets : List String) (key : String) : String :=
  "anti_pattern:" ++ facetsKey facets ++ ":" ++ key

/-- `contested_keys`: the specs that both polarities have. -/
def contestedSpecs : List Spec :=
  (corpus.specs digest .positive).filter fun spec ↦
    ∃ other ∈ corpus.specs digest .negative,
      other.signature = spec.signature ∧ other.approachHash = spec.approachHash

/-- `dropped`: the sides of contested keys that are ruled against. -/
def dropped : List String :=
  (corpus.contestedSpecs digest).flatMap fun spec ↦
    [patternIdentity spec.signature spec.approachHash,
      antiIdentity spec.signature spec.approachHash].filter (· ∈ corpus.ruledAgainst)

/-- The keys of `contested_flags`: both sides of contested keys of which neither is ruled
against. -/
def contestedFlags : List String :=
  (corpus.contestedSpecs digest).flatMap fun spec ↦
    if patternIdentity spec.signature spec.approachHash ∉ corpus.ruledAgainst ∧
        antiIdentity spec.signature spec.approachHash ∉ corpus.ruledAgainst then
      [patternIdentity spec.signature spec.approachHash,
        antiIdentity spec.signature spec.approachHash]
    else []

/-- `dict(members[0].approach)`. -/
def sharedApproach (members : List Episode) : Mapping := members.head?.elim .empty Episode.approach

def pattern? (spec : Spec) : Option Draft :=
  let identity := patternIdentity spec.signature spec.approachHash
  if identity ∈ corpus.ruledAgainst ∨ identity ∈ corpus.dropped digest then none
  else some (.ofGroup corpus.ruleset identity spec.signature spec.members []
    (.pattern (sharedApproach spec.members) (identity ∈ corpus.contestedFlags digest)))

def patterns : List (Spec × Draft) :=
  (corpus.specs digest .positive).filterMap fun spec ↦
    (corpus.pattern? digest spec).map fun draft ↦ (spec, draft)

def recipeIdentity (facets steps : List String) : String :=
  "recipe:" ++ facetsKey facets ++ ":" ++ canonicalHash digest (.arr (steps.map .str))

def threaded (episode : Episode) : Option (List String × Episode) :=
  episode.steps?.map fun steps ↦ (steps, episode)

/-- `step_groups` of a signature, in the order of the steps. -/
def stepGroups (signature : Signature) : List (List String × List Episode) :=
  (sortedBy Prod.fst (groupBy Prod.fst
    ((corpus.sets.members signature .positive).filterMap threaded)).items).map fun group ↦
      (group.1, group.2.map Prod.snd)

def recipe? (signature : Signature) (steps : List String) (members : List Episode) : Option Draft :=
  if members.length < corpus.ruleset.recipeMinEpisodes ∨
      recipeIdentity digest signature steps ∈ corpus.ruledAgainst then none
  else some (.ofGroup corpus.ruleset (recipeIdentity digest signature steps) signature
    (sortedBy Episode.identity members) [] (.recipe steps))

def recipesOf (signature : Signature) : List Draft :=
  (corpus.stepGroups signature).filterMap fun group ↦
    corpus.recipe? digest signature group.1 group.2

def recipes : List Draft := corpus.sets.signatures.flatMap (corpus.recipesOf digest)

/-- `alternatives`: what works at the same signature with another approach. -/
def alternatives (spec : Spec) : List String :=
  let patterns := (corpus.patterns digest).filter fun pattern ↦
    pattern.1.signature = spec.signature ∧ pattern.1.approachHash ≠ spec.approachHash
  let found := sortedBy id (patterns.map fun pattern ↦ pattern.2.identity) ++
    sortedBy id ((corpus.recipesOf digest spec.signature).map Draft.identity)
  if found = [] then
    match corpus.lesson? spec.signature .positive with
    | none => []
    | some lesson =>
      if ∃ member ∈ corpus.sets.members spec.signature .positive,
          approachHash digest member ≠ spec.approachHash then [lesson.identity]
      else []
  else found

def antiConsequence (count : Nat) : String :=
  "verified failure across " ++ toString count ++ " episode(s)"

/-- The anti-pattern of a spec, with its `instead-of` link. -/
def antiPattern? (spec : Spec) : Option Draft :=
  let identity := antiIdentity spec.signature spec.approachHash
  if identity ∈ corpus.ruledAgainst ∨ identity ∈ corpus.dropped digest then none
  else some (.ofGroup corpus.ruleset identity spec.signature spec.members
    ((corpus.alternatives digest spec).head?.toList.map fun target ↦ (.insteadOf, target))
    (.antiPattern (sharedApproach spec.members) (antiConsequence spec.members.length)
      (identity ∈ corpus.contestedFlags digest)))

def antiPatterns : List Draft :=
  (corpus.specs digest .negative).filterMap (corpus.antiPattern? digest)

/-- `core_artifacts`. -/
def core : List Draft :=
  corpus.lessons ++ (corpus.patterns digest).map Prod.snd ++ corpus.antiPatterns digest ++
    corpus.recipes digest

/-- `project_episodes[project]`. -/
def episodesOf (project : String) : List Episode :=
  ((groupBy Episode.project corpus.episodes).get? project).getD []

/-- `project_decisions.get(project, [])`. -/
def decisionsOf (project : String) : List Decision :=
  ((groupBy (fun decision : Decision ↦ decision.envelope.origin.project)
    corpus.decisions).get? project).getD []

/-- `sorted(project_episodes)`. -/
def projects : List String := sortedBy id (groupBy Episode.project corpus.episodes).keys

/-- `project_signatures[project]`. -/
def projectSignature (project : String) : SortedSet String :=
  .ofList ((corpus.episodesOf project).flatMap (fun episode ↦ episode.envelope.facets) ++
    (corpus.decisionsOf project).flatMap (fun decision ↦ decision.envelope.facets))

/-- `sorted(project_signatures[project] & project_signatures[other])`. -/
def sharedFacets (project other : String) : List String :=
  (corpus.projectSignature project).elements.filter fun facet ↦
    facet ∈ (corpus.projectSignature other).elements

def relatedProjects (project : String) : List String :=
  corpus.projects.filter fun other ↦ other ≠ project ∧ corpus.sharedFacets project other ≠ []

def lessonRefs (project : String) : List String :=
  sortedBy id ((corpus.lessons.filter fun lesson ↦
    ∃ cited ∈ lesson.evidence, cited ∈ (corpus.episodesOf project).map Episode.identity).map
      Draft.identity)

def dossier (project : String) : Except Refusal Draft := do
  let episodes := sortedBy Episode.identity (corpus.episodesOf project)
  let relationships ← (corpus.relatedProjects project).mapM fun other ↦
    buildProjectRelationship other (corpus.sharedFacets project other)
  return {
    identity := "dossier:" ++ project
    facets := (corpus.projectSignature project).elements
    evidence := episodes.map Episode.identity
    projects := .ofList [project]
    extra := []
    content := .projectDossier project
      (sortedBy id ((corpus.decisionsOf project).map fun decision ↦ decision.envelope.identity))
      (episodes.map Episode.identity) (corpus.lessonRefs project) relationships
    maturity := grade corpus.ruleset episodes }

def dossiers : Except Refusal (List Draft) :=
  (corpus.projects.filter fun project ↦ "dossier:" ++ project ∉ corpus.ruledAgainst).mapM
    corpus.dossier

/-! ### Domain knowledge packs -/

def InScope (scope facets : List String) : Prop := ∀ facet ∈ facets, facet ∈ scope

instance (scope facets : List String) : Decidable (InScope scope facets) :=
  inferInstanceAs (Decidable (∀ facet ∈ facets, facet ∈ scope))

def coreWithin (scope : List String) : List Draft :=
  (corpus.core digest).filter fun draft ↦ InScope scope draft.facets

def benchmarksWithin (scope : List String) : List Episode :=
  (sortedBy Episode.identity corpus.episodes).filter fun episode ↦
    "measurements" ∈ episode.outcome.keys ∧ InScope scope episode.envelope.facets

/-- `member_ids`. -/
def packMembers (scope : List String) : List String :=
  (corpus.coreWithin digest scope).map Draft.identity ++
    (corpus.benchmarksWithin scope).map Episode.identity

/-- `evidence_ids`. -/
def packEvidence (scope : List String) : SortedSet String :=
  .ofList ((corpus.coreWithin digest scope).flatMap Draft.evidence ++
    (corpus.benchmarksWithin scope).map Episode.identity)

/-- `evidence_episodes`; no two episodes have one identity. -/
def packEpisodes (scope : List String) : List Episode :=
  corpus.episodes.filter fun episode ↦
    episode.identity ∈ (corpus.packEvidence digest scope).elements

def pack? (name : String) (scope : List String) : Option Draft :=
  if "pack:" ++ name ∈ corpus.ruledAgainst ∨ corpus.packMembers digest scope = [] then none
  else some {
    identity := "pack:" ++ name
    facets := (SortedSet.ofList scope).elements
    evidence := (corpus.packEvidence digest scope).elements
    projects := .ofList ((corpus.packEpisodes digest scope).map Episode.project)
    extra := []
    content := .domainKnowledgePack (sortedBy id (corpus.packMembers digest scope))
    maturity := grade corpus.ruleset (corpus.packEpisodes digest scope) }

def packs : List Draft :=
  (sortedBy Prod.fst corpus.ruleset.packScopes.items).filterMap fun scope ↦
    corpus.pack? digest scope.1 scope.2

end Corpus

structure Layer where
  derivationState : DerivationState
  artifacts : List Artifact

/-- `layer_canonical`, over `layer_to_dict`. -/
def Layer.canonical (layer : Layer) : String :=
  JsonText.dumps (.obj [("derivation_state", layer.derivationState.toJson),
    ("artifacts", .arr (layer.artifacts.map Artifact.toJson))])

def derivationState (ledger : Ledger) (overlay : Overlay) (ruleset : DerivationRuleset) :
    DerivationState :=
  ⟨ledger.currentPosition, overlay.currentPosition, ruleset.version⟩

/-- What is left of the records after the rulings, with its evidence sets. -/
def gather (ledger : Ledger) (overlay : Overlay) (ruleset : DerivationRuleset) :
    Except Refusal Corpus :=
  (evidenceSets (freshEpisodes ledger overlay)).map fun sets ↦ {
    ruleset := ruleset
    ruledAgainst := overlay.ruledAgainst
    episodes := freshEpisodes ledger overlay
    decisions := freshDecisions ledger overlay
    sets := sets }

def regenerate (digest : String → String) (ledger : Ledger) (overlay : Overlay)
    (ruleset : DerivationRuleset) : Except Refusal Layer := do
  let state := derivationState ledger overlay ruleset
  let corpus ← gather ledger overlay ruleset
  let dossiers ← corpus.dossiers
  let artifacts ← (corpus.core digest ++ dossiers ++ corpus.packs digest).mapM (Draft.build state)
  return ⟨state, sortedBy Artifact.identity artifacts⟩

end AbsoluteZero.Lie

import AbsoluteZero.Foundations.SortedSet
import AbsoluteZero.Lie.Records

/-!
# Derived knowledge

The artifacts that the compiler makes of experience, of six kinds. None can be built without a
citation of its evidence, nor with an empty part; nothing else stops the builders
(`Artifact.build_eq_ok`). The thresholds of a `DerivationRuleset` are all positive.
-/

namespace AbsoluteZero.Lie

open Foundations

/-- The thresholds of the compiler, with a declared facet scope for each knowledge pack. -/
structure DerivationRuleset where
  version : Nat
  patternMinEpisodes : Nat
  recipeMinEpisodes : Nat
  corroboratedMinEpisodes : Nat
  establishedMinProjects : Nat
  packScopes : OrderedDict String (List String)
  versioned : 1 ≤ version
  patternPositive : 1 ≤ patternMinEpisodes
  recipePositive : 1 ≤ recipeMinEpisodes
  corroboratedPositive : 1 ≤ corroboratedMinEpisodes
  establishedPositive : 1 ≤ establishedMinProjects
  scopesNamed : "" ∉ packScopes.keys
  scopesDeclared : ∀ scope ∈ packScopes.values, scope ≠ [] ∧ "" ∉ scope

/-- `default_ruleset`, without packs. -/
def defaultRuleset (version : Nat) (hversion : 1 ≤ version) : DerivationRuleset where
  version := version
  patternMinEpisodes := 2
  recipeMinEpisodes := 2
  corroboratedMinEpisodes := 2
  establishedMinProjects := 2
  packScopes := .empty
  versioned := hversion
  patternPositive := by decide
  recipePositive := by decide
  corroboratedPositive := by decide
  establishedPositive := by decide
  scopesNamed := List.not_mem_nil
  scopesDeclared _ hscope := by cases hscope

/-- What a layer was derived from: two counts and a version. -/
structure DerivationState where
  ledgerPosition : Nat
  overlayPosition : Nat
  rulesetVersion : Nat
  deriving DecidableEq

/-- `to_dict` of a derivation state. -/
def DerivationState.toJson (state : DerivationState) : Json :=
  .obj [("ledger_position", .int state.ledgerPosition),
    ("overlay_position", .int state.overlayPosition),
    ("ruleset_version", .int state.rulesetVersion)]

/-- `"derived@L{0}:O{1}:R{2}"`. -/
def DerivationState.stamp (state : DerivationState) : String :=
  "derived@L" ++ toString state.ledgerPosition ++ ":O" ++ toString state.overlayPosition ++ ":R" ++
    toString state.rulesetVersion

/-! ### Artifacts -/

/-- `MATURITY_GRADES`. -/
inductive Maturity
  | provisional
  | corroborated
  | established
  deriving DecidableEq

def Maturity.text : Maturity → String
  | provisional => "provisional"
  | corroborated => "corroborated"
  | established => "established"

structure ProjectRelationship where
  otherProject : String
  sharedFacets : List String
  named : otherProject ≠ ""
  shared : sharedFacets ≠ []
  termed : "" ∉ sharedFacets

/-- What an artifact says, by its kind. -/
inductive Content
  | lesson (statement : String)
  | pattern (approach : Mapping) (contested : Bool)
  | antiPattern (approach : Mapping) (consequence : String) (contested : Bool)
  | recipe (steps : List String)
  | projectDossier (project : String) (decisionRefs episodeRefs lessonRefs : List String)
      (relationships : List ProjectRelationship)
  | domainKnowledgePack (memberRefs : List String)

/-- `_str_tuple` on a list of strings. -/
def strTuple? (label : String) (values : List String) (allowEmpty : Bool) : Option String :=
  if values = [] ∧ allowEmpty = false then some ("derived.empty_or_bad_" ++ label ++ ":()")
  else if "" ∈ values then some ("derived.bad_" ++ label ++ "_entry:''")
  else none

theorem strTuple?_eq_none {label : String} {values : List String} (allowEmpty : Bool)
    (hvalues : values ≠ []) (hentries : "" ∉ values) :
      strTuple? label values allowEmpty = none := by
  rw [strTuple?, if_neg fun hempty ↦ hvalues hempty.1, if_neg hentries]

theorem strTuple?_allowEmpty {label : String} {values : List String} (hentries : "" ∉ values) :
    strTuple? label values true = none := by
  simp [strTuple?, hentries]

/-- The first complaint of the builder of this kind. -/
def Content.malformed? : Content → Option String
  | lesson statement => if statement = "" then some "derived.bad_statement:''" else none
  | pattern approach _ =>
    if approach.items = [] then some "derived.empty_or_bad_approach:\x7b\x7d" else none
  | antiPattern approach consequence _ =>
    if consequence = "" then some "derived.bad_consequence:''"
    else if approach.items = [] then some "derived.empty_or_bad_approach:\x7b\x7d"
    else none
  | recipe steps => strTuple? "steps" steps false
  | projectDossier project decisionRefs episodeRefs lessonRefs _ =>
    if project = "" then some "derived.bad_project:''"
    else (strTuple? "decision_refs" decisionRefs true).or
      ((strTuple? "episode_refs" episodeRefs true).or (strTuple? "lesson_refs" lessonRefs true))
  | domainKnowledgePack memberRefs => strTuple? "member_refs" memberRefs false

def Envelope.Cites {Provenance : Type} (envelope : Envelope Provenance) : Prop :=
  ∃ relation ∈ envelope.relations, relation.relationType = .evidencedBy

instance {Provenance : Type} (envelope : Envelope Provenance) : Decidable envelope.Cites :=
  inferInstanceAs (Decidable (∃ relation ∈ _, _))

/-- A derived record: it cites its evidence and has no empty part. -/
structure Artifact where
  envelope : Envelope DerivationState
  content : Content
  maturity : Maturity
  cited : envelope.Cites
  formed : content.malformed? = none

namespace Artifact

def identity (artifact : Artifact) : String := artifact.envelope.identity

/-- `_validate_derived_envelope`, then the checks of one kind. -/
def build (envelope : Envelope DerivationState) (content : Content) (maturity : Maturity) :
    Except Refusal Artifact :=
  if hcited : envelope.Cites then
    match hformed : content.malformed? with
    | some reason => .error (.malformedDerived reason)
    | none => .ok ⟨envelope, content, maturity, hcited, hformed⟩
  else
    .error (.missingEvidence ("derived.no_evidence_citation:" ++ envelope.identity ++ ":INV-4"))

theorem build_eq_ok {envelope : Envelope DerivationState} {content : Content} (maturity : Maturity)
    (hcited : envelope.Cites) (hformed : content.malformed? = none) :
    build envelope content maturity = .ok ⟨envelope, content, maturity, hcited, hformed⟩ := by
  rw [build, dif_pos hcited]
  split
  · next hsome => cases hformed.symm.trans hsome
  · rfl

end Artifact

def buildLesson (envelope : Envelope DerivationState) (statement : String) (maturity : Maturity) :
    Except Refusal Artifact :=
  Artifact.build envelope (.lesson statement) maturity

def buildPattern (envelope : Envelope DerivationState) (approach : Mapping) (maturity : Maturity)
    (contested : Bool) : Except Refusal Artifact :=
  Artifact.build envelope (.pattern approach contested) maturity

def buildAntiPattern (envelope : Envelope DerivationState) (approach : Mapping)
    (consequence : String) (maturity : Maturity) (contested : Bool) : Except Refusal Artifact :=
  Artifact.build envelope (.antiPattern approach consequence contested) maturity

def buildRecipe (envelope : Envelope DerivationState) (steps : List String) (maturity : Maturity) :
    Except Refusal Artifact :=
  Artifact.build envelope (.recipe steps) maturity

def buildProjectRelationship (otherProject : String) (sharedFacets : List String) :
    Except Refusal ProjectRelationship :=
  if hnamed : otherProject = "" then .error (.malformedDerived "derived.bad_other_project:''")
  else if hshared : sharedFacets = [] then
    .error (.malformedDerived "derived.empty_or_bad_shared_facets:()")
  else if htermed : "" ∈ sharedFacets then
    .error (.malformedDerived "derived.bad_shared_facets_entry:''")
  else .ok ⟨otherProject, sharedFacets, hnamed, hshared, htermed⟩

def buildProjectDossier (envelope : Envelope DerivationState) (project : String)
    (decisionRefs episodeRefs lessonRefs : List String) (relationships : List ProjectRelationship)
    (maturity : Maturity) : Except Refusal Artifact :=
  Artifact.build envelope
    (.projectDossier project decisionRefs episodeRefs lessonRefs relationships) maturity

def buildDomainKnowledgePack (envelope : Envelope DerivationState) (memberRefs : List String)
    (maturity : Maturity) : Except Refusal Artifact :=
  Artifact.build envelope (.domainKnowledgePack memberRefs) maturity

/-- `to_dict` of a derived record; the canonical text sorts the fields. -/
def Artifact.toJson (artifact : Artifact) : Json :=
  let envelope := artifact.envelope.toJson fun state ↦ .obj [("derivation_state", state.toJson)]
  let common := [("envelope", envelope), ("maturity", .str artifact.maturity.text)]
  let texts (values : List String) : Json := .arr (values.map .str)
  match artifact.content with
  | .lesson statement => .obj (("kind", .str "lesson") :: ("statement", .str statement) :: common)
  | .pattern approach contested => .obj (("kind", .str "pattern") ::
      ("approach", approach.toJson) :: ("contested", .bool contested) :: common)
  | .antiPattern approach consequence contested => .obj (("kind", .str "anti_pattern") ::
      ("approach", approach.toJson) :: ("consequence", .str consequence) ::
        ("contested", .bool contested) :: common)
  | .recipe steps => .obj (("kind", .str "recipe") :: ("steps", texts steps) :: common)
  | .projectDossier project decisionRefs episodeRefs lessonRefs relationships =>
    .obj (("kind", .str "project_dossier") :: ("project", .str project) ::
      ("decision_refs", texts decisionRefs) :: ("episode_refs", texts episodeRefs) ::
        ("lesson_refs", texts lessonRefs) ::
          ("relationships", .arr (relationships.map fun relationship ↦
            .obj [("other_project", .str relationship.otherProject),
              ("shared_facets", texts relationship.sharedFacets)])) :: common)
  | .domainKnowledgePack memberRefs =>
    .obj (("kind", .str "domain_knowledge_pack") :: ("member_refs", texts memberRefs) :: common)

end AbsoluteZero.Lie

import AbsoluteZero.Foundations.Chain
import AbsoluteZero.Lie.Advisory
import AbsoluteZero.Lie.Compiling

/-!
# What a derivation state identifies

`History` is a runtime with all the layers it has published. A derivation state names what a layer
was compiled from by two counts and a version; the counts determine the logs, the version the
ruleset as long as no trigger publishes under another one of the same version
(`History.identifies`).
-/

namespace AbsoluteZero.Lie

open Foundations Checked List

structure Publication where
  ledger : Ledger
  overlay : Overlay
  ruleset : DerivationRuleset
  layer : Layer

/-- A call of the runtime or of the logs that it holds. -/
inductive RuntimeCall
  | append (record : Record)
  | rule (note : Annotation)
  | onLedgerAppended
  | onCurationRuling
  | onRulesetChanged (ruleset : DerivationRuleset)
  | onRegenerate

/-- A runtime, with the layers it has published so far. -/
structure History where
  runtime : LieRuntime
  published : List Publication

namespace History

variable (digest : String → String)

/-- The history after a trigger that left the runtime behind: what was compiled was published. -/
def record (history : History) (runtime : LieRuntime) : History where
  runtime := runtime
  published := history.published ++
    ((regenerate digest runtime.ledger runtime.overlay
        runtime.ruleset).toOption.toList.map fun layer ↦
      ⟨runtime.ledger, runtime.overlay, runtime.ruleset, layer⟩)

def step (history : History) : RuntimeCall → History
  | .append record => { history with runtime := history.runtime.append record }
  | .rule note => { history with runtime := history.runtime.rule note }
  | .onLedgerAppended => history.record digest (history.runtime.onLedgerAppended digest)
  | .onCurationRuling => history.record digest (history.runtime.onCurationRuling digest)
  | .onRulesetChanged ruleset =>
    history.record digest (history.runtime.onRulesetChanged digest ruleset)
  | .onRegenerate => history.record digest (history.runtime.onRegenerate digest)

def run (storage : Storage) (ruleset : DerivationRuleset) (calls : List RuntimeCall) : History :=
  calls.foldl (step digest) ⟨.new storage ruleset, []⟩

end History

/-- A changed ruleset is the one of every layer that was published under its version from the
present ledger and overlay. -/
def RuntimeCall.Heeds (history : History) : RuntimeCall → Prop
  | .onRulesetChanged ruleset => ∀ publication ∈ history.published,
      publication.layer.derivationState =
          derivationState history.runtime.ledger history.runtime.overlay ruleset →
        publication.ruleset = ruleset
  | _ => True

/-- Every recommendation has a citation, and every link of its chain is an entry of the ledger with
that attestation. -/
def Answer.Resolves (ledger : Ledger) : Answer → Prop
  | .recommendations found => ∀ recommendation ∈ found, recommendation.citationChain ≠ [] ∧
      ∀ link ∈ recommendation.citationChain, ∃ entry ∈ ledger.entries,
        entry.identity = link.evidence ∧ entry.attestationRef = link.attestationRef
  | .noRelevantExperience _ => True

variable {ledger grown : Ledger}

theorem Answer.Resolves.mono {answer : Answer}
    (hresolves : answer.Resolves ledger) (hgrown : ledger.entries <+: grown.entries) :
    answer.Resolves grown := by
  cases answer with
  | noRelevantExperience state => trivial
  | recommendations found =>
    intro recommendation hmem
    obtain ⟨hcited, hlinks⟩ := hresolves recommendation hmem
    refine ⟨hcited, fun link hlink ↦ ?_⟩
    obtain ⟨entry, hentry, hsame⟩ := hlinks link hlink
    exact ⟨entry, hgrown.subset hentry, hsame⟩

def Layer.CitedIn (layer : Layer) (ledger : Ledger) : Prop :=
  ∀ artifact ∈ layer.artifacts, ∀ relation ∈ artifact.envelope.relations,
    relation.relationType = .evidencedBy → ledger.Holds relation.targetId

variable {layer : Layer}

theorem citedIn_of_regenerate {digest : String → String} {ledger : Ledger} {overlay : Overlay}
    {ruleset : DerivationRuleset}
    (hlayer : regenerate digest ledger overlay ruleset = .ok layer) : layer.CitedIn ledger := by
  obtain ⟨-, corpus, dossiers, hgather, hcompiled⟩ := compiled_of_regenerate hlayer
  obtain ⟨hcorpus, -, -, hepisodes, -⟩ := gather_eq_ok hgather
  intro artifact hartifact relation hrelation hevidence
  obtain ⟨draft, hdraft, hcomplete, hdescribes⟩ := hcompiled.described artifact hartifact
  have hcited : relation.targetId ∈ draft.evidence := by
    rw [hdescribes.relations, mem_append, mem_map] at hrelation
    rcases hrelation with ⟨target, htarget, rfl⟩ | hextra
    · exact mem_sortedBy.mp htarget
    · obtain ⟨link, hlink, rfl⟩ := mem_map.mp hextra
      cases (hcomplete.linked link hlink).1.symm.trans hevidence
  obtain ⟨episode, hepisode, hidentity⟩ :=
    hcorpus.evidence_mem hcompiled.listed hdraft hcited
  rw [hepisodes] at hepisode
  exact mem_map.mpr ⟨.episode episode, (mem_freshEpisodes.mp hepisode).1, hidentity⟩

theorem byIdentity_of_isPrefix (hgrown : ledger.entries <+: grown.entries)
    {identity : String} (hheld : ledger.Holds identity) :
    ∃ entry ∈ ledger.entries, entry.identity = identity ∧
      ledger.byIdentity identity = some entry ∧ grown.byIdentity identity = some entry := by
  obtain ⟨later, hlater⟩ := hgrown
  obtain ⟨held, hmem, hidentity⟩ := mem_map.mp hheld
  have hsome : (ledger.entries.find? fun entry ↦ entry.identity = identity).isSome :=
    find?_isSome.mpr ⟨held, hmem, decide_eq_true hidentity⟩
  obtain ⟨entry, hentry⟩ := Option.isSome_iff_exists.mp hsome
  refine ⟨entry, mem_of_find?_eq_some hentry, ?_, hentry, ?_⟩
  · have hfound := find?_some hentry
    exact of_decide_eq_true hfound
  · rw [Ledger.byIdentity, ← hlater, find?_append, hentry]
    rfl

/-- The chain of an artifact of a compiled layer: it is walked to its end, in the ledger of the
layer and in every ledger that has grown from it. -/
theorem citationChain_eq_ok (hcited : layer.CitedIn ledger)
    (hgrown : ledger.entries <+: grown.entries) {artifact : Artifact}
    (hartifact : artifact ∈ layer.artifacts) :
    citationChain grown artifact = citationChain ledger artifact ∧
      ∃ links, citationChain ledger artifact = .ok links ∧ links ≠ [] ∧
        ∀ link ∈ links, ∃ entry ∈ ledger.entries,
          entry.identity = link.evidence ∧ entry.attestationRef = link.attestationRef := by
  have hwalk : ∀ relation ∈ artifact.envelope.relations.filter (fun relation ↦
      relation.relationType = .evidencedBy), walk grown artifact relation =
        walk ledger artifact relation ∧ ∃ link, walk ledger artifact relation = .ok link ∧
          ∃ entry ∈ ledger.entries,
            entry.identity = link.evidence ∧ entry.attestationRef = link.attestationRef := by
    intro relation hrelation
    obtain ⟨hmem, hevidence⟩ := mem_filter.mp hrelation
    obtain ⟨entry, hentry, hidentity, hfound, hlater⟩ := byIdentity_of_isPrefix hgrown
      (hcited artifact hartifact relation hmem (of_decide_eq_true hevidence))
    refine ⟨by rw [walk, walk, hfound, hlater], _, by rw [walk, hfound], entry, hentry, ?_, rfl⟩
    exact hidentity
  obtain ⟨links, hlinks⟩ := exists_mapM_eq_ok fun relation hrelation ↦ by
    obtain ⟨-, link, hlink, -⟩ := hwalk relation hrelation
    exact ⟨link, hlink⟩
  have hne : links ≠ [] := by
    obtain ⟨relation, hrelation, hevidence⟩ := artifact.cited
    obtain ⟨link, hlink, -⟩ := exists_mem_of_mapM hlinks
      (mem_filter.mpr ⟨hrelation, decide_eq_true hevidence⟩)
    exact ne_nil_of_mem hlink
  refine ⟨?_, links, ?_, hne, fun link hlink ↦ ?_⟩
  · rw [citationChain, citationChain,
      mapM_congr fun relation hrelation ↦ (hwalk relation hrelation).1]
  · rw [citationChain, hlinks]
    exact if_neg hne
  · obtain ⟨relation, hrelation, hmade⟩ := exists_of_mem_mapM hlinks hlink
    obtain ⟨-, other, hother, hentry⟩ := hwalk relation hrelation
    cases hmade.symm.trans hother
    exact hentry

theorem mem_of_mem_matching {situation : List String}
    {matched : Artifact × String × String} (hmatched : matched ∈ layer.matching situation) :
    matched.1 ∈ layer.artifacts := by
  obtain ⟨artifact, hartifact, hadvice⟩ := mem_filterMap.mp hmatched
  obtain ⟨_, -, rfl⟩ := Option.map_eq_some_iff.mp hadvice
  exact (mem_filter.mp (mem_sortedBy.mp hartifact)).1

/-- Consultation of a compiled layer answers, with chains that resolve, and it answers alike in
every ledger that has grown from that of the layer. -/
theorem consult_eq_ok (hcited : layer.CitedIn ledger)
    (hgrown : ledger.entries <+: grown.entries) (situation : List String) :
    consult (some layer) grown situation = consult (some layer) ledger situation ∧
      ∃ answer, consult (some layer) ledger situation = .ok answer ∧ answer.Resolves ledger := by
  have hchain : ∀ matched ∈ layer.matching situation,
      recommend grown layer.derivationState matched =
        recommend ledger layer.derivationState matched ∧
      ∃ recommendation, recommend ledger layer.derivationState matched = .ok recommendation ∧
        recommendation.citationChain ≠ [] ∧ ∀ link ∈ recommendation.citationChain,
          ∃ entry ∈ ledger.entries, entry.identity = link.evidence ∧
            entry.attestationRef = link.attestationRef := by
    intro matched hmatched
    obtain ⟨hsame, links, hlinks, hne, hresolves⟩ :=
      citationChain_eq_ok hcited hgrown (mem_of_mem_matching hmatched)
    refine ⟨by rw [recommend, recommend, hsame], _, by rw [recommend, hlinks]; rfl, hne, hresolves⟩
  obtain ⟨found, hfound⟩ := exists_mapM_eq_ok fun matched hmatched ↦ by
    obtain ⟨-, recommendation, hmade, -⟩ := hchain matched hmatched
    exact ⟨recommendation, hmade⟩
  have hsame := mapM_congr fun matched hmatched ↦ (hchain matched hmatched).1
  unfold consult
  dsimp only
  split
  · exact ⟨rfl, _, rfl, trivial⟩
  · refine ⟨by rw [hsame], .recommendations found, by rw [hfound]; rfl,
      fun recommendation hmem ↦ ?_⟩
    obtain ⟨matched, hmatched, hmade⟩ := exists_of_mem_mapM hfound hmem
    obtain ⟨-, other, hother, hresolves⟩ := hchain matched hmatched
    cases hmade.symm.trans hother
    exact hresolves

/-! ### What every call keeps -/

theorem Ledger.eq_of_isPrefix {first second later : Ledger}
    (hfirst : first.entries <+: later.entries) (hsecond : second.entries <+: later.entries)
    (hcount : first.currentPosition = second.currentPosition) : first = second := by
  have hentries : first.entries = second.entries :=
    (prefix_of_prefix_length_le hfirst hsecond hcount.le).eq_of_length hcount
  obtain ⟨entries', hunique'⟩ := second
  subst hentries
  rfl

theorem Overlay.eq_of_isPrefix {first second later : Overlay}
    (hfirst : first.entries <+: later.entries) (hsecond : second.entries <+: later.entries)
    (hcount : first.currentPosition = second.currentPosition) : first = second := by
  have hentries : first.entries = second.entries :=
    (prefix_of_prefix_length_le hfirst hsecond hcount.le).eq_of_length hcount
  obtain ⟨entries⟩ := first
  subst hentries
  rfl

/-- Of publications from logs that were continued alike, with one ruleset under their version, the
state determines everything. -/
theorem Publication.eq_of_state {digest : String → String} {first second : Publication}
    {overlay : Overlay}
    (hfirst : regenerate digest first.ledger first.overlay first.ruleset = .ok first.layer)
    (hsecond : regenerate digest second.ledger second.overlay second.ruleset = .ok second.layer)
    (hledger : first.ledger.entries <+: ledger.entries ∧ second.ledger.entries <+: ledger.entries)
    (hoverlay : first.overlay.entries <+: overlay.entries ∧
      second.overlay.entries <+: overlay.entries)
    (hruleset : first.ruleset.version = second.ruleset.version → first.ruleset = second.ruleset)
    (hsame : first.layer.derivationState = second.layer.derivationState) : first = second := by
  obtain ⟨ledger, overlay, ruleset, layer⟩ := first
  obtain ⟨ledger', overlay', ruleset', layer'⟩ := second
  rw [(compiled_of_regenerate hfirst).1, (compiled_of_regenerate hsecond).1] at hsame
  obtain rfl : ledger = ledger' := Ledger.eq_of_isPrefix hledger.1 hledger.2
    (congrArg DerivationState.ledgerPosition hsame)
  obtain rfl : overlay = overlay' := Overlay.eq_of_isPrefix hoverlay.1 hoverlay.2
    (congrArg DerivationState.overlayPosition hsame)
  obtain rfl : ruleset = ruleset' := hruleset (congrArg DerivationState.rulesetVersion hsame)
  obtain rfl : layer = layer' := Except.ok.inj (hfirst.symm.trans hsecond)
  rfl

namespace History

variable {digest : String → String} {history : History}

/-- Every publication was compiled from logs that have only grown since, and its state names the
ruleset it was compiled under, the present one included. -/
structure Recorded (digest : String → String) (history : History) : Prop where
  made : ∀ publication ∈ history.published,
    regenerate digest publication.ledger publication.overlay publication.ruleset =
      .ok publication.layer
  ledgers : ∀ publication ∈ history.published,
    publication.ledger.entries <+: history.runtime.ledger.entries
  overlays : ∀ publication ∈ history.published,
    publication.overlay.entries <+: history.runtime.overlay.entries
  current : history.runtime.layer = history.published.getLast?.map Publication.layer
  present : ∀ publication ∈ history.published,
    publication.layer.derivationState = derivationState history.runtime.ledger
        history.runtime.overlay history.runtime.ruleset →
      publication.ruleset = history.runtime.ruleset
  rulesets : ∀ first ∈ history.published, ∀ second ∈ history.published,
    first.layer.derivationState = second.layer.derivationState → first.ruleset = second.ruleset

theorem recorded_new (storage : Storage) (ruleset : DerivationRuleset) :
    Recorded digest ⟨.new storage ruleset, []⟩ where
  made _ hmem := by cases hmem
  ledgers _ hmem := by cases hmem
  overlays _ hmem := by cases hmem
  current := rfl
  present _ hmem := by cases hmem
  rulesets _ hmem := by cases hmem

section

variable (hhistory : history.Recorded digest)

include hhistory

/-- The state of a publication counts its logs and names its version. -/
theorem Recorded.state_eq {publication : Publication}
    (hmem : publication ∈ history.published) : publication.layer.derivationState =
      derivationState publication.ledger publication.overlay publication.ruleset :=
  (compiled_of_regenerate (hhistory.made publication hmem)).1

/-- A runtime whose logs have grown; when neither has, its ruleset may have changed to that of every
publication with its state. -/
theorem Recorded.grow {runtime : LieRuntime}
    (hledger : history.runtime.ledger.entries <+: runtime.ledger.entries)
    (hoverlay : history.runtime.overlay.entries <+: runtime.overlay.entries)
    (hlayer : runtime.layer = history.runtime.layer)
    (hpresent : ∀ publication ∈ history.published, publication.layer.derivationState =
        derivationState runtime.ledger runtime.overlay runtime.ruleset →
      publication.ruleset = runtime.ruleset) : Recorded digest ⟨runtime, history.published⟩ :=
  { hhistory with
    ledgers publication hmem := (hhistory.ledgers publication hmem).trans hledger
    overlays publication hmem := (hhistory.overlays publication hmem).trans hoverlay
    current := hlayer.trans hhistory.current
    present := hpresent }

theorem Recorded.republish :
    (history.record digest (history.runtime.republish digest)).Recorded digest := by
  unfold record LieRuntime.republish
  rcases hmade : regenerate digest history.runtime.ledger history.runtime.overlay
    history.runtime.ruleset with refusal | layer
  · simp only [hmade, Except.toOption, Option.toList_none, map_nil, append_nil]
    exact hhistory
  · simp only [hmade, Except.toOption, Option.toList_some, map_cons, map_nil]
    have hstate := (compiled_of_regenerate hmade).1
    have hnew : ∀ property : Publication → Prop,
        (∀ publication ∈ history.published, property publication) →
          property ⟨history.runtime.ledger, history.runtime.overlay,
            history.runtime.ruleset, layer⟩ →
            ∀ publication ∈ history.published ++ [⟨history.runtime.ledger, history.runtime.overlay,
              history.runtime.ruleset, layer⟩], property publication := by
      intro property hold hlast publication hmem
      rcases mem_append.mp hmem with hmem | hmem
      · exact hold publication hmem
      · cases mem_singleton.mp hmem
        exact hlast
    have hpresent := hnew _ hhistory.present fun _ ↦ rfl
    refine ⟨hnew _ hhistory.made hmade, hnew _ hhistory.ledgers (prefix_refl _),
      hnew _ hhistory.overlays (prefix_refl _), by rw [getLast?_concat]; rfl, hpresent, ?_⟩
    refine hnew _ (fun first hfirst ↦ ?_) fun second hsecond hsame ↦ ?_
    · refine hnew _ (hhistory.rulesets first hfirst) fun hsame ↦ ?_
      exact hhistory.present first hfirst (hsame.trans hstate)
    · exact (hpresent second hsecond (hsame.symm.trans hstate)).symm

/-- Publications with the state of longer logs are none. -/
theorem Recorded.state_ne_of_lt {publication : Publication}
    (hmem : publication ∈ history.published) {ledger : Ledger} {overlay : Overlay}
    {ruleset : DerivationRuleset}
    (hlt : history.runtime.ledger.currentPosition < ledger.currentPosition ∨
      history.runtime.overlay.currentPosition < overlay.currentPosition) :
    publication.layer.derivationState ≠ derivationState ledger overlay ruleset := by
  intro hstate
  rw [hhistory.state_eq hmem] at hstate
  have hledger := (hhistory.ledgers publication hmem).length_le
  have hoverlay := (hhistory.overlays publication hmem).length_le
  have hposition := congrArg DerivationState.ledgerPosition hstate
  have hplace := congrArg DerivationState.overlayPosition hstate
  simp only [derivationState, Ledger.currentPosition, Overlay.currentPosition] at *
  omega

theorem Recorded.append (record : Record) :
    Recorded digest ⟨history.runtime.append record, history.published⟩ := by
  unfold LieRuntime.append Ledger.append
  by_cases hheld : record.identity ∈ history.runtime.ledger.entries.map Record.identity
  · rw [dif_pos hheld]
    exact hhistory.grow (prefix_refl _) (prefix_refl _) rfl hhistory.present
  rw [dif_neg hheld]
  rcases hanswer : history.runtime.storage.answer with _ | _ | _
  · refine hhistory.grow (prefix_append _ _) (prefix_refl _) rfl fun publication hmem ↦ ?_
    refine fun hstate ↦ absurd hstate (hhistory.state_ne_of_lt hmem (.inl ?_))
    simp [Ledger.currentPosition]
  · exact hhistory.grow (prefix_refl _) (prefix_refl _) rfl hhistory.present
  · exact hhistory.grow (prefix_refl _) (prefix_refl _) rfl hhistory.present

theorem Recorded.rule (note : Annotation) :
    Recorded digest ⟨history.runtime.rule note, history.published⟩ := by
  unfold LieRuntime.rule Overlay.append
  rcases hanswer : history.runtime.storage.answer with _ | _ | _
  · refine hhistory.grow (prefix_refl _) (prefix_append _ _) rfl fun publication hmem ↦ ?_
    refine fun hstate ↦ absurd hstate (hhistory.state_ne_of_lt hmem (.inr ?_))
    simp [Overlay.currentPosition]
  · exact hhistory.grow (prefix_refl _) (prefix_refl _) rfl hhistory.present
  · exact hhistory.grow (prefix_refl _) (prefix_refl _) rfl hhistory.present

theorem Recorded.step {call : RuntimeCall}
    (hheeds : call.Heeds history) : (history.step digest call).Recorded digest := by
  cases call with
  | append record => exact hhistory.append record
  | rule note => exact hhistory.rule note
  | onRulesetChanged ruleset =>
    have hchanged : Recorded digest
        ⟨{ history.runtime with ruleset := ruleset }, history.published⟩ :=
      hhistory.grow (prefix_refl _) (prefix_refl _) rfl hheeds
    exact hchanged.republish
  | onLedgerAppended | onCurationRuling | onRegenerate => exact hhistory.republish

end

/-- Publications with one derivation state have one layer and answer alike. The layer of the runtime
is the one that was published last, and what the runtime answers at present is what that publication
answers, with chains that resolve. -/
structure Identifies (history : History) : Prop where
  layers : ∀ first ∈ history.published, ∀ second ∈ history.published,
    first.layer.derivationState = second.layer.derivationState →
      first.layer = second.layer ∧ ∀ situation,
        consult (some first.layer) first.ledger situation =
          consult (some second.layer) second.ledger situation
  current : history.runtime.layer = history.published.getLast?.map Publication.layer
  consultations : ∀ layer, history.runtime.layer = some layer →
    ∃ publication ∈ history.published, publication.layer = layer ∧ ∀ situation, ∃ answer,
      consult history.runtime.layer history.runtime.ledger situation = .ok answer ∧
        consult (some publication.layer) publication.ledger situation = .ok answer ∧
          answer.Resolves history.runtime.ledger

theorem Recorded.stateIdentifies (hhistory : history.Recorded digest) : history.Identifies where
  layers first hfirst second hsecond hsame := by
    obtain rfl := Publication.eq_of_state (hhistory.made first hfirst)
      (hhistory.made second hsecond) ⟨hhistory.ledgers first hfirst, hhistory.ledgers
        second hsecond⟩
      ⟨hhistory.overlays first hfirst, hhistory.overlays second hsecond⟩
      (fun _ ↦ hhistory.rulesets first hfirst second hsecond hsame) hsame
    exact ⟨rfl, fun _ ↦ rfl⟩
  current := hhistory.current
  consultations layer hcurrent := by
    obtain ⟨publication, hlast, rfl⟩ :=
      Option.map_eq_some_iff.mp (hhistory.current.symm.trans hcurrent)
    have hmem := mem_of_getLast? hlast
    refine ⟨publication, hmem, rfl, fun situation ↦ ?_⟩
    obtain ⟨hsame, answer, hanswer, hresolves⟩ := consult_eq_ok
      (citedIn_of_regenerate (hhistory.made publication hmem))
      (hhistory.ledgers publication hmem) situation
    exact ⟨answer, by rw [hcurrent, hsame, hanswer], hanswer,
      hresolves.mono (hhistory.ledgers publication hmem)⟩

/-- Assumes: whenever a trigger changes the ruleset, every layer already published under its version
from the present logs was compiled under that very ruleset. Then, at the end of every history, equal
derivation states identify one layer, and every consultation succeeds with chains that resolve. -/
theorem identifies (digest : String → String) (storage : Storage) (ruleset : DerivationRuleset)
    (calls : List RuntimeCall)
    (hheeds : Chained (fun before call ↦ call.Heeds (run digest storage ruleset before)) [] calls) :
    (run digest storage ruleset calls).Identifies := by
  have hrecorded : (run digest storage ruleset ([] ++ calls)).Recorded digest :=
    hheeds.invariant (recorded_new storage ruleset) fun _ _ hbefore hcall ↦ hbefore.step hcall
  exact hrecorded.stateIdentifies

/-- The digest of the approach of episode `e1`. -/
def firstDigest (_ : String) : String := "015abd7f5cc5"

/-- A new version, an episode and two publications of it. -/
theorem identifies_newVersion : (run firstDigest committing (defaultRuleset 1 (by decide))
      [.onRulesetChanged (defaultRuleset 2 (by decide)),
        .append (firstEpisode "trace:t1" (by decide)), .onLedgerAppended,
          .onRegenerate]).Identifies := by
  refine identifies firstDigest committing _ _
    ⟨fun publication hmem ↦ ?_, trivial, trivial, trivial, trivial⟩
  cases hmem

def eagerRuleset (version : Nat) (hversion : 1 ≤ version) : DerivationRuleset :=
  { defaultRuleset version hversion with
    corroboratedMinEpisodes := 1
    corroboratedPositive := Nat.le_refl 1 }

/-- The state of a publication, with the grades of what it answers to a situation. -/
def answeredGrades (situation : List String) (publication : Publication) :
    DerivationState × List Maturity :=
  (publication.layer.derivationState,
    match consult (some publication.layer) publication.ledger situation with
    | .ok (.recommendations found) => found.map Recommendation.maturity
    | _ => [])

/-- A ruleset with another threshold takes effect under the version of the first one: two layers
have the same state, and the same consultation finds another grade. -/
theorem not_identifies_sameVersion :
    ¬∀ digest storage ruleset calls, (run digest storage ruleset calls).Identifies := by
  intro hidentifies
  have hhistory := hidentifies firstDigest committing (defaultRuleset 1 (by decide))
    [.append (firstEpisode "trace:t1" (by decide)), .onLedgerAppended,
      .onRulesetChanged (eagerRuleset 1 (by decide))]
  have hgrades : (run firstDigest committing (defaultRuleset 1 (by decide))
      [.append (firstEpisode "trace:t1" (by decide)), .onLedgerAppended,
        .onRulesetChanged (eagerRuleset 1 (by decide))]).published.map (answeredGrades ["ros2"]) =
      [(⟨1, 0, 1⟩, [.provisional]), (⟨1, 0, 1⟩, [.corroborated])] := by
    decide +kernel
  obtain ⟨first, rest, hpublished, hfirst, hrest⟩ := map_eq_cons_iff.mp hgrades
  obtain ⟨second, rest, rfl, hsecond, -⟩ := map_eq_cons_iff.mp hrest
  rw [answeredGrades, Prod.mk.injEq] at hfirst hsecond
  have hsame := (hhistory.layers first (by simp [hpublished]) second (by simp [hpublished])
    (hfirst.1.trans hsecond.1.symm)).2 ["ros2"]
  have hmaturity := hfirst.2
  rw [hsame, hsecond.2] at hmaturity
  cases hmaturity

end History

end AbsoluteZero.Lie

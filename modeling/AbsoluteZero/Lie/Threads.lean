import AbsoluteZero.Lie.AdmissionOrder

/-!
# Threads of experience

A `Thread` is what episodes can have in common: a signature with a polarity, and for some an
approach or steps. The drafts of the core are those of the threads that stand
(`Inputs.Gathers.stands_of_core`). Hashes are assumed to tell the approaches apart, and facets to
have no plus sign (`Inputs.Plain`).
-/

namespace AbsoluteZero.Lie

open Foundations List Corpus

/-! ### Threads -/

def Episode.approachText (episode : Episode) : String := JsonText.dumps episode.approach.toJson

/-- What episodes can have in common; an approach is given by its canonical text. -/
inductive Thread
  | lesson (signature : Signature) (polarity : Polarity)
  | pattern (signature : Signature) (approach : String)
  | antiPattern (signature : Signature) (approach : String)
  | recipe (signature : Signature) (steps : List String)

namespace Thread

def signature : Thread → Signature
  | lesson signature _ => signature
  | pattern signature _ => signature
  | antiPattern signature _ => signature
  | recipe signature _ => signature

def polarity : Thread → Polarity
  | lesson _ polarity => polarity
  | pattern _ _ => .positive
  | antiPattern _ _ => .negative
  | recipe _ _ => .positive

def Follows (episode : Episode) : Thread → Prop
  | lesson _ _ => True
  | pattern _ approach => episode.approachText = approach
  | antiPattern _ approach => episode.approachText = approach
  | recipe _ steps => episode.steps? = some steps

instance (episode : Episode) : DecidablePred (Follows episode)
  | lesson _ _ => inferInstanceAs (Decidable True)
  | pattern _ _ => inferInstanceAs (Decidable (_ = _))
  | antiPattern _ _ => inferInstanceAs (Decidable (_ = _))
  | recipe _ _ => inferInstanceAs (Decidable (_ = _))

/-- The episode has the signature, the polarity and the approach of the thread. -/
def Covers (thread : Thread) (episode : Episode) : Prop :=
  (episode.signature = thread.signature ∧ episode.polarity? = some thread.polarity) ∧
    thread.Follows episode

instance (thread : Thread) : DecidablePred thread.Covers := fun _ ↦
  inferInstanceAs (Decidable (_ ∧ _))

/-- How many episodes the ruleset asks for. -/
def least (ruleset : DerivationRuleset) : Thread → Nat
  | lesson _ _ => 1
  | pattern _ _ => ruleset.patternMinEpisodes
  | antiPattern _ _ => ruleset.patternMinEpisodes
  | recipe _ _ => ruleset.recipeMinEpisodes

theorem least_pos (ruleset : DerivationRuleset) (thread : Thread) : 1 ≤ thread.least ruleset := by
  cases thread with
  | lesson => exact Nat.le_refl 1
  | pattern | antiPattern => exact ruleset.patternPositive
  | recipe => exact ruleset.recipePositive

def side (signature : Signature) (approach : String) : Polarity → Thread
  | .positive => pattern signature approach
  | .negative => antiPattern signature approach

/-- The same approach with the other outcome. -/
def opposite? : Thread → Option Thread
  | pattern signature approach => some (antiPattern signature approach)
  | antiPattern signature approach => some (pattern signature approach)
  | _ => none

end Thread

/-- What a layer is compiled from, with the digest of the hashes. -/
structure Inputs where
  digest : String → String
  ledger : Ledger
  overlay : Overlay
  ruleset : DerivationRuleset

namespace Inputs

variable (inputs : Inputs)

/-- The episodes that no ruling excludes. -/
def episodes : List Episode := freshEpisodes inputs.ledger inputs.overlay

def identity : Thread → String
  | .lesson signature polarity => Corpus.lessonIdentity signature polarity
  | .pattern signature approach => Corpus.patternIdentity signature (inputs.digest approach)
  | .antiPattern signature approach => Corpus.antiIdentity signature (inputs.digest approach)
  | .recipe signature steps => Corpus.recipeIdentity inputs.digest signature steps

def evidence (thread : Thread) : List Episode := inputs.episodes.filter fun episode ↦
  thread.Covers episode

def Reaches (thread : Thread) : Prop :=
  thread.least inputs.ruleset ≤ (inputs.evidence thread).length

structure Stands (thread : Thread) : Prop where
  reaches : inputs.Reaches thread
  unruled : inputs.identity thread ∉ inputs.overlay.ruledAgainst

/-- Both outcomes of one approach stand. -/
def Contested (thread : Thread) : Prop :=
  inputs.Stands thread ∧ ∃ opposite, thread.opposite? = some opposite ∧ inputs.Stands opposite

/-- The content is that of a thread with so many episodes. -/
def States (count : Nat) : Thread → Content → Prop
  | .lesson signature polarity, .lesson statement =>
    statement = Corpus.lessonStatement signature polarity count
  | .pattern signature text, .pattern approach contested =>
    JsonText.dumps approach.toJson = text ∧
      (contested = true ↔ inputs.Contested (.pattern signature text))
  | .antiPattern signature text, .antiPattern approach consequence contested =>
    JsonText.dumps approach.toJson = text ∧ consequence = Corpus.antiConsequence count ∧
      (contested = true ↔ inputs.Contested (.antiPattern signature text))
  | .recipe _ steps, .recipe steps' => steps' = steps
  | _, _ => False

/-- What is asked of a corpus: its verdicts are known, no two of its approaches have one hash, the
hashes have no colon and the facets no plus sign. -/
structure Plain : Prop where
  judged : ∀ episode ∈ inputs.episodes, episode.polarity? ≠ none
  distinct : ∀ first ∈ inputs.episodes, ∀ second ∈ inputs.episodes,
    inputs.digest first.approachText = inputs.digest second.approachText →
      first.approachText = second.approachText
  colonFree : ∀ episode ∈ inputs.episodes, ':' ∉ (inputs.digest episode.approachText).toList
  plusFree : ∀ episode ∈ inputs.episodes, ∀ facet ∈ episode.envelope.facets, '+' ∉ facet.toList

/-! ### Groups are evidence -/

structure Gathers (corpus : Corpus) : Prop where
  gathered : corpus.Gathered
  ruleset : corpus.ruleset = inputs.ruleset
  ruled : corpus.ruledAgainst = inputs.overlay.ruledAgainst
  episodes : corpus.episodes = inputs.episodes
  decisions : corpus.decisions = freshDecisions inputs.ledger inputs.overlay

variable {inputs} {corpus : Corpus}

variable {episode : Episode} {thread : Thread}

theorem mem_evidence :
    episode ∈ inputs.evidence thread ↔ episode ∈ inputs.episodes ∧ thread.Covers episode := by
  rw [evidence, mem_filter, decide_eq_true_iff]

theorem Reaches.exists_mem (hreaches : inputs.Reaches thread) :
    ∃ episode, episode ∈ inputs.evidence thread :=
  exists_mem_of_length_pos ((thread.least_pos inputs.ruleset).trans hreaches)

section

variable (hcorpus : inputs.Gathers corpus)

include hcorpus

theorem Gathers.filter_members (thread : Thread) :
    (corpus.sets.members thread.signature thread.polarity).filter (fun episode ↦
        thread.Follows episode) = sortedBy Episode.identity (inputs.evidence thread) := by
  rw [hcorpus.gathered.members_eq, filter_sortedBy
    (hcorpus.gathered.unique.sublist (filter_sublist.map Episode.identity)),
    filter_filter, hcorpus.episodes, evidence]
  congr 1
  refine filter_congr fun episode _ ↦ ?_
  rw [← Bool.decide_and]
  exact decide_eq_decide.mpr and_comm

theorem Gathers.members_lesson (signature : Signature)
    (polarity : Polarity) : corpus.sets.members signature polarity =
      sortedBy Episode.identity (inputs.evidence (.lesson signature polarity)) := by
  have hfilter := hcorpus.filter_members (.lesson signature polarity)
  have hall : ∀ episode ∈ corpus.sets.members signature polarity,
      decide ((Thread.lesson signature polarity).Follows episode) = true :=
    fun _ _ ↦ decide_eq_true trivial
  exact (filter_eq_self.mpr hall).symm.trans hfilter

theorem Gathers.mem_signatures
    (hepisode : episode ∈ inputs.evidence thread) : thread.signature ∈ corpus.sets.signatures := by
  obtain ⟨hmem, ⟨hsignature, -⟩, -⟩ := mem_evidence.mp hepisode
  exact hcorpus.gathered.mem_signatures.mpr ⟨episode, hcorpus.episodes ▸ hmem, hsignature⟩

end

/-- No two approaches of the corpus have one hash. -/
def Distinct (inputs : Inputs) : Prop :=
  ∀ first ∈ inputs.episodes, ∀ second ∈ inputs.episodes,
    inputs.digest first.approachText = inputs.digest second.approachText →
      first.approachText = second.approachText

def specOf (inputs : Inputs) (polarity : Polarity) (signature : Signature) (approach : String) :
    Corpus.Spec where
  signature := signature
  approachHash := inputs.digest approach
  members := sortedBy Episode.identity (inputs.evidence (.side signature approach polarity))

theorem side_signature (signature : Signature) (approach : String) (polarity : Polarity) :
    (Thread.side signature approach polarity).signature = signature := by
  cases polarity <;> rfl

theorem side_polarity (signature : Signature) (approach : String) (polarity : Polarity) :
    (Thread.side signature approach polarity).polarity = polarity := by
  cases polarity <;> rfl

variable {signature : Signature} {polarity : Polarity} {approach : String}

theorem side_follows : (Thread.side signature approach polarity).Follows episode ↔
      episode.approachText = approach := by
  cases polarity <;> rfl

theorem side_least (ruleset : DerivationRuleset) (signature : Signature) (approach : String)
    (polarity : Polarity) : (Thread.side signature approach polarity).least ruleset =
      ruleset.patternMinEpisodes := by
  cases polarity <;> rfl

section

variable (hcorpus : inputs.Gathers corpus)

include hcorpus

/-- The members of a partition with the hash of an approach of the corpus are the evidence of that
approach. -/
theorem Gathers.filter_hash (hdistinct : inputs.Distinct)
    (signature : Signature) (polarity : Polarity) (hepisode : episode ∈ inputs.episodes) :
    (corpus.sets.members signature polarity).filter (fun member ↦
        Corpus.approachHash inputs.digest member = inputs.digest episode.approachText) =
      sortedBy Episode.identity (inputs.evidence
        (.side signature episode.approachText polarity)) := by
  have hfilter := hcorpus.filter_members (.side signature episode.approachText polarity)
  rw [side_signature, side_polarity] at hfilter
  rw [← hfilter]
  refine filter_congr fun member hmember ↦ decide_eq_decide.mpr ?_
  have hmem := (hcorpus.gathered.mem_members.mp hmember).1
  rw [hcorpus.episodes] at hmem
  refine Iff.trans ⟨hdistinct member hmem episode hepisode, ?_⟩ side_follows.symm
  exact congrArg inputs.digest

theorem Gathers.mem_specs_iff (hdistinct : inputs.Distinct)
    {spec : Corpus.Spec} : spec ∈ corpus.specs inputs.digest polarity ↔ ∃ signature approach,
      inputs.Reaches (.side signature approach polarity) ∧
        spec = inputs.specOf polarity signature approach := by
  rw [mem_specs]
  constructor
  · rintro ⟨-, hmembers, hcount⟩
    obtain ⟨member, hmember⟩ := exists_mem_of_ne_nil _
      (members_ne_nil_of_le corpus.ruleset.patternPositive hcount)
    rw [hmembers, mem_filter, decide_eq_true_iff] at hmember
    have hmem := (hcorpus.gathered.mem_members.mp hmember.1).1
    rw [hcorpus.episodes] at hmem
    have hhash : spec.approachHash = inputs.digest member.approachText := hmember.2.symm
    rw [hhash, hcorpus.filter_hash hdistinct _ _ hmem] at hmembers
    refine ⟨spec.signature, member.approachText, ?_, ?_⟩
    · rw [hmembers, (perm_sortedBy _ _).length_eq, hcorpus.ruleset] at hcount
      rwa [Reaches, side_least]
    · obtain ⟨signature, approach, members⟩ := spec
      simp only at hhash hmembers
      rw [hhash, hmembers, specOf]
  · rintro ⟨signature, approach, hreaches, rfl⟩
    obtain ⟨episode, hepisode⟩ := hreaches.exists_mem
    obtain ⟨hmem, -, hfollows⟩ := mem_evidence.mp hepisode
    cases side_follows.mp hfollows
    have hsignature := hcorpus.mem_signatures hepisode
    rw [side_signature] at hsignature
    refine ⟨hsignature, (hcorpus.filter_hash hdistinct _ _ hmem).symm, ?_⟩
    rw [specOf, (perm_sortedBy _ _).length_eq, hcorpus.ruleset]
    rwa [Reaches, side_least] at hreaches

theorem Gathers.mem_stepGroups_iff {steps : List String} {members : List Episode} :
    (steps, members) ∈ corpus.stepGroups signature ↔
      members = sortedBy Episode.identity (inputs.evidence (.recipe signature steps)) ∧
        inputs.evidence (.recipe signature steps) ≠ [] := by
  rw [mem_stepGroups]
  have hfilter := hcorpus.filter_members (.recipe signature steps)
  constructor
  · rintro ⟨hmembers, hne⟩
    rw [hmembers.trans hfilter] at hne ⊢
    exact ⟨rfl, fun hempty ↦ hne (sortedBy_eq_nil.mpr hempty)⟩
  · rintro ⟨rfl, hne⟩
    exact ⟨hfilter.symm, fun hempty ↦ hne (sortedBy_eq_nil.mp hempty)⟩

end

/-- An episode of the corpus went by the approach under the signature. -/
def Occurs (inputs : Inputs) (signature : Signature) (approach : String) : Prop :=
  ∃ episode ∈ inputs.episodes, episode.signature = signature ∧ episode.approachText = approach

theorem Reaches.occurs (hreaches : inputs.Reaches (.side signature approach polarity)) :
    inputs.Occurs signature approach := by
  obtain ⟨episode, hepisode⟩ := hreaches.exists_mem
  obtain ⟨hmem, ⟨hsignature, -⟩, hfollows⟩ := mem_evidence.mp hepisode
  exact ⟨episode, hmem, hsignature.trans (side_signature _ _ _), side_follows.mp hfollows⟩

theorem Plain.facetsKey_inj (hplain : inputs.Plain) {first second : Episode}
    (hfirst : first ∈ inputs.episodes) (hsecond : second ∈ inputs.episodes)
    (hkey : Corpus.facetsKey first.signature = Corpus.facetsKey second.signature) :
    first.signature = second.signature :=
  SeparatedText.intercalate_inj '+' first.signature_ne_nil second.signature_ne_nil
    (fun _ hfacet ↦ hplain.plusFree first hfirst _ (SortedSet.mem_ofList.mp hfacet))
    (fun _ hfacet ↦ hplain.plusFree second hsecond _ (SortedSet.mem_ofList.mp hfacet)) hkey

theorem Plain.labelled_inj (hplain : inputs.Plain) (label : String)
    {signature signature' : Signature} {approach approach' : String}
    (hoccurs : inputs.Occurs signature approach) (hoccurs' : inputs.Occurs signature' approach')
    (hjoin : label ++ Corpus.facetsKey signature ++ ":" ++ inputs.digest approach =
      label ++ Corpus.facetsKey signature' ++ ":" ++ inputs.digest approach') :
    signature = signature' ∧ approach = approach' := by
  obtain ⟨first, hfirst, rfl, rfl⟩ := hoccurs
  obtain ⟨second, hsecond, rfl, rfl⟩ := hoccurs'
  obtain ⟨hlabelled, hhash⟩ := SeparatedText.separator_append_inj ':'
    (hplain.colonFree first hfirst) (hplain.colonFree second hsecond) hjoin
  have hkey := String.append_right_inj label |>.mp hlabelled
  exact ⟨hplain.facetsKey_inj hfirst hsecond hkey,
    hplain.distinct first hfirst second hsecond hhash⟩

theorem patternIdentity_ne_antiIdentity (facets facets' : List String) (key key' : String) :
    Corpus.patternIdentity facets key ≠ Corpus.antiIdentity facets' key' := by
  intro hsame
  have hhead := congrArg (fun text : String ↦ text.toList.head?) hsame
  simp [Corpus.patternIdentity, Corpus.antiIdentity, String.toList_append] at hhead

theorem contested_side : inputs.Contested (.side signature approach polarity) ↔
      inputs.Stands (.side signature approach .positive) ∧
        inputs.Stands (.side signature approach .negative) := by
  cases polarity with
  | positive => simp [Contested, Thread.side, Thread.opposite?]
  | negative => simp [Contested, Thread.side, Thread.opposite?, and_comm]

/-- The contested specs are the approaches of which both sides have as much evidence as they
need. -/
theorem Gathers.mem_contestedSpecs_iff (hcorpus : inputs.Gathers corpus) (hplain : inputs.Plain)
    {spec : Corpus.Spec} : spec ∈ corpus.contestedSpecs inputs.digest ↔ ∃ signature approach,
      inputs.Reaches (.side signature approach .positive) ∧
        inputs.Reaches (.side signature approach .negative) ∧
          spec = inputs.specOf .positive signature approach := by
  rw [Corpus.contestedSpecs, mem_filter, decide_eq_true_iff, hcorpus.mem_specs_iff hplain.distinct]
  constructor
  · rintro ⟨⟨signature, approach, hpositive, rfl⟩, other, hother, hsignature, hhash⟩
    obtain ⟨signature', approach', hnegative, rfl⟩ :=
      (hcorpus.mem_specs_iff hplain.distinct).mp hother
    obtain ⟨first, hfirst, -, rfl⟩ := hpositive.occurs
    obtain ⟨second, hsecond, -, rfl⟩ := hnegative.occurs
    have hsame := hplain.distinct second hsecond first hfirst hhash
    have hsignature' : signature' = signature := hsignature
    rw [hsame, hsignature'] at hnegative
    exact ⟨signature, first.approachText, hpositive, hnegative, rfl⟩
  · rintro ⟨signature, approach, hpositive, hnegative, rfl⟩
    exact ⟨⟨signature, approach, hpositive, rfl⟩, inputs.specOf .negative signature approach,
      (hcorpus.mem_specs_iff hplain.distinct).mpr ⟨signature, approach, hnegative, rfl⟩, rfl, rfl⟩

/-- A side of an approach is flagged if and only if both sides stand. -/
theorem Gathers.mem_contestedFlags_iff (hcorpus : inputs.Gathers corpus) (hplain : inputs.Plain)
    (hoccurs : inputs.Occurs signature approach) (polarity : Polarity) :
    inputs.identity (.side signature approach polarity) ∈ corpus.contestedFlags inputs.digest ↔
      inputs.Contested (.side signature approach polarity) := by
  rw [contested_side, Corpus.contestedFlags, mem_flatMap]
  constructor
  · rintro ⟨spec, hspec, hflag⟩
    obtain ⟨signature', approach', hpositive, hnegative, rfl⟩ :=
      (hcorpus.mem_contestedSpecs_iff hplain).mp hspec
    split at hflag
    · next hunruled =>
      rw [hcorpus.ruled] at hunruled
      have hsame : signature = signature' ∧ approach = approach' := by
        rw [mem_cons, mem_singleton] at hflag
        cases polarity with
        | positive =>
          rcases hflag with hpattern | hanti
          · exact hplain.labelled_inj "pattern:" hoccurs hpositive.occurs hpattern
          · exact absurd hanti (patternIdentity_ne_antiIdentity _ _ _ _)
        | negative =>
          rcases hflag with hpattern | hanti
          · exact absurd hpattern.symm (patternIdentity_ne_antiIdentity _ _ _ _)
          · exact hplain.labelled_inj "anti_pattern:" hoccurs hpositive.occurs hanti
      obtain ⟨rfl, rfl⟩ := hsame
      exact ⟨⟨hpositive, hunruled.1⟩, ⟨hnegative, hunruled.2⟩⟩
    · cases hflag
  · rintro ⟨hpositive, hnegative⟩
    refine ⟨inputs.specOf .positive signature approach, (hcorpus.mem_contestedSpecs_iff hplain).mpr
      ⟨signature, approach, hpositive.reaches, hnegative.reaches, rfl⟩, ?_⟩
    rw [hcorpus.ruled, if_pos ⟨hpositive.unruled, hnegative.unruled⟩]
    cases polarity with
    | positive => exact mem_cons_self
    | negative => exact mem_cons_of_mem _ mem_cons_self

/-- The draft of a thread: it names the evidence of the thread and has its grade. -/
structure DraftOf (inputs : Inputs) (thread : Thread) (draft : Draft) : Prop where
  identity : draft.identity = inputs.identity thread
  facets : draft.facets = thread.signature
  evidence : draft.evidence =
    (sortedBy Episode.identity (inputs.evidence thread)).map Episode.identity
  maturity : draft.maturity = grade inputs.ruleset (inputs.evidence thread)
  content : inputs.States (inputs.evidence thread).length thread draft.content

theorem Gathers.draftOf_ofGroup (hcorpus : inputs.Gathers corpus) (thread : Thread)
    (extra : List (RelationType × String)) {content : Content}
    (hcontent : inputs.States (inputs.evidence thread).length thread content) :
    inputs.DraftOf thread (.ofGroup corpus.ruleset (inputs.identity thread) thread.signature
      (sortedBy Episode.identity (inputs.evidence thread)) extra content) where
  identity := rfl
  facets := rfl
  evidence := rfl
  maturity := by
    show grade corpus.ruleset (sortedBy Episode.identity (inputs.evidence thread)) = _
    rw [hcorpus.ruleset, grade_of_perm _ (perm_sortedBy Episode.identity _)]
  content := hcontent

theorem length_sortedEvidence (thread : Thread) :
    (sortedBy Episode.identity (inputs.evidence thread)).length = (inputs.evidence thread).length :=
  (perm_sortedBy _ _).length_eq

theorem Reaches.sharedApproach (hreaches : inputs.Reaches (.side signature approach polarity)) :
    JsonText.dumps (Corpus.sharedApproach (sortedBy Episode.identity
      (inputs.evidence (.side signature approach polarity)))).toJson = approach := by
  have hne : sortedBy Episode.identity (inputs.evidence
      (.side signature approach polarity)) ≠ [] := by
    obtain ⟨episode, hepisode⟩ := hreaches.exists_mem
    exact ne_nil_of_mem (mem_sortedBy.mpr hepisode)
  obtain ⟨first, rest, hlist⟩ := exists_cons_of_ne_nil hne
  have hfirst : first ∈ inputs.evidence (.side signature approach polarity) := by
    refine mem_sortedBy.mp (?_ : first ∈ sortedBy Episode.identity _)
    rw [hlist]
    exact mem_cons_self
  rw [hlist]
  exact side_follows.mp (mem_evidence.mp hfirst).2.2

def draft? (inputs : Inputs) (corpus : Corpus) : Thread → Option Draft
  | .lesson signature polarity => corpus.lesson? signature polarity
  | .pattern signature approach =>
    corpus.pattern? inputs.digest (inputs.specOf .positive signature approach)
  | .antiPattern signature approach =>
    corpus.antiPattern? inputs.digest (inputs.specOf .negative signature approach)
  | .recipe signature steps => corpus.recipe? inputs.digest signature steps
      (sortedBy Episode.identity (inputs.evidence (.recipe signature steps)))

section Core

variable (hcorpus : inputs.Gathers corpus) (hplain : inputs.Plain)
include hcorpus

variable {signature : Signature} {draft : Draft}

theorem Gathers.draft?_eq {thread : Thread} (hstands : inputs.Stands thread) :
    ∃ extra content, inputs.draft? corpus thread = some (.ofGroup corpus.ruleset
      (inputs.identity thread) thread.signature
        (sortedBy Episode.identity (inputs.evidence thread)) extra content) := by
  have hunruled := hstands.unruled
  rw [← hcorpus.ruled] at hunruled
  cases thread with
  | lesson signature polarity =>
    have hmembers := hcorpus.members_lesson signature polarity
    refine ⟨_, _, lesson?_eq_some_iff.mpr ⟨?_, hunruled, by rw [hmembers]; rfl⟩⟩
    obtain ⟨episode, hepisode⟩ := hstands.reaches.exists_mem
    rw [hmembers]
    exact ne_nil_of_mem (mem_sortedBy.mpr hepisode)
  | pattern => exact ⟨_, _, pattern?_eq_some_iff.mpr ⟨hunruled, rfl⟩⟩
  | antiPattern => exact ⟨_, _, antiPattern?_eq_some_iff.mpr ⟨hunruled, rfl⟩⟩
  | recipe =>
    refine ⟨_, _, recipe?_eq_some_iff.mpr ⟨?_, hunruled, by rw [sortedBy_sortedBy]; rfl⟩⟩
    rw [length_sortedEvidence, hcorpus.ruleset]
    exact hstands.reaches

theorem Gathers.lesson? {polarity : Polarity} : corpus.lesson? signature polarity = some draft →
      inputs.Stands (.lesson signature polarity) ∧
        inputs.DraftOf (.lesson signature polarity) draft := by
  rw [lesson?_eq_some_iff, hcorpus.members_lesson]
  rintro ⟨hmembers, hunruled, rfl⟩
  refine ⟨⟨?_, hcorpus.ruled ▸ hunruled⟩, hcorpus.draftOf_ofGroup
    (.lesson signature polarity) [] ?_⟩
  · exact length_pos_of_ne_nil fun hempty ↦ hmembers (sortedBy_eq_nil.mpr hempty)
  · exact congrArg (Corpus.lessonStatement signature polarity) (length_sortedEvidence _)

/-- A recipe is drafted for steps that were followed as often as the ruleset asks for. -/
theorem Gathers.recipe? {steps : List String} : corpus.recipe? inputs.digest signature steps
        (sortedBy Episode.identity (inputs.evidence (.recipe signature steps))) = some draft →
      inputs.Stands (.recipe signature steps) ∧ inputs.DraftOf (.recipe signature steps) draft := by
  rw [recipe?_eq_some_iff, sortedBy_sortedBy, length_sortedEvidence, hcorpus.ruled]
  rintro ⟨hcount, hunruled, rfl⟩
  rw [hcorpus.ruleset] at hcount
  exact ⟨⟨hcount, hunruled⟩, hcorpus.draftOf_ofGroup (.recipe signature steps) [] rfl⟩

theorem Gathers.mem_core_iff (hdistinct : inputs.Distinct) : draft ∈ corpus.core inputs.digest ↔
    ∃ thread, inputs.Stands thread ∧ inputs.draft? corpus thread = some draft := by
  rw [mem_core]
  constructor
  · rintro (⟨signature, -, polarity, hmade⟩ | ⟨spec, hspec, hmade⟩ | ⟨spec, hspec, hmade⟩ |
      ⟨signature, -, steps, members, hgroup, hmade⟩)
    · exact ⟨_, (hcorpus.lesson? hmade).1, hmade⟩
    · obtain ⟨signature, approach, hreaches, rfl⟩ := (hcorpus.mem_specs_iff hdistinct).mp hspec
      exact ⟨.pattern signature approach,
        ⟨hreaches, hcorpus.ruled ▸ (pattern?_eq_some_iff.mp hmade).1⟩, hmade⟩
    · obtain ⟨signature, approach, hreaches, rfl⟩ := (hcorpus.mem_specs_iff hdistinct).mp hspec
      exact ⟨.antiPattern signature approach,
        ⟨hreaches, hcorpus.ruled ▸ (antiPattern?_eq_some_iff.mp hmade).1⟩, hmade⟩
    · obtain ⟨rfl, -⟩ := hcorpus.mem_stepGroups_iff.mp hgroup
      exact ⟨_, (hcorpus.recipe? hmade).1, hmade⟩
  · rintro ⟨thread, hstands, hmade⟩
    obtain ⟨episode, hepisode⟩ := hstands.reaches.exists_mem
    have hsignature := hcorpus.mem_signatures hepisode
    cases thread with
    | lesson signature polarity => exact .inl ⟨signature, hsignature, polarity, hmade⟩
    | pattern signature approach =>
      exact .inr (.inl ⟨_, (hcorpus.mem_specs_iff hdistinct).mpr
        ⟨signature, approach, hstands.reaches, rfl⟩, hmade⟩)
    | antiPattern signature approach =>
      exact .inr (.inr (.inl ⟨_, (hcorpus.mem_specs_iff hdistinct).mpr
        ⟨signature, approach, hstands.reaches, rfl⟩, hmade⟩))
    | recipe signature steps =>
      exact .inr (.inr (.inr ⟨signature, hsignature, steps, _,
        hcorpus.mem_stepGroups_iff.mpr ⟨rfl, ne_nil_of_mem hepisode⟩, hmade⟩))

include hplain

/-- A pattern is drafted for an approach that passed as often as the ruleset asks for. -/
theorem Gathers.pattern? {approach : String}
    (hreaches : inputs.Reaches (.pattern signature approach)) :
    corpus.pattern? inputs.digest (inputs.specOf .positive signature approach) = some draft →
      inputs.Stands (.pattern signature approach) ∧
        inputs.DraftOf (.pattern signature approach) draft := by
  rw [pattern?_eq_some_iff]
  rintro ⟨hunruled, rfl⟩
  have hside : inputs.Reaches (.side signature approach .positive) := hreaches
  refine ⟨⟨hreaches, hcorpus.ruled ▸ hunruled⟩,
    hcorpus.draftOf_ofGroup (.pattern signature approach) [] ⟨hside.sharedApproach, ?_⟩⟩
  rw [decide_eq_true_iff]
  exact hcorpus.mem_contestedFlags_iff hplain hside.occurs .positive

/-- An anti-pattern is drafted for an approach that failed as often as the ruleset asks for. -/
theorem Gathers.antiPattern? {approach : String}
    (hreaches : inputs.Reaches (.antiPattern signature approach)) :
    corpus.antiPattern? inputs.digest (inputs.specOf .negative signature approach) = some draft →
      inputs.Stands (.antiPattern signature approach) ∧
        inputs.DraftOf (.antiPattern signature approach) draft := by
  rw [antiPattern?_eq_some_iff]
  rintro ⟨hunruled, rfl⟩
  have hside : inputs.Reaches (.side signature approach .negative) := hreaches
  refine ⟨⟨hreaches, hcorpus.ruled ▸ hunruled⟩,
    hcorpus.draftOf_ofGroup (.antiPattern signature approach) _ ⟨hside.sharedApproach, ?_, ?_⟩⟩
  · exact congrArg Corpus.antiConsequence (length_sortedEvidence _)
  · rw [decide_eq_true_iff]
    exact hcorpus.mem_contestedFlags_iff hplain hside.occurs .negative

theorem Gathers.draftOf {thread : Thread} (hstands : inputs.Stands thread)
    (hmade : inputs.draft? corpus thread = some draft) : inputs.DraftOf thread draft := by
  cases thread with
  | lesson => exact (hcorpus.lesson? hmade).2
  | pattern => exact (hcorpus.pattern? hplain hstands.reaches hmade).2
  | antiPattern => exact (hcorpus.antiPattern? hplain hstands.reaches hmade).2
  | recipe => exact (hcorpus.recipe? hmade).2

theorem Gathers.stands_of_core (hdraft : draft ∈ corpus.core inputs.digest) :
    ∃ thread, inputs.Stands thread ∧ inputs.DraftOf thread draft := by
  obtain ⟨thread, hstands, hmade⟩ := (hcorpus.mem_core_iff hplain.distinct).mp hdraft
  exact ⟨thread, hstands, hcorpus.draftOf hplain hstands hmade⟩

theorem Gathers.exists_core {thread : Thread} (hstands : inputs.Stands thread) :
    ∃ draft ∈ corpus.core inputs.digest, inputs.DraftOf thread draft := by
  obtain ⟨extra, content, hmade⟩ := hcorpus.draft?_eq hstands
  exact ⟨_, (hcorpus.mem_core_iff hplain.distinct).mpr ⟨thread, hstands, hmade⟩,
    hcorpus.draftOf hplain hstands hmade⟩

end Core

end Inputs

end AbsoluteZero.Lie

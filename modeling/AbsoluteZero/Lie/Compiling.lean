import AbsoluteZero.Foundations.Checked
import AbsoluteZero.Foundations.Reading
import AbsoluteZero.Lie.Admission
import AbsoluteZero.Lie.Distillery

/-!
# What can stop the compiler

A draft is `Draft.Complete` when nothing that a builder asks for is missing, and every draft that
the compiler makes is. What is left is the verdict: a layer is compiled if and only if every episode
that no ruling excludes has one of the two known verdicts (`regenerate_eq_ok_iff`).
-/

namespace AbsoluteZero.Lie

open Foundations Checked SortedSet List

namespace Draft

/-- Nothing that the builders ask for is missing. -/
structure Complete (draft : Draft) : Prop where
  named : draft.identity ≠ ""
  faceted : draft.facets ≠ []
  termed : "" ∉ draft.facets
  cited : draft.evidence ≠ []
  evident : "" ∉ draft.evidence
  located : draft.projects.elements ≠ []
  identifiable : "" ∉ draft.projects
  linked : ∀ relation ∈ draft.extra, relation.1 = .insteadOf ∧ relation.2 ≠ ""
  formed : draft.content.malformed? = none

/-- The artifact has what its draft says, and the derivation state it was made in. -/
structure Describes (draft : Draft) (state : DerivationState) (artifact : Artifact) : Prop where
  identity : artifact.identity = draft.identity
  attestation : artifact.envelope.attestation = state
  facets : artifact.envelope.facets = draft.facets
  relations : artifact.envelope.relations =
    (sortedBy id draft.evidence).map (⟨.evidencedBy, ·⟩) ++
      draft.extra.map fun relation ↦ ⟨relation.1, relation.2⟩
  content : artifact.content = draft.content
  maturity : artifact.maturity = draft.maturity

end Draft

theorem mapM_buildRelation {relationType : RelationType} {targets : List String}
    (htargets : "" ∉ targets) :
    targets.mapM (buildRelation relationType) = .ok (targets.map (⟨relationType, ·⟩)) :=
  mapM_eq_ok_map fun target htarget ↦ by
    have hne : target ≠ "" := fun hempty ↦ htargets (hempty ▸ htarget)
    rw [buildRelation, if_neg hne]

theorem intercalate_ne_empty {separator : String} {parts : List String} (hparts : parts ≠ [])
    (hnamed : "" ∉ parts) : separator.intercalate parts ≠ "" := by
  obtain ⟨part, rest, rfl⟩ := exists_cons_of_ne_nil hparts
  rcases rest with _ | ⟨next, rest⟩
  · rw [String.intercalate_singleton]
    exact fun hempty ↦ hnamed (hempty ▸ mem_cons_self)
  · rw [String.intercalate_cons_cons]
    intro hempty
    simp only [String.append_eq_empty_iff] at hempty
    exact hnamed (by simp [hempty.1.1])

theorem append_ne_empty {text rest : String} (hrest : rest ≠ "") : text ++ rest ≠ "" :=
  fun hempty ↦ hrest (String.append_eq_empty_iff.mp hempty).2

variable {identity : String}

theorem derivedEnvelope_eq_ok {facets evidenceIds : List String}
    {projects : SortedSet String} {extra : List (RelationType × String)} (state : DerivationState)
    (hnamed : identity ≠ "") (hfaceted : facets ≠ []) (htermed : "" ∉ facets)
    (hevident : "" ∉ evidenceIds) (hlocated : projects.elements ≠ [])
    (hidentifiable : "" ∉ projects) (hlinked : ∀ relation ∈ extra, relation.2 ≠ "") :
    ∃ origin, derivedEnvelope identity facets evidenceIds projects state extra =
      .ok ⟨identity, state, origin, facets, (sortedBy id evidenceIds).map (⟨.evidencedBy, ·⟩) ++
        extra.map fun relation ↦ ⟨relation.1, relation.2⟩, hnamed, hfaceted, htermed⟩ := by
  have hproject : ",".intercalate projects.elements ≠ "" :=
    intercalate_ne_empty hlocated hidentifiable
  have hextra : (extra.mapM fun relation ↦ buildRelation relation.1 relation.2) =
      .ok (extra.map fun relation ↦ ⟨relation.1, relation.2⟩) :=
    mapM_eq_ok_map fun relation hrelation ↦ by
      rw [buildRelation, if_neg (hlinked relation hrelation)]
  refine ⟨⟨_, "distillery", none, .str state.stamp, hproject, by decide, by simp⟩, ?_⟩
  rw [derivedEnvelope, mapM_buildRelation (by simpa using hevident), hextra, buildOrigin,
    dif_neg hproject]
  exact buildEnvelope_eq_ok hnamed hfaceted htermed state _ _

namespace Draft

theorem build_eq (state : DerivationState) (draft : Draft) : draft.build state =
    (derivedEnvelope draft.identity draft.facets draft.evidence draft.projects state
      draft.extra).bind fun envelope ↦ Artifact.build envelope draft.content draft.maturity := by
  unfold build
  rcases draft.content <;> rfl

theorem Complete.build {draft : Draft} (hcomplete : draft.Complete) (state : DerivationState) :
    ∃ artifact, draft.build state = .ok artifact ∧ draft.Describes state artifact := by
  obtain ⟨origin, henvelope⟩ := derivedEnvelope_eq_ok state hcomplete.named hcomplete.faceted
    hcomplete.termed hcomplete.evident hcomplete.located hcomplete.identifiable
    fun relation hrelation ↦ (hcomplete.linked relation hrelation).2
  rw [build_eq, henvelope]
  refine ⟨_, Artifact.build_eq_ok draft.maturity ?_ hcomplete.formed, rfl, rfl, rfl, rfl, rfl, rfl⟩
  obtain ⟨cited, hcited⟩ := exists_mem_of_ne_nil _ hcomplete.cited
  exact ⟨⟨.evidencedBy, cited⟩, mem_append_left _
    (mem_map.mpr ⟨cited, mem_sortedBy.mpr hcited, rfl⟩), rfl⟩

end Draft

/-! ### Groups -/

variable {episode : Episode}

theorem judge_eq_ok_iff {judged : Polarity × Episode} :
    judge episode = .ok judged ↔ episode.polarity? = some judged.1 ∧ judged.2 = episode := by
  obtain ⟨polarity, other⟩ := judged
  rw [judge, polarityOf]
  cases episode.polarity? with
  | none => exact iff_of_false (by simp [Except.map]) (by simp)
  | some found => simp [Except.map, eq_comm]

theorem filter_judged {episodes : List Episode} {judged : List (Polarity × Episode)}
    (hjudged : List.Forall₂ (fun episode result ↦ judge episode = .ok result) episodes judged)
    (signature : Signature) (polarity : Polarity) :
    ((judged.filter fun result ↦ result.2.signature = signature).filter fun result ↦
        result.1 = polarity).map Prod.snd =
      episodes.filter fun episode ↦
        episode.signature = signature ∧ episode.polarity? = some polarity := by
  induction hjudged with
  | nil => rfl
  | cons hjudge _ ih =>
    obtain ⟨hpolarity, rfl⟩ := judge_eq_ok_iff.mp hjudge
    simp only [filter_cons, hpolarity, Option.some.injEq]
    split_ifs <;> simp_all

theorem mem_groupBy_judged {episodes : List Episode} {judged : List (Polarity × Episode)}
    (hjudged : List.Forall₂ (fun episode result ↦ judge episode = .ok result) episodes judged)
    (signature : Signature) : (∃ result ∈ judged, result.2.signature = signature) ↔
      ∃ episode ∈ episodes, episode.signature = signature := by
  induction hjudged with
  | nil => simp
  | cons hjudge _ ih =>
    obtain ⟨-, rfl⟩ := judge_eq_ok_iff.mp hjudge
    simp only [exists_mem_cons_iff, ih]

theorem Episode.signature_ne_nil (episode : Episode) : episode.signature ≠ [] := by
  intro hempty
  obtain ⟨facet, hfacet⟩ := exists_mem_of_ne_nil _ episode.envelope.faceted
  have hmem := mem_elements.mpr (mem_ofList.mpr hfacet)
  change facet ∈ episode.signature at hmem
  rw [hempty] at hmem
  cases hmem

theorem Episode.notMem_signature (episode : Episode) : "" ∉ episode.signature := fun hmem ↦
  episode.envelope.termed (mem_ofList.mp hmem)

namespace Corpus

variable {digest : String → String} {corpus : Corpus}

/-- The evidence sets are those of the episodes, and no two episodes have one identity. -/
structure Gathered (corpus : Corpus) : Prop where
  sets : evidenceSets corpus.episodes = .ok corpus.sets
  unique : (corpus.episodes.map Episode.identity).Nodup

namespace Gathered

variable (hcorpus : corpus.Gathered)
include hcorpus

theorem members_eq (signature : Signature) (polarity : Polarity) :
    corpus.sets.members signature polarity =
      sortedBy Episode.identity (corpus.episodes.filter fun episode ↦
        episode.signature = signature ∧ episode.polarity? = some polarity) := by
  obtain ⟨judged, hjudged, hsets⟩ := map_eq_ok_iff.mp hcorpus.sets
  rw [EvidenceSets.members, ← hsets, getD_groupBy, filter_judged (mapM_eq_ok_iff.mp hjudged)]

theorem mem_members {signature : Signature} {polarity : Polarity} :
    episode ∈ corpus.sets.members signature polarity ↔
      episode ∈ corpus.episodes ∧ episode.signature = signature ∧
        episode.polarity? = some polarity := by
  rw [hcorpus.members_eq, mem_sortedBy, mem_filter, decide_eq_true_iff]

theorem mem_signatures {signature : Signature} : signature ∈ corpus.sets.signatures ↔
      ∃ episode ∈ corpus.episodes, episode.signature = signature := by
  obtain ⟨judged, hjudged, hsets⟩ := map_eq_ok_iff.mp hcorpus.sets
  rw [EvidenceSets.signatures, mem_sortedBy, ← hsets, mem_keys_groupBy]
  exact mem_groupBy_judged (mapM_eq_ok_iff.mp hjudged) signature

end Gathered

variable {spec : Spec} {polarity : Polarity}

/-- A spec: the episodes of a signature, a polarity and an approach, as many as the ruleset asks
for. -/
theorem mem_specs :
    spec ∈ corpus.specs digest polarity ↔ spec.signature ∈ corpus.sets.signatures ∧
      spec.members = (corpus.sets.members spec.signature polarity).filter (fun episode ↦
        approachHash digest episode = spec.approachHash) ∧
      corpus.ruleset.patternMinEpisodes ≤ spec.members.length := by
  obtain ⟨signature, approach, members⟩ := spec
  simp only [specs, mem_flatMap, mem_map, mem_filter, mem_sortedBy, Prod.exists,
    mem_items_groupBy, Spec.mk.injEq, decide_eq_true_iff]
  constructor
  · rintro ⟨_, hsignature, _, _, ⟨⟨rfl, -⟩, hcount⟩, rfl, rfl, rfl⟩
    exact ⟨hsignature, rfl, hcount⟩
  · rintro ⟨hsignature, hmembers, hcount⟩
    refine ⟨_, hsignature, _, members, ⟨⟨hmembers, fun hempty ↦ ?_⟩, hcount⟩, rfl, rfl, rfl⟩
    have hpositive := corpus.ruleset.patternPositive
    rw [hempty] at hcount
    exact absurd (hpositive.trans hcount) (by simp)

variable {signature : Signature} {members : List Episode} {steps : List String}

theorem mem_stepGroups :
    (steps, members) ∈ corpus.stepGroups signature ↔
      members = (corpus.sets.members signature .positive).filter (fun episode ↦
        episode.steps? = some steps) ∧ members ≠ [] := by
  have hgroup (episodes : List Episode) :
      ((episodes.filterMap threaded).filter fun pair ↦ pair.1 = steps).map Prod.snd =
        episodes.filter fun episode ↦ episode.steps? = some steps := by
    induction episodes with
    | nil => rfl
    | cons episode rest ih =>
      rw [filterMap_cons, threaded]
      rcases hsteps : episode.steps? with _ | found
      · simp [hsteps, ih]
      · by_cases hfound : found = steps <;> simp [hsteps, hfound, ih]
  simp only [stepGroups, mem_map, mem_sortedBy, Prod.exists, mem_items_groupBy, Prod.mk.injEq]
  constructor
  · rintro ⟨_, _, ⟨rfl, hne⟩, rfl, rfl⟩
    exact ⟨hgroup _, by simpa using hne⟩
  · rintro ⟨rfl, hne⟩
    refine ⟨steps, _, ⟨rfl, fun hempty ↦ hne ?_⟩, rfl, hgroup _⟩
    rw [← hgroup, hempty, map_nil]

variable {draft : Draft}

theorem lesson?_eq_some_iff :
    corpus.lesson? signature polarity = some draft ↔ corpus.sets.members signature polarity ≠ [] ∧
        lessonIdentity signature polarity ∉ corpus.ruledAgainst ∧
          Draft.ofGroup corpus.ruleset (lessonIdentity signature polarity) signature
            (corpus.sets.members signature polarity) [] (.lesson (lessonStatement signature polarity
              (corpus.sets.members signature polarity).length)) = draft := by
  rw [lesson?]
  split
  · next hnone => exact iff_of_false (by simp) fun hdraft ↦ hnone.elim hdraft.1 hdraft.2.1
  · next hsome =>
    rw [Option.some.injEq]
    obtain ⟨hmembers, hruled⟩ := not_or.mp hsome
    exact ⟨fun hdraft ↦ ⟨hmembers, hruled, hdraft⟩, fun hdraft ↦ hdraft.2.2⟩

theorem mem_lessons : draft ∈ corpus.lessons ↔
    ∃ signature ∈ corpus.sets.signatures, ∃ polarity,
      corpus.lesson? signature polarity = some draft := by
  simp only [lessons, mem_flatMap, mem_filterMap]
  refine exists_congr fun signature ↦ and_congr_right fun _ ↦ exists_congr fun polarity ↦
    and_iff_right ?_
  cases polarity <;> simp

theorem ruled_of_dropped (hdropped : identity ∈ corpus.dropped digest) :
    identity ∈ corpus.ruledAgainst := by
  obtain ⟨spec, -, hmem⟩ := mem_flatMap.mp hdropped
  exact of_decide_eq_true (mem_filter.mp hmem).2

theorem pattern?_eq_some_iff :
    corpus.pattern? digest spec = some draft ↔
      patternIdentity spec.signature spec.approachHash ∉ corpus.ruledAgainst ∧
        Draft.ofGroup corpus.ruleset (patternIdentity spec.signature spec.approachHash)
          spec.signature spec.members [] (.pattern (sharedApproach spec.members)
            (patternIdentity spec.signature spec.approachHash ∈ corpus.contestedFlags digest)) =
          draft := by
  rw [pattern?, Option.ite_none_left_eq_some, or_iff_left_of_imp ruled_of_dropped,
    Option.some.injEq]

theorem mem_patterns : (spec, draft) ∈ corpus.patterns digest ↔
      spec ∈ corpus.specs digest .positive ∧ corpus.pattern? digest spec = some draft := by
  simp only [patterns, mem_filterMap, Option.map_eq_some_iff, Prod.mk.injEq]
  constructor
  · rintro ⟨other, hother, found, hfound, rfl, rfl⟩
    exact ⟨hother, hfound⟩
  · rintro ⟨hspec, hdraft⟩
    exact ⟨spec, hspec, draft, hdraft, rfl, rfl⟩

theorem antiPattern?_eq_some_iff :
    corpus.antiPattern? digest spec = some draft ↔
      antiIdentity spec.signature spec.approachHash ∉ corpus.ruledAgainst ∧
        Draft.ofGroup corpus.ruleset (antiIdentity spec.signature spec.approachHash)
          spec.signature spec.members
          ((corpus.alternatives digest spec).head?.toList.map fun target ↦ (.insteadOf, target))
          (.antiPattern (sharedApproach spec.members) (antiConsequence spec.members.length)
            (antiIdentity spec.signature spec.approachHash ∈ corpus.contestedFlags digest)) =
          draft := by
  rw [antiPattern?, Option.ite_none_left_eq_some, or_iff_left_of_imp ruled_of_dropped,
    Option.some.injEq]

theorem recipe?_eq_some_iff :
    corpus.recipe? digest signature steps members = some draft ↔
      corpus.ruleset.recipeMinEpisodes ≤ members.length ∧
        recipeIdentity digest signature steps ∉ corpus.ruledAgainst ∧
          Draft.ofGroup corpus.ruleset (recipeIdentity digest signature steps) signature
            (sortedBy Episode.identity members) [] (.recipe steps) = draft := by
  rw [recipe?, Option.ite_none_left_eq_some, not_or, Nat.not_lt, and_assoc, Option.some.injEq]

theorem mem_recipesOf :
    draft ∈ corpus.recipesOf digest signature ↔ ∃ steps members,
      (steps, members) ∈ corpus.stepGroups signature ∧
        corpus.recipe? digest signature steps members = some draft := by
  simp only [recipesOf, mem_filterMap, Prod.exists]

theorem mem_core : draft ∈ corpus.core digest ↔
    (∃ signature ∈ corpus.sets.signatures, ∃ polarity,
      corpus.lesson? signature polarity = some draft) ∨
    (∃ spec ∈ corpus.specs digest .positive, corpus.pattern? digest spec = some draft) ∨
    (∃ spec ∈ corpus.specs digest .negative, corpus.antiPattern? digest spec = some draft) ∨
    ∃ signature ∈ corpus.sets.signatures, ∃ steps members,
      (steps, members) ∈ corpus.stepGroups signature ∧
        corpus.recipe? digest signature steps members = some draft := by
  have hpatterns : draft ∈ (corpus.patterns digest).map Prod.snd ↔
      ∃ spec ∈ corpus.specs digest .positive, corpus.pattern? digest spec = some draft := by
    simp only [mem_map, Prod.exists, exists_eq_right, mem_patterns]
  simp only [core, mem_append, mem_lessons, hpatterns, antiPatterns, mem_filterMap,
    recipes, mem_flatMap, mem_recipesOf, or_assoc]

/-! ### Every draft is complete -/

/-- The draft of a group of episodes that share their facets. -/
theorem complete_ofGroup {ruleset : DerivationRuleset}
    {extra : List (RelationType × String)} {content : Content}
    (hidentity : identity ≠ "") (hmembers : members ≠ [])
    (hsignature : ∀ member ∈ members, member.signature = signature)
    (hlinked : ∀ relation ∈ extra, relation.1 = .insteadOf ∧ relation.2 ≠ "")
    (hformed : content.malformed? = none) :
    (Draft.ofGroup ruleset identity signature members extra content).Complete := by
  obtain ⟨member, hmember⟩ := exists_mem_of_ne_nil _ hmembers
  have hshared := hsignature member hmember
  refine ⟨hidentity, ?_, ?_, ?_, ?_, ?_, ?_, hlinked, hformed⟩
  · exact hshared ▸ member.signature_ne_nil
  · exact hshared ▸ member.notMem_signature
  · simpa [Draft.ofGroup] using hmembers
  · intro hempty
    obtain ⟨other, -, hother⟩ := mem_map.mp hempty
    exact other.envelope.named hother
  · exact ne_nil_of_mem (mem_ofList.mpr (mem_map_of_mem hmember))
  · intro hempty
    obtain ⟨other, -, hother⟩ := mem_map.mp (mem_ofList.mp hempty)
    exact other.envelope.origin.identifiable hother

theorem sharedApproach_ne_nil (hmembers : members ≠ []) :
    (sharedApproach members).items ≠ [] := by
  obtain ⟨member, rest, rfl⟩ := exists_cons_of_ne_nil hmembers
  exact member.approached

theorem members_ne_nil_of_le {threshold : Nat} (hpositive : 1 ≤ threshold)
    (hcount : threshold ≤ members.length) : members ≠ [] := by
  rintro rfl
  exact absurd (hpositive.trans hcount) (by simp)

theorem notMem_steps {elements : List Json}
    (hsteps : List.Forall₂ (fun element step ↦ (match element with
      | .str text => if text = "" then none else some text
      | _ => none) = some step) elements steps) : "" ∉ steps := by
  induction hsteps with
  | nil => exact not_mem_nil
  | cons hstep _ ih =>
    rw [mem_cons, not_or]
    refine ⟨?_, ih⟩
    split at hstep
    · split at hstep
      · cases hstep
      · next hne => exact fun hempty ↦ hne (Option.some.inj hstep ▸ hempty.symm)
    · cases hstep

theorem steps_formed
    (hsteps : episode.steps? = some steps) : (Content.recipe steps).malformed? = none := by
  unfold Episode.steps? at hsteps
  split at hsteps
  · split at hsteps
    · cases hsteps
    · next hne =>
      have hall := Reading.mapM_eq_some_iff.mp hsteps
      refine strTuple?_eq_none false (fun hempty ↦ hne ?_) (notMem_steps hall)
      rw [hempty] at hall
      exact forall₂_nil_right_iff.mp hall
  · cases hsteps

section Complete

variable (hcorpus : corpus.Gathered)
include hcorpus

theorem Gathered.complete_lesson
    (hdraft : corpus.lesson? signature polarity = some draft) : draft.Complete := by
  obtain ⟨hmembers, -, rfl⟩ := lesson?_eq_some_iff.mp hdraft
  refine complete_ofGroup (by simp [lessonIdentity]) hmembers (fun member hmember ↦ ?_) (by simp) ?_
  · exact (hcorpus.mem_members.mp hmember).2.1
  · simp [Content.malformed?, lessonStatement]

theorem Gathered.spec_members (hspec : spec ∈ corpus.specs digest polarity) :
    spec.members ≠ [] ∧ ∀ member ∈ spec.members, member.signature = spec.signature := by
  obtain ⟨-, hmembers, hcount⟩ := mem_specs.mp hspec
  refine ⟨members_ne_nil_of_le corpus.ruleset.patternPositive hcount, fun member hmember ↦ ?_⟩
  rw [hmembers] at hmember
  exact (hcorpus.mem_members.mp (mem_filter.mp hmember).1).2.1

theorem Gathered.complete_pattern (hspec : spec ∈ corpus.specs digest .positive)
    (hdraft : corpus.pattern? digest spec = some draft) : draft.Complete := by
  obtain ⟨hmembers, hsignature⟩ := hcorpus.spec_members hspec
  obtain ⟨-, rfl⟩ := pattern?_eq_some_iff.mp hdraft
  refine complete_ofGroup (by simp [patternIdentity]) hmembers hsignature (by simp) ?_
  exact if_neg (sharedApproach_ne_nil hmembers)

theorem Gathered.complete_recipe (hgroup : (steps, members) ∈ corpus.stepGroups signature)
    (hdraft : corpus.recipe? digest signature steps members = some draft) : draft.Complete := by
  obtain ⟨hmembers, hne⟩ := mem_stepGroups.mp hgroup
  obtain ⟨-, -, rfl⟩ := recipe?_eq_some_iff.mp hdraft
  have hmember : ∀ member ∈ members, member ∈ corpus.sets.members signature .positive ∧
      member.steps? = some steps := by
    intro member hmember
    rw [hmembers, mem_filter, decide_eq_true_iff] at hmember
    exact hmember
  refine complete_ofGroup (by simp [recipeIdentity]) (fun hempty ↦ hne ?_) (fun member hsorted ↦ ?_)
    (by simp) ?_
  · exact sortedBy_eq_nil.mp hempty
  · exact (hcorpus.mem_members.mp (hmember member (mem_sortedBy.mp hsorted)).1).2.1
  · obtain ⟨member, hmem⟩ := exists_mem_of_ne_nil _ hne
    exact steps_formed (hmember member hmem).2

omit hcorpus in
theorem antiConsequence_ne_empty (count : Nat) : antiConsequence count ≠ "" :=
  append_ne_empty (by decide)

theorem Gathered.alternatives_named (spec : Spec) : "" ∉ corpus.alternatives digest spec := by
  have hfound : "" ∉ sortedBy id (((corpus.patterns digest).filter fun pattern ↦
        pattern.1.signature = spec.signature ∧ pattern.1.approachHash ≠ spec.approachHash).map
          fun pattern ↦ pattern.2.identity) ++
      sortedBy id ((corpus.recipesOf digest spec.signature).map Draft.identity) := by
    rw [mem_append, mem_sortedBy, mem_sortedBy, mem_map, mem_map]
    rintro (⟨⟨found, draft⟩, hmem, hname⟩ | ⟨draft, hmem, hname⟩)
    · obtain ⟨hspec, hdraft⟩ := mem_patterns.mp (mem_filter.mp hmem).1
      exact (hcorpus.complete_pattern hspec hdraft).named hname
    · obtain ⟨steps, members, hgroup, hdraft⟩ := mem_recipesOf.mp hmem
      exact (hcorpus.complete_recipe hgroup hdraft).named hname
  unfold alternatives
  dsimp only
  split
  · split
    · simp
    · next lesson hlesson =>
      split
      · intro hempty
        exact (hcorpus.complete_lesson hlesson).named (mem_singleton.mp hempty).symm
      · simp
  · exact hfound

theorem Gathered.complete_antiPattern (hspec : spec ∈ corpus.specs digest .negative)
    (hdraft : corpus.antiPattern? digest spec = some draft) : draft.Complete := by
  obtain ⟨hmembers, hsignature⟩ := hcorpus.spec_members hspec
  obtain ⟨-, rfl⟩ := antiPattern?_eq_some_iff.mp hdraft
  refine complete_ofGroup (by simp [antiIdentity]) hmembers hsignature ?_ ?_
  · intro relation hrelation
    obtain ⟨target, htarget, rfl⟩ := mem_map.mp hrelation
    refine ⟨rfl, fun hempty ↦ ?_⟩
    have hmem := mem_of_mem_head? (Option.mem_toList.mp htarget)
    exact @Gathered.alternatives_named digest corpus hcorpus spec (hempty ▸ hmem)
  · rw [Content.malformed?, if_neg (antiConsequence_ne_empty _),
      if_neg (sharedApproach_ne_nil hmembers)]

theorem Gathered.complete_core (hdraft : draft ∈ corpus.core digest) :
    draft.Complete := by
  rcases mem_core.mp hdraft with ⟨signature, -, polarity, hlesson⟩ | ⟨spec, hspec, hpattern⟩ |
    ⟨spec, hspec, hanti⟩ | ⟨signature, -, steps, members, hgroup, hrecipe⟩
  · exact hcorpus.complete_lesson hlesson
  · exact hcorpus.complete_pattern hspec hpattern
  · exact hcorpus.complete_antiPattern hspec hanti
  · exact hcorpus.complete_recipe hgroup hrecipe

variable {project : String}

omit hcorpus in
theorem mem_episodesOf :
    episode ∈ corpus.episodesOf project ↔ episode ∈ corpus.episodes ∧ episode.project =
      project := by
  rw [episodesOf, getD_groupBy, mem_filter, decide_eq_true_iff]

omit hcorpus in
theorem mem_projects :
    project ∈ corpus.projects ↔ ∃ episode ∈ corpus.episodes, episode.project = project := by
  rw [projects, mem_sortedBy, mem_keys_groupBy]

omit hcorpus in
theorem notMem_projectSignature (project : String) :
    "" ∉ (corpus.projectSignature project).elements := by
  intro hempty
  rcases mem_append.mp (mem_ofList.mp hempty) with hepisode | hdecision
  · obtain ⟨episode, -, hfacet⟩ := mem_flatMap.mp hepisode
    exact episode.envelope.termed hfacet
  · obtain ⟨decision, -, hfacet⟩ := mem_flatMap.mp hdecision
    exact decision.envelope.termed hfacet

omit hcorpus in
theorem projectSignature_ne_nil (hproject : project ∈ corpus.projects) :
    (corpus.projectSignature project).elements ≠ [] := by
  obtain ⟨episode, hepisode, hsame⟩ := mem_projects.mp hproject
  obtain ⟨facet, hfacet⟩ := exists_mem_of_ne_nil _ episode.envelope.faceted
  refine ne_nil_of_mem (a := facet) (mem_ofList.mpr (mem_append_left _ ?_))
  exact mem_flatMap.mpr ⟨episode, mem_episodesOf.mpr ⟨hepisode, hsame⟩, hfacet⟩

omit hcorpus in
/-- What a dossier says of another project can be built. -/
theorem exists_relationships (project : String) :
    ∃ relationships, ((corpus.relatedProjects project).mapM fun other ↦
      buildProjectRelationship other (corpus.sharedFacets project other)) = .ok relationships := by
  refine exists_mapM_eq_ok fun other hother ↦ ?_
  obtain ⟨hproject, hrelated⟩ := mem_filter.mp hother
  obtain ⟨-, hshared⟩ := of_decide_eq_true hrelated
  obtain ⟨episode, -, rfl⟩ := mem_projects.mp hproject
  have htermed : "" ∉ corpus.sharedFacets project episode.project := fun hempty ↦
    notMem_projectSignature project (mem_filter.mp hempty).1
  rw [buildProjectRelationship, dif_neg (show episode.project ≠ "" from
    episode.envelope.origin.identifiable), dif_neg hshared, dif_neg htermed]
  exact ⟨_, rfl⟩

theorem Gathered.complete_dossier (hproject : project ∈ corpus.projects) :
    ∃ draft, corpus.dossier project = .ok draft ∧ draft.Complete := by
  obtain ⟨relationships, hrelationships⟩ := @exists_relationships corpus project
  rw [dossier, hrelationships]
  refine ⟨_, rfl, ?_⟩
  obtain ⟨episode, hepisode, hsame⟩ := mem_projects.mp hproject
  have hnamed : project ≠ "" := hsame ▸ episode.envelope.origin.identifiable
  have hrefs : "" ∉ (sortedBy Episode.identity (corpus.episodesOf project)).map
      Episode.identity := by
    intro hempty
    obtain ⟨other, -, hother⟩ := mem_map.mp hempty
    exact other.envelope.named hother
  refine ⟨by simp, projectSignature_ne_nil hproject, notMem_projectSignature project, ?_, hrefs,
    cons_ne_nil _ _, by simpa using hnamed.symm, by simp, ?_⟩
  · refine ne_nil_of_mem (a := episode.identity) (mem_map_of_mem ?_)
    exact mem_sortedBy.mpr (mem_episodesOf.mpr ⟨hepisode, hsame⟩)
  · have hdecisions : "" ∉ sortedBy id ((corpus.decisionsOf project).map fun decision ↦
        decision.envelope.identity) := by
      rw [mem_sortedBy]
      intro hempty
      obtain ⟨decision, -, hdecision⟩ := mem_map.mp hempty
      exact decision.envelope.named hdecision
    have hlessons : "" ∉ corpus.lessonRefs project := by
      rw [lessonRefs, mem_sortedBy]
      intro hempty
      obtain ⟨draft, hdraft, hidentity⟩ := mem_map.mp hempty
      obtain ⟨_, -, _, hlesson⟩ := mem_lessons.mp (mem_filter.mp hdraft).1
      exact (hcorpus.complete_lesson hlesson).named hidentity
    rw [Content.malformed?, if_neg hnamed, strTuple?_allowEmpty hdecisions,
      strTuple?_allowEmpty hrefs, strTuple?_allowEmpty hlessons]
    rfl

theorem Gathered.complete_dossiers :
    ∃ drafts, corpus.dossiers = .ok drafts ∧ ∀ draft ∈ drafts, draft.Complete := by
  have hbuilt : ∀ project ∈ corpus.projects.filter fun project ↦
      "dossier:" ++ project ∉ corpus.ruledAgainst, ∃ draft, corpus.dossier project = .ok draft := by
    intro project hproject
    obtain ⟨draft, hdraft, -⟩ := hcorpus.complete_dossier (mem_filter.mp hproject).1
    exact ⟨draft, hdraft⟩
  obtain ⟨drafts, hdrafts⟩ := exists_mapM_eq_ok hbuilt
  refine ⟨drafts, hdrafts, fun draft hdraft ↦ ?_⟩
  obtain ⟨project, hproject, hmade⟩ := exists_of_mem_mapM hdrafts hdraft
  obtain ⟨other, hother, hcomplete⟩ := hcorpus.complete_dossier (mem_filter.mp hproject).1
  cases hmade.symm.trans hother
  exact hcomplete

theorem Gathered.evidence_core (hdraft : draft ∈ corpus.core digest) :
    ∀ cited ∈ draft.evidence, ∃ episode ∈ corpus.episodes, episode.identity = cited := by
  have hgroup : ∀ {signature polarity} {members : List Episode} {cited : String},
      (∀ member ∈ members, member ∈ corpus.sets.members signature polarity) →
        cited ∈ members.map Episode.identity →
          ∃ episode ∈ corpus.episodes, episode.identity = cited := by
    intro signature polarity members cited hmembers hcited
    obtain ⟨member, hmember, rfl⟩ := mem_map.mp hcited
    exact ⟨member, (hcorpus.mem_members.mp (hmembers member hmember)).1, rfl⟩
  have hspecs : ∀ {polarity} {spec : Spec}, spec ∈ corpus.specs digest polarity →
      ∀ member ∈ spec.members, member ∈ corpus.sets.members spec.signature polarity := by
    intro polarity spec hspec member hmember
    rw [(mem_specs.mp hspec).2.1] at hmember
    exact (mem_filter.mp hmember).1
  intro cited hcited
  rcases mem_core.mp hdraft with ⟨signature, -, polarity, hlesson⟩ | ⟨spec, hspec, hpattern⟩ |
    ⟨spec, hspec, hanti⟩ | ⟨signature, -, steps, members, hmembers, hrecipe⟩
  · obtain ⟨-, -, rfl⟩ := lesson?_eq_some_iff.mp hlesson
    exact hgroup (fun _ hmember ↦ hmember) hcited
  · obtain ⟨-, rfl⟩ := pattern?_eq_some_iff.mp hpattern
    exact hgroup (hspecs hspec) hcited
  · obtain ⟨-, rfl⟩ := antiPattern?_eq_some_iff.mp hanti
    exact hgroup (hspecs hspec) hcited
  · obtain ⟨-, -, rfl⟩ := recipe?_eq_some_iff.mp hrecipe
    refine @hgroup signature .positive _ cited (fun member hmember ↦ ?_) hcited
    rw [mem_sortedBy, (mem_stepGroups.mp hmembers).1] at hmember
    exact (mem_filter.mp hmember).1

variable {scope : List String}

omit hcorpus in
theorem mem_benchmarksWithin
    (hepisode : episode ∈ corpus.benchmarksWithin scope) : episode ∈ corpus.episodes :=
  mem_sortedBy.mp (mem_filter.mp hepisode).1

theorem Gathered.mem_packEvidence {cited : String}
    (hcited : cited ∈ corpus.packEvidence digest scope) :
    ∃ episode ∈ corpus.episodes, episode.identity = cited := by
  rcases mem_append.mp (mem_ofList.mp hcited) with hcore | hbenchmark
  · obtain ⟨draft, hdraft, hmem⟩ := mem_flatMap.mp hcore
    exact hcorpus.evidence_core (mem_filter.mp hdraft).1 cited hmem
  · obtain ⟨episode, hepisode, rfl⟩ := mem_map.mp hbenchmark
    exact ⟨episode, mem_benchmarksWithin hepisode, rfl⟩

theorem Gathered.exists_packEvidence (hmembers : corpus.packMembers digest scope ≠ []) :
    ∃ cited, cited ∈ corpus.packEvidence digest scope := by
  obtain ⟨member, hmember⟩ := exists_mem_of_ne_nil _ hmembers
  rcases mem_append.mp hmember with hcore | hbenchmark
  · obtain ⟨draft, hdraft, -⟩ := mem_map.mp hcore
    obtain ⟨cited, hcited⟩ := exists_mem_of_ne_nil _
      (hcorpus.complete_core (mem_filter.mp hdraft).1).cited
    exact ⟨cited, mem_ofList.mpr (mem_append_left _ (mem_flatMap.mpr ⟨draft, hdraft, hcited⟩))⟩
  · exact ⟨member, mem_ofList.mpr (mem_append_right _ hbenchmark)⟩

theorem Gathered.complete_pack {name : String}
    (hscope : (name, scope) ∈ corpus.ruleset.packScopes.items)
    (hdraft : corpus.pack? digest name scope = some draft) : draft.Complete := by
  unfold pack? at hdraft
  split at hdraft
  · cases hdraft
  next hsome =>
  cases hdraft
  obtain ⟨-, hmembers⟩ := not_or.mp hsome
  obtain ⟨cited, hcited⟩ := hcorpus.exists_packEvidence hmembers
  obtain ⟨hdeclared, htermed⟩ := corpus.ruleset.scopesDeclared scope (mem_map_of_mem hscope)
  obtain ⟨episode, hepisode, hidentity⟩ := hcorpus.mem_packEvidence hcited
  refine ⟨by simp, ?_, fun hempty ↦ htermed (mem_ofList.mp hempty),
    ne_nil_of_mem hcited, ?_, ?_, ?_, by simp, ?_⟩
  · obtain ⟨facet, hfacet⟩ := exists_mem_of_ne_nil _ hdeclared
    exact ne_nil_of_mem (mem_ofList.mpr hfacet)
  · intro hempty
    obtain ⟨other, -, hother⟩ := hcorpus.mem_packEvidence hempty
    exact other.envelope.named hother
  · have hmem : episode ∈ corpus.packEpisodes digest scope :=
      mem_filter.mpr ⟨hepisode, decide_eq_true (hidentity ▸ hcited)⟩
    exact ne_nil_of_mem (mem_ofList.mpr (mem_map_of_mem hmem))
  · intro hempty
    obtain ⟨other, -, hother⟩ := mem_map.mp (mem_ofList.mp hempty)
    exact other.envelope.origin.identifiable hother
  · refine strTuple?_eq_none false (fun hempty ↦ hmembers (sortedBy_eq_nil.mp hempty)) ?_
    rw [mem_sortedBy]
    intro hempty
    rcases mem_append.mp hempty with hcore | hbenchmark
    · obtain ⟨draft, hdraft, hname⟩ := mem_map.mp hcore
      exact (hcorpus.complete_core (mem_filter.mp hdraft).1).named hname
    · obtain ⟨other, -, hother⟩ := mem_map.mp hbenchmark
      exact other.envelope.named hother

omit hcorpus in
theorem dossier_eq_ok (hdraft : corpus.dossier project = .ok draft) :
    draft.evidence = (sortedBy Episode.identity (corpus.episodesOf project)).map Episode.identity ∧
      draft.maturity = grade corpus.ruleset (sortedBy Episode.identity (corpus.episodesOf project))
        ∧ ∃ relationships, draft.content = .projectDossier project
          (sortedBy id ((corpus.decisionsOf project).map fun decision ↦ decision.envelope.identity))
          draft.evidence (corpus.lessonRefs project) relationships := by
  obtain ⟨relationships, -, hmade⟩ := bind_eq_ok_iff.mp hdraft
  cases hmade
  exact ⟨rfl, rfl, relationships, rfl⟩

theorem Gathered.evidence_mem {dossiers : List Draft} (hdossiers : corpus.dossiers = .ok dossiers)
    (hdraft : draft ∈ corpus.core digest ++ dossiers ++ corpus.packs digest)
    {cited : String} (hcited : cited ∈ draft.evidence) :
    ∃ episode ∈ corpus.episodes, episode.identity = cited := by
  rcases mem_append.mp hdraft with hrest | hpack
  · rcases mem_append.mp hrest with hcore | hdossier
    · exact hcorpus.evidence_core hcore cited hcited
    · obtain ⟨project, -, hmade⟩ := exists_of_mem_mapM hdossiers hdossier
      rw [(dossier_eq_ok hmade).1] at hcited
      obtain ⟨episode, hepisode, rfl⟩ := mem_map.mp hcited
      exact ⟨episode, (mem_episodesOf.mp (mem_sortedBy.mp hepisode)).1, rfl⟩
  · obtain ⟨⟨name, scope⟩, -, hmade⟩ := mem_filterMap.mp hpack
    unfold pack? at hmade
    split at hmade <;> cases hmade
    exact hcorpus.mem_packEvidence hcited

theorem Gathered.complete_packs : ∀ draft ∈ corpus.packs digest, draft.Complete := by
  intro draft hdraft
  obtain ⟨⟨name, scope⟩, hscope, hmade⟩ := mem_filterMap.mp hdraft
  exact hcorpus.complete_pack (mem_sortedBy.mp hscope) hmade

end Complete

end Corpus

/-! ### Compiling a ledger -/

variable {overlay : Overlay} {ledger : Ledger}

theorem mem_freshEpisodes :
    episode ∈ freshEpisodes ledger overlay ↔
      .episode episode ∈ ledger.entries ∧ episode.identity ∉ overlay.excludedIds := by
  rw [freshEpisodes, mem_filterMap]
  constructor
  · rintro ⟨record, hrecord, hfresh⟩
    cases record with
    | decision decision => cases hfresh
    | episode other =>
      obtain ⟨hkept, ⟨⟩⟩ := Option.ite_none_left_eq_some.mp hfresh
      exact ⟨hrecord, hkept⟩
  · rintro ⟨hrecord, hkept⟩
    exact ⟨_, hrecord, if_neg hkept⟩

theorem mem_freshDecisions {decision : Decision} :
    decision ∈ freshDecisions ledger overlay ↔ .decision decision ∈ ledger.entries ∧
      decision.envelope.identity ∉ overlay.excludedIds := by
  rw [freshDecisions, mem_filterMap]
  constructor
  · rintro ⟨record, hrecord, hfresh⟩
    cases record with
    | episode episode => cases hfresh
    | decision other =>
      obtain ⟨hkept, ⟨⟩⟩ := Option.ite_none_left_eq_some.mp hfresh
      exact ⟨hrecord, hkept⟩
  · rintro ⟨hrecord, hkept⟩
    exact ⟨_, hrecord, if_neg hkept⟩

theorem nodup_freshEpisodes (ledger : Ledger) (overlay : Overlay) :
    ((freshEpisodes ledger overlay).map Episode.identity).Nodup := by
  refine List.Nodup.sublist ?_ ledger.unique
  unfold freshEpisodes
  induction ledger.entries with
  | nil => exact List.Sublist.slnil
  | cons record rest ih =>
    rw [filterMap_cons, map_cons]
    cases record with
    | decision decision => exact ih.cons _
    | episode episode =>
      dsimp only
      split
      · next hdropped => exact ih.cons _
      · next found hfound =>
        obtain ⟨-, ⟨⟩⟩ := Option.ite_none_left_eq_some.mp hfound
        exact ih.cons_cons _

theorem gather_eq_ok {ruleset : DerivationRuleset}
    {corpus : Corpus} (hgather : gather ledger overlay ruleset = .ok corpus) :
    corpus.Gathered ∧ corpus.ruleset = ruleset ∧ corpus.ruledAgainst = overlay.ruledAgainst ∧
      corpus.episodes = freshEpisodes ledger overlay ∧
        corpus.decisions = freshDecisions ledger overlay := by
  obtain ⟨sets, hsets, rfl⟩ := map_eq_ok_iff.mp hgather
  exact ⟨⟨hsets, nodup_freshEpisodes ledger overlay⟩, rfl, rfl, rfl, rfl⟩

theorem exists_gather_iff {ledger : Ledger} {overlay : Overlay} {ruleset : DerivationRuleset} :
    (∃ corpus, gather ledger overlay ruleset = .ok corpus) ↔
      ∀ episode ∈ freshEpisodes ledger overlay, episode.polarity? ≠ none := by
  constructor
  · rintro ⟨corpus, hgather⟩ episode hepisode
    obtain ⟨sets, hsets, -⟩ := map_eq_ok_iff.mp hgather
    obtain ⟨judged, hjudged, -⟩ := map_eq_ok_iff.mp hsets
    obtain ⟨result, -, hresult⟩ := exists_mem_of_mapM hjudged hepisode
    rw [(judge_eq_ok_iff.mp hresult).1]
    simp
  · intro hknown
    have hjudged : ∀ episode ∈ freshEpisodes ledger overlay, ∃ result, judge episode =
        .ok result := by
      intro episode hepisode
      obtain ⟨polarity, hpolarity⟩ := Option.ne_none_iff_exists'.mp (hknown episode hepisode)
      exact ⟨(polarity, episode), judge_eq_ok_iff.mpr ⟨hpolarity, rfl⟩⟩
    obtain ⟨judged, hall⟩ := exists_mapM_eq_ok hjudged
    rw [gather, evidenceSets, hall]
    exact ⟨_, rfl⟩

/-- Once a corpus is gathered, nothing stops the compiler. -/
theorem exists_regenerate {digest : String → String} {ledger : Ledger} {overlay : Overlay}
    {ruleset : DerivationRuleset} {corpus : Corpus}
    (hgather : gather ledger overlay ruleset = .ok corpus) :
    ∃ dossiers artifacts, corpus.dossiers = .ok dossiers ∧
      (corpus.core digest ++ dossiers ++ corpus.packs digest).mapM
        (Draft.build (derivationState ledger overlay ruleset)) = .ok artifacts ∧
      (∀ draft ∈ corpus.core digest ++ dossiers ++ corpus.packs digest, draft.Complete) ∧
      regenerate digest ledger overlay ruleset =
        .ok ⟨derivationState ledger overlay ruleset, sortedBy Artifact.identity artifacts⟩ := by
  have hcorpus := (gather_eq_ok hgather).1
  obtain ⟨dossiers, hdossiers, hdossier⟩ := hcorpus.complete_dossiers
  have hcomplete : ∀ draft ∈ corpus.core digest ++ dossiers ++ corpus.packs digest,
      draft.Complete := by
    intro draft hdraft
    rcases mem_append.mp hdraft with hrest | hpack
    · rcases mem_append.mp hrest with hcore | hmem
      · exact hcorpus.complete_core hcore
      · exact hdossier draft hmem
    · exact hcorpus.complete_packs draft hpack
  obtain ⟨artifacts, hartifacts⟩ := exists_mapM_eq_ok fun draft hdraft ↦ by
    obtain ⟨artifact, hartifact, -⟩ :=
      (hcomplete draft hdraft).build (derivationState ledger overlay ruleset)
    exact ⟨artifact, hartifact⟩
  refine ⟨dossiers, artifacts, hdossiers, hartifacts, hcomplete, ?_⟩
  simp only [regenerate, hgather, hdossiers, hartifacts, bind, Except.bind, pure, Except.pure]

theorem regenerate_eq_ok_iff {digest : String → String} {ledger : Ledger} {overlay : Overlay}
    {ruleset : DerivationRuleset} :
    (∃ layer, regenerate digest ledger overlay ruleset = .ok layer) ↔
      ∀ episode ∈ freshEpisodes ledger overlay, episode.polarity? ≠ none := by
  rw [← @exists_gather_iff ledger overlay ruleset]
  constructor
  · rintro ⟨layer, hlayer⟩
    obtain ⟨corpus, hgather, -⟩ := bind_eq_ok_iff.mp hlayer
    exact ⟨corpus, hgather⟩
  · rintro ⟨corpus, hgather⟩
    obtain ⟨_, _, -, -, -, hlayer⟩ := @exists_regenerate digest _ _ _ _ hgather
    exact ⟨_, hlayer⟩

structure Layer.Compiled (layer : Layer) (digest : String → String) (corpus : Corpus)
    (dossiers : List Draft) : Prop where
  listed : corpus.dossiers = .ok dossiers
  described : ∀ artifact ∈ layer.artifacts, ∃ draft ∈ corpus.core digest ++ dossiers ++
    corpus.packs digest, draft.Complete ∧ draft.Describes layer.derivationState artifact
  built : ∀ draft ∈ corpus.core digest ++ dossiers ++ corpus.packs digest,
    ∃ artifact ∈ layer.artifacts, draft.Describes layer.derivationState artifact

theorem compiled_of_regenerate {digest : String → String}
    {ruleset : DerivationRuleset} {layer : Layer}
    (hlayer : regenerate digest ledger overlay ruleset = .ok layer) :
    layer.derivationState = derivationState ledger overlay ruleset ∧
      ∃ corpus dossiers, gather ledger overlay ruleset = .ok corpus ∧
        layer.Compiled digest corpus dossiers := by
  obtain ⟨corpus, hgather, -⟩ := bind_eq_ok_iff.mp hlayer
  obtain ⟨dossiers, artifacts, hdossiers, hartifacts, hcomplete, hmade⟩ :=
    @exists_regenerate digest _ _ _ _ hgather
  cases hmade.symm.trans hlayer
  refine ⟨rfl, corpus, dossiers, hgather, hdossiers, fun artifact hartifact ↦ ?_,
    fun draft hdraft ↦ ?_⟩
  · obtain ⟨draft, hdraft, hbuilt⟩ :=
      exists_of_mem_mapM hartifacts (mem_sortedBy.mp hartifact)
    obtain ⟨made, hmade, hdescribes⟩ := (hcomplete draft hdraft).build _
    cases hbuilt.symm.trans hmade
    exact ⟨draft, hdraft, hcomplete draft hdraft, hdescribes⟩
  · obtain ⟨artifact, hartifact, hbuilt⟩ := exists_mem_of_mapM hartifacts hdraft
    obtain ⟨made, hmade, hdescribes⟩ := (hcomplete draft hdraft).build _
    cases hbuilt.symm.trans hmade
    exact ⟨artifact, mem_sortedBy.mpr hartifact, hdescribes⟩

theorem Episode.polarity?_ne_none_iff (episode : Episode) : episode.polarity? ≠ none ↔
    episode.outcome.get? "verdict" = some (.str "passed") ∨
      episode.outcome.get? "verdict" = some (.str "failed") := by
  unfold Episode.polarity?
  split
  · next verdict hverdict =>
    split_ifs <;> simp_all
  · next hother =>
    refine iff_of_false (by simp) ?_
    rintro (hverdict | hverdict)
    · exact hother _ hverdict
    · exact hother _ hverdict

/-- Of the ledger that any sequence of calls leaves behind a gate, under every overlay and ruleset,
a layer is compiled if and only if every episode that no ruling excludes has passed or failed. -/
theorem Desk.regenerates_iff (digest : String → String) (vocabulary : FacetVocabulary)
    (storage : Storage) (calls : List GateCall) (overlay : Overlay) (ruleset : DerivationRuleset) :
    (∃ layer, regenerate digest (run vocabulary storage calls).gate.ledger overlay ruleset =
      .ok layer) ↔
    ∀ episode, .episode episode ∈ (run vocabulary storage calls).gate.ledger.entries →
      episode.identity ∉ overlay.excludedIds →
        episode.outcome.get? "verdict" = some (.str "passed") ∨
          episode.outcome.get? "verdict" = some (.str "failed") := by
  rw [regenerate_eq_ok_iff]
  simp only [mem_freshEpisodes, and_imp, Episode.polarity?_ne_none_iff]

/-- An episode that has neither passed nor failed. -/
def undecidedEpisode : Record :=
  .episode (sampleEpisode (sampleEnvelope "episode:e1" "trace:t1" "p1" "ros2" {})
    (Mapping.single "a" (.int 1)) (Mapping.single "verdict" (.str "inconclusive"))
    approach_ne_nil (List.cons_ne_nil _ _))

/-- The gate admits it, and no layer can be compiled any more, whatever the digest. -/
theorem Desk.not_regenerates_undecided :
    ¬∃ digest, ∀ vocabulary storage calls overlay ruleset, ∃ layer,
      regenerate digest (run vocabulary storage calls).gate.ledger overlay ruleset = .ok layer := by
  rintro ⟨digest, hregenerates⟩
  obtain ⟨layer, hlayer⟩ := hregenerates ⟨1, ["ros2"]⟩ committing [.offer undecidedEpisode] .empty
    (defaultRuleset 1 (Nat.le_refl 1))
  have hrefused : regenerate digest
      (run ⟨1, ["ros2"]⟩ committing [.offer undecidedEpisode]).gate.ledger .empty
        (defaultRuleset 1 (Nat.le_refl 1)) =
      .error (.unknownVerdict "episode:e1" (some (.str "inconclusive"))) := rfl
  cases hrefused.symm.trans hlayer

end AbsoluteZero.Lie

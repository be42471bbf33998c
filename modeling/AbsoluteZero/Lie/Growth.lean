import AbsoluteZero.Lie.Fidelity

/-!
# More evidence

A corpus that grows keeps what it knew: the members of every group are still there, so that its
threshold is still met and its grade is no lower. `Corpus.Grows` carries this to every draft, and
`regenerate_grows` to the layers of two ledgers of which one continues the other.
-/

namespace AbsoluteZero.Lie

open Foundations Checked SortedSet List

/-- The grades in their order. -/
def Maturity.rank : Maturity → Nat
  | provisional => 0
  | corroborated => 1
  | established => 2

/-- More members give no lower grade. -/
theorem rank_grade_le (ruleset : DerivationRuleset) {members others : List Episode}
    (hnodup : members.Nodup) (hsub : members ⊆ others) :
    (grade ruleset members).rank ≤ (grade ruleset others).rank := by
  have hprojects : (SortedSet.ofList (members.map Episode.project)).elements.length ≤
      (SortedSet.ofList (others.map Episode.project)).elements.length := by
    refine Nodup.length_le_of_subset ((ofList _).sorted.imp ne_of_lt) fun project hproject ↦ ?_
    exact mem_ofList.mpr (map_subset _ hsub (mem_ofList.mp hproject))
  have hcount := hnodup.length_le_of_subset hsub
  unfold grade
  split_ifs <;> simp only [Maturity.rank] <;> omega

/-- The same identity, with all the evidence of the earlier draft and no lower grade. -/
structure Draft.Extends (later earlier : Draft) : Prop where
  identity : later.identity = earlier.identity
  evidence : earlier.evidence ⊆ later.evidence
  maturity : earlier.maturity.rank ≤ later.maturity.rank

namespace Corpus

variable {digest : String → String} {smaller larger : Corpus}

/-- One ruleset and the same rulings, and no episode is lost. -/
structure Grows (smaller larger : Corpus) : Prop where
  earlier : smaller.Gathered
  later : larger.Gathered
  ruleset : larger.ruleset = smaller.ruleset
  ruled : larger.ruledAgainst = smaller.ruledAgainst
  episodes : smaller.episodes ⊆ larger.episodes

theorem Gathered.nodup_episodes {corpus : Corpus} (hcorpus : corpus.Gathered) :
    corpus.episodes.Nodup := hcorpus.unique.of_map

theorem Gathered.nodup_members {corpus : Corpus} (hcorpus : corpus.Gathered) (signature : Signature)
    (polarity : Polarity) : (corpus.sets.members signature polarity).Nodup := by
  rw [hcorpus.members_eq]
  exact (perm_sortedBy _ _).nodup_iff.mpr (hcorpus.nodup_episodes.filter _)

variable (hgrows : smaller.Grows larger)

include hgrows

namespace Grows

theorem ofGroup {identity : String} {facets : List String} {members others : List Episode}
    {extra extra' : List (RelationType × String)} {content content' : Content}
    (hnodup : members.Nodup) (hsub : members ⊆ others) :
    (Draft.ofGroup larger.ruleset identity facets others extra' content').Extends
      (.ofGroup smaller.ruleset identity facets members extra content) :=
  ⟨rfl, map_subset _ hsub, hgrows.ruleset ▸ rank_grade_le _ hnodup hsub⟩

theorem members (signature : Signature) (polarity : Polarity) :
    smaller.sets.members signature polarity ⊆ larger.sets.members signature polarity :=
  fun _ hmember ↦ by
    obtain ⟨hepisode, hrest⟩ := hgrows.earlier.mem_members.mp hmember
    exact hgrows.later.mem_members.mpr ⟨hgrows.episodes hepisode, hrest⟩

theorem signatures : smaller.sets.signatures ⊆ larger.sets.signatures := fun _ hsignature ↦ by
  obtain ⟨episode, hepisode, hsame⟩ := hgrows.earlier.mem_signatures.mp hsignature
  exact hgrows.later.mem_signatures.mpr ⟨episode, hgrows.episodes hepisode, hsame⟩

/-- A group that meets its threshold still does, with its members and perhaps more. -/
theorem exists_spec {polarity : Polarity} {spec : Spec}
    (hspec : spec ∈ smaller.specs digest polarity) :
    spec.members.Nodup ∧ ∃ members, spec.members ⊆ members ∧
      ⟨spec.signature, spec.approachHash, members⟩ ∈ larger.specs digest polarity := by
  obtain ⟨hsignature, hmembers, hcount⟩ := mem_specs.mp hspec
  have hnodup : spec.members.Nodup :=
    hmembers ▸ (hgrows.earlier.nodup_members spec.signature polarity).filter _
  have hsub : spec.members ⊆ (larger.sets.members spec.signature polarity).filter fun episode ↦
      approachHash digest episode = spec.approachHash :=
    hmembers ▸ filter_subset _ (hgrows.members spec.signature polarity)
  exact ⟨hnodup, _, hsub, mem_specs.mpr ⟨hgrows.signatures hsignature, rfl,
    hgrows.ruleset ▸ hcount.trans (hnodup.length_le_of_subset hsub)⟩⟩

variable {draft : Draft}

/-- Every draft about groups is extended by one of the larger corpus, of the same scope. -/
theorem core (hdraft : draft ∈ smaller.core digest) :
    ∃ other ∈ larger.core digest, other.Extends draft ∧ other.facets = draft.facets := by
  rcases mem_core.mp hdraft with ⟨signature, hsignature, polarity, hlesson⟩ |
    ⟨spec, hspec, hpattern⟩ | ⟨spec, hspec, hanti⟩ |
    ⟨signature, hsignature, steps, members, hmembers, hrecipe⟩
  · obtain ⟨hne, hruled, rfl⟩ := lesson?_eq_some_iff.mp hlesson
    have hsub := hgrows.members signature polarity
    exact ⟨_, mem_core.mpr (.inl ⟨signature, hgrows.signatures hsignature, polarity,
      lesson?_eq_some_iff.mpr ⟨fun hempty ↦ hne (subset_nil.mp (hempty ▸ hsub)),
        hgrows.ruled ▸ hruled, rfl⟩⟩), hgrows.ofGroup (hgrows.earlier.nodup_members _ _) hsub, rfl⟩
  · obtain ⟨hruled, rfl⟩ := pattern?_eq_some_iff.mp hpattern
    obtain ⟨hnodup, members, hsub, hlarger⟩ := hgrows.exists_spec hspec
    exact ⟨_, mem_core.mpr (.inr (.inl ⟨_, hlarger, pattern?_eq_some_iff.mpr
      ⟨hgrows.ruled ▸ hruled, rfl⟩⟩)), hgrows.ofGroup hnodup hsub, rfl⟩
  · obtain ⟨hruled, rfl⟩ := antiPattern?_eq_some_iff.mp hanti
    obtain ⟨hnodup, members, hsub, hlarger⟩ := hgrows.exists_spec hspec
    exact ⟨_, mem_core.mpr (.inr (.inr (.inl ⟨_, hlarger, antiPattern?_eq_some_iff.mpr
      ⟨hgrows.ruled ▸ hruled, rfl⟩⟩))), hgrows.ofGroup hnodup hsub, rfl⟩
  · obtain ⟨hcount, hruled, rfl⟩ := recipe?_eq_some_iff.mp hrecipe
    obtain ⟨rfl, hne⟩ := mem_stepGroups.mp hmembers
    have hnodup := (hgrows.earlier.nodup_members signature .positive).filter fun episode ↦
      episode.steps? = some steps
    have hsub := filter_subset (fun episode ↦ decide (episode.steps? = some steps))
      (hgrows.members signature .positive)
    exact ⟨_, mem_core.mpr (.inr (.inr (.inr ⟨signature, hgrows.signatures hsignature, steps, _,
      mem_stepGroups.mpr ⟨rfl, fun hempty ↦ hne (subset_nil.mp (hempty ▸ hsub))⟩,
      recipe?_eq_some_iff.mpr ⟨hgrows.ruleset ▸ hcount.trans (hnodup.length_le_of_subset hsub),
        hgrows.ruled ▸ hruled, rfl⟩⟩))), hgrows.ofGroup ((perm_sortedBy _ _).nodup_iff.mpr hnodup)
      fun _ hmember ↦ mem_sortedBy.mpr (hsub (mem_sortedBy.mp hmember)), rfl⟩

/-- A dossier cites the episodes of its project, which are all still there. -/
theorem dossiers {dossiers : List Draft} (hdossiers : smaller.dossiers = .ok dossiers)
    {dossiers' : List Draft} (hdossiers' : larger.dossiers = .ok dossiers')
    (hdraft : draft ∈ dossiers) : ∃ other ∈ dossiers', other.Extends draft := by
  obtain ⟨project, hproject, hmade⟩ := exists_of_mem_mapM hdossiers hdraft
  obtain ⟨hmem, hruled⟩ := mem_filter.mp hproject
  obtain ⟨episode, hepisode, hsame⟩ := mem_projects.mp hmem
  obtain ⟨other, hother, hmade'⟩ := exists_mem_of_mapM hdossiers' (mem_filter.mpr
    ⟨mem_projects.mpr ⟨episode, hgrows.episodes hepisode, hsame⟩, hgrows.ruled ▸ hruled⟩)
  have hsub : sortedBy Episode.identity (smaller.episodesOf project) ⊆
      sortedBy Episode.identity (larger.episodesOf project) := fun episode hepisode ↦ by
    obtain ⟨hmem, hsame⟩ := mem_episodesOf.mp (mem_sortedBy.mp hepisode)
    exact mem_sortedBy.mpr (mem_episodesOf.mpr ⟨hgrows.episodes hmem, hsame⟩)
  have hnodup : (sortedBy Episode.identity (smaller.episodesOf project)).Nodup := by
    rw [(perm_sortedBy _ _).nodup_iff, episodesOf, getD_groupBy]
    exact hgrows.earlier.nodup_episodes.filter _
  refine ⟨other, hother, ?_, ?_, ?_⟩
  · obtain ⟨_, -, hanswer⟩ := bind_eq_ok_iff.mp hmade
    obtain ⟨_, -, hanswer'⟩ := bind_eq_ok_iff.mp hmade'
    cases hanswer
    cases hanswer'
    rfl
  · rw [(dossier_eq_ok hmade).1, (dossier_eq_ok hmade').1]
    exact map_subset _ hsub
  · rw [(dossier_eq_ok hmade).2.1, (dossier_eq_ok hmade').2.1, hgrows.ruleset]
    exact rank_grade_le _ hnodup hsub

theorem packEvidence {scope : List String} {cited : String}
    (hcited : cited ∈ smaller.packEvidence digest scope) :
    cited ∈ larger.packEvidence digest scope := by
  refine mem_ofList.mpr (mem_append.mpr ((mem_append.mp (mem_ofList.mp hcited)).imp ?_ ?_))
  · intro hcore
    obtain ⟨draft, hdraft, hmem⟩ := mem_flatMap.mp hcore
    obtain ⟨hdraft, hscope⟩ := mem_filter.mp hdraft
    obtain ⟨other, hother, hextends, hfacets⟩ := hgrows.core hdraft
    exact mem_flatMap.mpr ⟨other, mem_filter.mpr ⟨hother, hfacets ▸ hscope⟩, hextends.evidence hmem⟩
  · intro hbenchmark
    obtain ⟨episode, hepisode, rfl⟩ := mem_map.mp hbenchmark
    obtain ⟨hmem, hscope⟩ := mem_filter.mp hepisode
    exact mem_map_of_mem (mem_filter.mpr
      ⟨mem_sortedBy.mpr (hgrows.episodes (mem_sortedBy.mp hmem)), hscope⟩)

/-- A pack cites what the drafts within its scope cite, and each of them is extended. -/
theorem packs (hdraft : draft ∈ smaller.packs digest) :
    ∃ other ∈ larger.packs digest, other.Extends draft := by
  obtain ⟨⟨name, scope⟩, hscope, hmade⟩ := mem_filterMap.mp hdraft
  have hnone : ¬ ("pack:" ++ name ∈ smaller.ruledAgainst ∨ smaller.packMembers digest scope = []) :=
    fun hnone ↦ by cases (if_pos hnone).symm.trans hmade
  cases (if_neg hnone).symm.trans hmade
  obtain ⟨cited, hcited⟩ := hgrows.earlier.exists_packEvidence (not_or.mp hnone).2
  have hsome : ¬ ("pack:" ++ name ∈ larger.ruledAgainst ∨ larger.packMembers digest
      scope = []) := by
    rintro (hruled | hempty)
    · exact hnone (.inl (hgrows.ruled ▸ hruled))
    · obtain ⟨hcore, hbenchmarks⟩ := append_eq_nil_iff.mp hempty
      have hlater := hgrows.packEvidence hcited
      rw [Corpus.packEvidence, map_eq_nil_iff.mp hcore, hbenchmarks] at hlater
      exact absurd (mem_ofList.mp hlater) not_mem_nil
  refine ⟨_, mem_filterMap.mpr ⟨(name, scope), hgrows.ruleset ▸ hscope, if_neg hsome⟩, rfl,
    fun cited hcited ↦ hgrows.packEvidence hcited, ?_⟩
  rw [hgrows.ruleset]
  refine rank_grade_le _ (hgrows.earlier.nodup_episodes.filter _) fun episode hepisode ↦ ?_
  obtain ⟨hmem, hevidence⟩ := mem_filter.mp hepisode
  exact mem_filter.mpr ⟨hgrows.episodes hmem,
    decide_eq_true (hgrows.packEvidence (of_decide_eq_true hevidence))⟩

end Grows

end Corpus

theorem Draft.Describes.cites {draft : Draft} {state : DerivationState} {artifact : Artifact}
    (hdescribes : draft.Describes state artifact) : draft.evidence ⊆ artifact.citations := by
  intro cited hcited
  refine mem_map.mpr ⟨⟨.evidencedBy, cited⟩, mem_filter.mpr ⟨?_, decide_eq_true rfl⟩, rfl⟩
  rw [hdescribes.relations]
  exact mem_append_left _ (mem_map_of_mem (mem_sortedBy.mpr hcited))

/-- If a ledger is continued with records whose verdicts are known, every artifact of its layer is
in the layer of the longer ledger, under the same identity, with no citation lost and no lower
grade. -/
theorem regenerate_grows {digest : String → String} {earlier later : Ledger} {overlay : Overlay}
    {ruleset : DerivationRuleset} {added : List Record} {layer : Layer}
    (hlater : later.entries = earlier.entries ++ added)
    (hknown : ∀ episode, .episode episode ∈ added →
      episode.outcome.get? "verdict" = some (.str "passed") ∨
        episode.outcome.get? "verdict" = some (.str "failed"))
    (hlayer : regenerate digest earlier overlay ruleset = .ok layer) :
    ∃ layer', regenerate digest later overlay ruleset = .ok layer' ∧
      ∀ artifact ∈ layer.artifacts, ∃ other ∈ layer'.artifacts,
        other.identity = artifact.identity ∧ artifact.citations ⊆ other.citations ∧
          artifact.maturity.rank ≤ other.maturity.rank := by
  have hjudged := regenerate_eq_ok_iff.mp ⟨layer, hlayer⟩
  obtain ⟨layer', hlayer'⟩ := (@regenerate_eq_ok_iff digest later overlay ruleset).mpr
    fun episode hepisode ↦ by
      obtain ⟨hentry, hkept⟩ := mem_freshEpisodes.mp hepisode
      rw [hlater] at hentry
      rcases mem_append.mp hentry with hold | hnew
      · exact hjudged episode (mem_freshEpisodes.mpr ⟨hold, hkept⟩)
      · exact episode.polarity?_ne_none_iff.mpr (hknown episode hnew)
  obtain ⟨-, smaller, dossiers, hsmaller, hcompiled⟩ := compiled_of_regenerate hlayer
  obtain ⟨-, larger, dossiers', hlarger, hcompiled'⟩ := compiled_of_regenerate hlayer'
  obtain ⟨hgathered, hruleset, hruled, hepisodes, -⟩ := gather_eq_ok hsmaller
  obtain ⟨hgathered', hruleset', hruled', hepisodes', -⟩ := gather_eq_ok hlarger
  have hgrows : smaller.Grows larger := by
    refine ⟨hgathered, hgathered', hruleset'.trans hruleset.symm, hruled'.trans hruled.symm,
      fun episode hepisode ↦ ?_⟩
    rw [hepisodes] at hepisode
    rw [hepisodes']
    obtain ⟨hentry, hkept⟩ := mem_freshEpisodes.mp hepisode
    exact mem_freshEpisodes.mpr ⟨hlater ▸ mem_append_left _ hentry, hkept⟩
  refine ⟨layer', hlayer', fun artifact hartifact ↦ ?_⟩
  obtain ⟨draft, hdraft, hcomplete, hdescribes⟩ := hcompiled.described artifact hartifact
  have hextended : ∃ other ∈ larger.core digest ++ dossiers' ++ larger.packs digest,
      other.Extends draft := by
    rw [mem_append, mem_append] at hdraft
    rcases hdraft with (hcore | hdossier) | hpack
    · obtain ⟨other, hother, hextends, -⟩ := hgrows.core hcore
      exact ⟨other, mem_append_left _ (mem_append_left _ hother), hextends⟩
    · obtain ⟨other, hother, hextends⟩ :=
        hgrows.dossiers hcompiled.listed hcompiled'.listed hdossier
      exact ⟨other, mem_append_left _ (mem_append_right _ hother), hextends⟩
    · obtain ⟨other, hother, hextends⟩ := hgrows.packs hpack
      exact ⟨other, mem_append_right _ hother, hextends⟩
  obtain ⟨later, hdraft', hextends⟩ := hextended
  obtain ⟨other, hother, hdescribes'⟩ := hcompiled'.built later hdraft'
  refine ⟨other, hother, ?_, ?_, ?_⟩
  · rw [hdescribes'.identity, hextends.identity, hdescribes.identity]
  · rw [hdescribes.citations hcomplete]
    intro cited hcited
    exact hdescribes'.cites (hextends.evidence (mem_sortedBy.mp hcited))
  · rw [hdescribes'.maturity, hdescribes.maturity]
    exact hextends.maturity

theorem regenerate_grows_mixed : ∃ layer layer',
    regenerate Inputs.mixedInputs.digest (Desk.run ⟨1, ["ros2"]⟩ committing
      [.offer (firstEpisode "trace:t1" (by decide))]).gate.ledger .empty
        (defaultRuleset 1 (Nat.le_refl 1)) = .ok layer ∧
    regenerate Inputs.mixedInputs.digest Inputs.mixedInputs.ledger .empty
        (defaultRuleset 1 (Nat.le_refl 1)) = .ok layer' ∧
      ∀ artifact ∈ layer.artifacts, ∃ other ∈ layer'.artifacts,
        other.identity = artifact.identity ∧ artifact.citations ⊆ other.citations ∧
          artifact.maturity.rank ≤ other.maturity.rank := by
  obtain ⟨layer, hlayer⟩ := (@regenerate_eq_ok_iff Inputs.mixedInputs.digest
    (Desk.run ⟨1, ["ros2"]⟩ committing
      [.offer (firstEpisode "trace:t1" (by decide))]).gate.ledger .empty
      (defaultRuleset 1 (Nat.le_refl 1))).mpr (by decide +kernel)
  obtain ⟨layer', hlayer', hgrows⟩ := @regenerate_grows _ _
    Inputs.mixedInputs.ledger _ _ [Inputs.failedEpisode] _ rfl (fun episode hepisode ↦ .inr (by
      cases mem_singleton.mp hepisode
      rfl)) hlayer
  exact ⟨layer, layer', hlayer, hlayer', hgrows⟩

end AbsoluteZero.Lie

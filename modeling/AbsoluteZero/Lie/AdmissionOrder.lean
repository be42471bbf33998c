import AbsoluteZero.Lie.Compiling

/-!
# The order of admissions and of rulings

Two corpora are `Corpus.Alike` when they have the same records in some order and the same targets of
rulings. Whatever the compiler reads from them is the same, and so is every draft
(`Corpus.Alike.core_eq`), so a layer does not depend on the order of admissions and rulings
(`regenerate_of_perm`).
-/

namespace AbsoluteZero.Lie

open Foundations List

theorem grade_of_perm (ruleset : DerivationRuleset) {episodes episodes' : List Episode}
    (hperm : episodes.Perm episodes') : grade ruleset episodes = grade ruleset episodes' := by
  have hprojects : SortedSet.ofList (episodes.map Episode.project) =
      SortedSet.ofList (episodes'.map Episode.project) :=
    SortedSet.ofList_congr fun project ↦ (hperm.map Episode.project).mem_iff
  rw [grade, grade, hprojects, hperm.length_eq]

namespace Corpus

/-- The same records in some order, and the same targets of rulings. -/
structure Alike (corpus corpus' : Corpus) : Prop where
  gathered : corpus.Gathered
  gathered' : corpus'.Gathered
  ruleset : corpus.ruleset = corpus'.ruleset
  ruled : ∀ identity, identity ∈ corpus.ruledAgainst ↔ identity ∈ corpus'.ruledAgainst
  episodes : corpus.episodes.Perm corpus'.episodes
  decisions : corpus.decisions.Perm corpus'.decisions

namespace Alike

variable {digest : String → String} {corpus corpus' : Corpus} (halike : corpus.Alike corpus')
include halike

/-- Sorting a selection of the episodes forgets their order. -/
theorem sortedBy_filter (property : Episode → Prop) [DecidablePred property] :
    sortedBy Episode.identity (corpus.episodes.filter fun episode ↦ property episode) =
      sortedBy Episode.identity (corpus'.episodes.filter fun episode ↦ property episode) :=
  sortedBy_of_perm
    (halike.gathered.unique.sublist (filter_sublist.map Episode.identity))
    (halike.episodes.filter _)

/-- A group lists its members by identity. -/
theorem members_eq (signature : Signature) (polarity : Polarity) :
    corpus.sets.members signature polarity = corpus'.sets.members signature polarity := by
  rw [halike.gathered.members_eq, halike.gathered'.members_eq, halike.sortedBy_filter]

/-- The signatures are read in their order. -/
theorem signatures_eq : corpus.sets.signatures = corpus'.sets.signatures := by
  refine sortedBy_eq_of_perm ?_
  refine (perm_ext_iff_of_nodup corpus.sets.nodup corpus'.sets.nodup).mpr fun signature ↦ ?_
  have hmem : ∀ {other : Corpus}, signature ∈ other.sets.signatures ↔
      signature ∈ other.sets.items.map Prod.fst := mem_sortedBy
  rw [← hmem, ← hmem, halike.gathered.mem_signatures, halike.gathered'.mem_signatures]
  simp only [halike.episodes.mem_iff]

theorem lesson?_eq (signature : Signature) (polarity : Polarity) :
    corpus.lesson? signature polarity = corpus'.lesson? signature polarity := by
  simp only [lesson?, halike.members_eq, halike.ruled, halike.ruleset]

theorem lessons_eq : corpus.lessons = corpus'.lessons := by
  simp only [lessons, halike.signatures_eq, funext (halike.lesson?_eq _)]

theorem specs_eq (polarity : Polarity) :
    corpus.specs digest polarity = corpus'.specs digest polarity := by
  simp only [specs, halike.signatures_eq, halike.members_eq, halike.ruleset]

theorem contestedSpecs_eq : corpus.contestedSpecs digest = corpus'.contestedSpecs digest := by
  simp only [contestedSpecs, halike.specs_eq]

theorem dropped_eq : corpus.dropped digest = corpus'.dropped digest := by
  simp only [dropped, halike.contestedSpecs_eq, halike.ruled]

theorem contestedFlags_eq : corpus.contestedFlags digest = corpus'.contestedFlags digest := by
  simp only [contestedFlags, halike.contestedSpecs_eq, halike.ruled]

theorem pattern?_eq (spec : Spec) : corpus.pattern? digest spec = corpus'.pattern? digest spec := by
  simp only [pattern?, halike.dropped_eq, halike.contestedFlags_eq, halike.ruled, halike.ruleset]

theorem patterns_eq : corpus.patterns digest = corpus'.patterns digest := by
  simp only [patterns, halike.specs_eq, halike.pattern?_eq]

theorem stepGroups_eq (signature : Signature) :
    corpus.stepGroups signature = corpus'.stepGroups signature := by
  simp only [stepGroups, halike.members_eq]

theorem recipesOf_eq (signature : Signature) :
    corpus.recipesOf digest signature = corpus'.recipesOf digest signature := by
  simp only [recipesOf, recipe?, halike.stepGroups_eq, halike.ruled, halike.ruleset]

theorem alternatives_eq (spec : Spec) :
    corpus.alternatives digest spec = corpus'.alternatives digest spec := by
  simp only [alternatives, halike.patterns_eq, halike.recipesOf_eq, halike.lesson?_eq,
    halike.members_eq]

theorem antiPattern?_eq (spec : Spec) :
    corpus.antiPattern? digest spec = corpus'.antiPattern? digest spec := by
  simp only [antiPattern?, halike.dropped_eq, halike.contestedFlags_eq, halike.alternatives_eq,
    halike.ruled, halike.ruleset]

/-- The drafts about groups are made of members, specs and rulings only. -/
theorem core_eq : corpus.core digest = corpus'.core digest := by
  simp only [core, antiPatterns, recipes, halike.lessons_eq, halike.patterns_eq, halike.specs_eq,
    halike.signatures_eq, funext halike.antiPattern?_eq, funext halike.recipesOf_eq]

variable (project : String)

theorem episodesOf_perm :
    (corpus.episodesOf project).Perm (corpus'.episodesOf project) := by
  rw [episodesOf, episodesOf, getD_groupBy, getD_groupBy]
  exact halike.episodes.filter _

theorem decisionsOf_perm :
    (corpus.decisionsOf project).Perm (corpus'.decisionsOf project) := by
  rw [decisionsOf, decisionsOf, getD_groupBy, getD_groupBy]
  exact halike.decisions.filter _

theorem sortedBy_episodesOf :
    sortedBy Episode.identity (corpus.episodesOf project) =
      sortedBy Episode.identity (corpus'.episodesOf project) := by
  rw [episodesOf, episodesOf, getD_groupBy, getD_groupBy]
  exact halike.sortedBy_filter fun episode ↦ episode.project = project

theorem projects_eq : corpus.projects = corpus'.projects :=
  sortedBy_keys_groupBy Episode.project halike.episodes

theorem projectSignature_eq :
    corpus.projectSignature project = corpus'.projectSignature project := by
  refine SortedSet.ofList_congr fun facet ↦ ?_
  simp only [mem_append, mem_flatMap, (halike.episodesOf_perm project).mem_iff,
    (halike.decisionsOf_perm project).mem_iff]

theorem lessonRefs_eq : corpus.lessonRefs project = corpus'.lessonRefs project := by
  simp only [lessonRefs, halike.lessons_eq,
    ((halike.episodesOf_perm project).map Episode.identity).mem_iff]

theorem sharedFacets_eq (project other : String) :
    corpus.sharedFacets project other = corpus'.sharedFacets project other := by
  rw [sharedFacets, sharedFacets, halike.projectSignature_eq, halike.projectSignature_eq]

theorem relatedProjects_eq :
    corpus.relatedProjects project = corpus'.relatedProjects project := by
  simp only [relatedProjects, halike.projects_eq, halike.sharedFacets_eq]

/-- A dossier sorts what it refers to. -/
theorem dossier_eq : corpus.dossier project = corpus'.dossier project := by
  have hdecisions := sortedBy_eq_of_perm ((halike.decisionsOf_perm project).map fun decision ↦
    decision.envelope.identity)
  simp only [dossier, halike.relatedProjects_eq, halike.sharedFacets_eq, halike.sortedBy_episodesOf,
    halike.projectSignature_eq, halike.lessonRefs_eq, halike.ruleset, hdecisions]

theorem dossiers_eq : corpus.dossiers = corpus'.dossiers := by
  simp only [dossiers, halike.projects_eq, halike.ruled, funext halike.dossier_eq]

section

variable (scope : List String)

theorem benchmarksWithin_eq :
    corpus.benchmarksWithin scope = corpus'.benchmarksWithin scope := by
  rw [benchmarksWithin, benchmarksWithin, sortedBy_of_perm halike.gathered.unique halike.episodes]

theorem packEvidence_eq :
    corpus.packEvidence digest scope = corpus'.packEvidence digest scope := by
  simp only [packEvidence, coreWithin, halike.core_eq, halike.benchmarksWithin_eq]

theorem packEpisodes_perm :
    (corpus.packEpisodes digest scope).Perm (corpus'.packEpisodes digest scope) := by
  rw [packEpisodes, packEpisodes, halike.packEvidence_eq]
  exact halike.episodes.filter _

theorem packMembers_eq :
    corpus.packMembers digest scope = corpus'.packMembers digest scope := by
  simp only [packMembers, coreWithin, halike.core_eq, halike.benchmarksWithin_eq]

end

/-- A pack sorts its members, and its grade counts its episodes. -/
theorem pack?_eq (name : String) (scope : List String) :
    corpus.pack? digest name scope = corpus'.pack? digest name scope := by
  have hprojects : SortedSet.ofList ((corpus.packEpisodes digest scope).map Episode.project) =
      SortedSet.ofList ((corpus'.packEpisodes digest scope).map Episode.project) :=
    SortedSet.ofList_congr fun project ↦
      ((halike.packEpisodes_perm scope).map Episode.project).mem_iff
  simp only [pack?, halike.ruled, halike.packMembers_eq, halike.packEvidence_eq, hprojects,
    halike.ruleset, grade_of_perm _ (halike.packEpisodes_perm scope)]

theorem packs_eq : corpus.packs digest = corpus'.packs digest := by
  simp only [packs, halike.pack?_eq, halike.ruleset]

end Alike

end Corpus

variable {overlay overlay' : Overlay}

theorem mem_targets_of_perm (hperm : overlay.entries.Perm overlay'.entries)
    (kinds : List AnnotationKind) (identity : String) :
    identity ∈ overlay.targets kinds ↔ identity ∈ overlay'.targets kinds := by
  simp only [Overlay.targets, mem_flatMap, mem_filter, hperm.mem_iff]

variable {ledger ledger' : Ledger}

section

variable (hledger : ledger.entries.Perm ledger'.entries)

include hledger

theorem freshEpisodes_perm (hoverlay : overlay.entries.Perm overlay'.entries) :
    (freshEpisodes ledger overlay).Perm (freshEpisodes ledger' overlay') := by
  simp only [freshEpisodes, Overlay.excludedIds, mem_targets_of_perm hoverlay]
  exact hledger.filterMap _

theorem freshDecisions_perm (hoverlay : overlay.entries.Perm overlay'.entries) :
    (freshDecisions ledger overlay).Perm (freshDecisions ledger' overlay') := by
  simp only [freshDecisions, Overlay.excludedIds, mem_targets_of_perm hoverlay]
  exact hledger.filterMap _

/-- The order of the records and of the rulings does not matter to a layer that can be compiled. -/
theorem regenerate_of_perm {digest : String → String} {ruleset : DerivationRuleset} {layer : Layer}
    (hoverlay : overlay.entries.Perm overlay'.entries)
    (hlayer : regenerate digest ledger overlay ruleset = .ok layer) :
    regenerate digest ledger' overlay' ruleset = .ok layer := by
  obtain ⟨corpus, hgather, -⟩ := Checked.bind_eq_ok_iff.mp hlayer
  have hknown := exists_gather_iff.mp ⟨corpus, hgather⟩
  obtain ⟨corpus', hgather'⟩ := (@exists_gather_iff ledger' overlay' ruleset).mpr
    fun episode hepisode ↦ hknown episode ((freshEpisodes_perm hledger
      hoverlay).mem_iff.mpr hepisode)
  obtain ⟨hcorpus, hruleset, hruled, hepisodes, hdecisions⟩ := gather_eq_ok hgather
  obtain ⟨hcorpus', hruleset', hruled', hepisodes', hdecisions'⟩ := gather_eq_ok hgather'
  have halike : corpus.Alike corpus' := {
    gathered := hcorpus
    gathered' := hcorpus'
    ruleset := hruleset.trans hruleset'.symm
    ruled := fun identity ↦ by
      rw [hruled, hruled']
      exact mem_targets_of_perm hoverlay _ identity
    episodes := by
      rw [hepisodes, hepisodes']
      exact freshEpisodes_perm hledger hoverlay
    decisions := by
      rw [hdecisions, hdecisions']
      exact freshDecisions_perm hledger hoverlay }
  have hstate : derivationState ledger overlay ruleset =
      derivationState ledger' overlay' ruleset := by
    simp only [derivationState, Ledger.currentPosition, Overlay.currentPosition, hledger.length_eq,
      hoverlay.length_eq]
  have hsame : regenerate digest ledger overlay ruleset =
      regenerate digest ledger' overlay' ruleset := by
    simp only [regenerate, hgather, hgather', hstate, halike.core_eq, halike.dossiers_eq,
      halike.packs_eq, bind, Except.bind]
  rw [← hsame, hlayer]

end

end AbsoluteZero.Lie

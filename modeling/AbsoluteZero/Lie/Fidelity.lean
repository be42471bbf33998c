import AbsoluteZero.Lie.Advisory
import AbsoluteZero.Lie.Threads

/-!
# The layer is what the evidence says

`Inputs.Faithful` says of a layer that its advice is that of the threads that stand, each artifact
citing exactly the evidence of its thread, and that nothing excluded is cited anywhere.
`Inputs.compiles_faithfully` proves it of every corpus whose verdicts are known, for every order of
admissions and of rulings.
-/

namespace AbsoluteZero.Lie

open Foundations List Corpus

/-- The records that an artifact cites. -/
def Artifact.citations (artifact : Artifact) : List String :=
  (artifact.envelope.relations.filter fun relation ↦ relation.relationType = .evidencedBy).map
    Relation.targetId

namespace Inputs

variable (inputs : Inputs)

/-- The artifact of a thread: it cites the evidence of the thread and has its grade. -/
structure Compiled (thread : Thread) (artifact : Artifact) : Prop where
  identity : artifact.identity = inputs.identity thread
  facets : artifact.envelope.facets = thread.signature
  citations : artifact.citations = sortedBy id ((inputs.evidence thread).map Episode.identity)
  maturity : artifact.maturity = grade inputs.ruleset (inputs.evidence thread)
  content : inputs.States (inputs.evidence thread).length thread artifact.content

/-- The identity is that of an entry of the ledger that no ruling excludes. -/
def Fresh (identity : String) : Prop :=
  inputs.ledger.Holds identity ∧ identity ∉ inputs.overlay.excludedIds

/-- Nothing that the artifact names is excluded: what it cites is fresh, and what a dossier or a
pack refers to is fresh or an artifact of the layer. -/
structure CitesFresh (layer : Layer) (artifact : Artifact) : Prop where
  cited : ∀ identity ∈ artifact.citations, inputs.Fresh identity
  dossier : ∀ project decisionRefs episodeRefs lessonRefs relationships,
    artifact.content = .projectDossier project decisionRefs episodeRefs lessonRefs relationships →
      (∀ identity ∈ decisionRefs ++ episodeRefs, inputs.Fresh identity) ∧
        ∀ identity ∈ lessonRefs, ∃ lesson ∈ layer.artifacts, lesson.identity = identity
  pack : ∀ memberRefs, artifact.content = .domainKnowledgePack memberRefs →
    ∀ identity ∈ memberRefs,
      (∃ member ∈ layer.artifacts, member.identity = identity) ∨ inputs.Fresh identity

structure Faithful (layer : Layer) : Prop where
  stands_iff : ∀ thread, inputs.Stands thread ↔
    ∃ artifact ∈ layer.artifacts, inputs.Compiled thread artifact
  derived : ∀ artifact ∈ layer.artifacts, artifact.content.advice? ≠ none →
    ∃ thread, inputs.Stands thread ∧ inputs.Compiled thread artifact
  fresh : ∀ artifact ∈ layer.artifacts, inputs.CitesFresh layer artifact

variable {inputs} {corpus : Corpus}

theorem States.advice {thread : Thread} {count : Nat} {content : Content}
    (hstates : inputs.States count thread content) : content.advice? ≠ none := by
  cases content with
  | projectDossier | domainKnowledgePack => cases thread <;> exact hstates.elim
  | _ => exact Option.some_ne_none _

theorem lessonIdentity_inj {signature : Signature} {polarity polarity' : Polarity}
    (hidentity : Corpus.lessonIdentity signature polarity =
      Corpus.lessonIdentity signature polarity') : polarity = polarity' := by
  have htext : polarity.text = polarity'.text := (String.append_right_inj _).mp hidentity
  cases polarity <;> cases polarity' <;> first | rfl | exact absurd htext (by decide)

theorem States.thread_unique {thread thread' : Thread} {count count' : Nat} {content : Content}
    (hsignature : thread.signature = thread'.signature)
    (hidentity : inputs.identity thread = inputs.identity thread')
    (hstates : inputs.States count thread content)
    (hstates' : inputs.States count' thread' content) : thread = thread' := by
  cases content with
  | lesson statement =>
    cases thread with
    | lesson signature polarity =>
      cases thread' with
      | lesson signature' polarity' =>
        cases hsignature
        rw [lessonIdentity_inj hidentity]
      | _ => exact hstates'.elim
    | _ => exact hstates.elim
  | pattern approach contested =>
    cases thread with
    | pattern signature text =>
      cases thread' with
      | pattern signature' text' =>
        cases hsignature
        rw [← hstates.1, ← hstates'.1]
      | _ => exact hstates'.elim
    | _ => exact hstates.elim
  | antiPattern approach consequence contested =>
    cases thread with
    | antiPattern signature text =>
      cases thread' with
      | antiPattern signature' text' =>
        cases hsignature
        rw [← hstates.1, ← hstates'.1]
      | _ => exact hstates'.elim
    | _ => exact hstates.elim
  | recipe steps =>
    cases thread with
    | recipe signature steps' =>
      cases thread' with
      | recipe signature' steps'' =>
        cases hsignature
        rw [← (show steps = steps' from hstates), ← (show steps = steps'' from hstates')]
      | _ => exact hstates'.elim
    | _ => exact hstates.elim
  | projectDossier | domainKnowledgePack => cases thread <;> exact hstates.elim

/-- A thread is read back from its artifact. -/
theorem Compiled.thread_unique {thread thread' : Thread} {artifact : Artifact}
    (hcompiled : inputs.Compiled thread artifact) (hcompiled' : inputs.Compiled thread' artifact) :
    thread = thread' :=
  States.thread_unique (hcompiled.facets.symm.trans hcompiled'.facets)
    (hcompiled.identity.symm.trans hcompiled'.identity) hcompiled.content hcompiled'.content

end Inputs

variable {draft : Draft} {artifact : Artifact}

/-- An artifact cites what its draft names. -/
theorem Draft.Describes.citations {state : DerivationState}
    (hdescribes : draft.Describes state artifact) (hcomplete : draft.Complete) :
    artifact.citations = sortedBy id draft.evidence := by
  have hevidence : ((sortedBy id draft.evidence).map (⟨.evidencedBy, ·⟩ : String → Relation)).filter
      (fun relation ↦ relation.relationType = .evidencedBy) =
        (sortedBy id draft.evidence).map (⟨.evidencedBy, ·⟩) := by
    refine filter_eq_self.mpr fun relation hrelation ↦ ?_
    obtain ⟨target, -, rfl⟩ := mem_map.mp hrelation
    exact decide_eq_true rfl
  have hextra : (draft.extra.map fun relation ↦ (⟨relation.1, relation.2⟩ : Relation)).filter
      (fun relation ↦ relation.relationType = .evidencedBy) = [] := by
    refine filter_eq_nil_iff.mpr fun relation hrelation ↦ ?_
    obtain ⟨link, hlink, rfl⟩ := mem_map.mp hrelation
    rw [decide_eq_true_iff, (hcomplete.linked link hlink).1]
    exact nofun
  rw [Artifact.citations, hdescribes.relations, filter_append, hevidence, hextra,
    append_nil, map_map]
  exact map_id _

namespace Inputs

variable {inputs : Inputs} {corpus : Corpus}

theorem DraftOf.compiled {thread : Thread} {state : DerivationState}
    (hdraft : inputs.DraftOf thread draft) (hcomplete : draft.Complete)
    (hdescribes : draft.Describes state artifact) : inputs.Compiled thread artifact where
  identity := hdescribes.identity.trans hdraft.identity
  facets := hdescribes.facets.trans hdraft.facets
  citations := by
    rw [hdescribes.citations hcomplete, hdraft.evidence]
    exact sortedBy_eq_of_perm ((perm_sortedBy _ _).map Episode.identity)
  maturity := hdescribes.maturity.trans hdraft.maturity
  content := by
    rw [hdescribes.content]
    exact hdraft.content

/-! ### Nothing excluded -/

theorem Gathers.fresh_episode (hcorpus : inputs.Gathers corpus) {identity : String}
    (hmem : ∃ episode ∈ corpus.episodes, episode.identity = identity) : inputs.Fresh identity := by
  obtain ⟨episode, hepisode, rfl⟩ := hmem
  rw [hcorpus.episodes] at hepisode
  obtain ⟨hentry, hkept⟩ := mem_freshEpisodes.mp hepisode
  exact ⟨mem_map_of_mem (f := Record.identity) hentry, hkept⟩

theorem Gathers.fresh_decision (hcorpus : inputs.Gathers corpus) {decision : Decision}
    (hmem : decision ∈ corpus.decisions) : inputs.Fresh decision.envelope.identity := by
  rw [hcorpus.decisions] at hmem
  obtain ⟨hentry, hkept⟩ := mem_freshDecisions.mp hmem
  exact ⟨mem_map_of_mem (f := Record.identity) hentry, hkept⟩

theorem pack?_content {name : String} {scope : List String}
    (hdraft : corpus.pack? inputs.digest name scope = some draft) : draft.content =
      .domainKnowledgePack (sortedBy id (corpus.packMembers inputs.digest scope)) := by
  unfold Corpus.pack? at hdraft
  split at hdraft <;> cases hdraft
  rfl

section Layer

variable {layer : Layer} {dossiers : List Draft} (hcorpus : inputs.Gathers corpus)
  (hlayer : layer.Compiled inputs.digest corpus dossiers)
include hlayer

theorem exists_of_core (hdraft : draft ∈ corpus.core inputs.digest) :
    ∃ artifact ∈ layer.artifacts, artifact.identity = draft.identity := by
  obtain ⟨artifact, hartifact, hdescribes⟩ := hlayer.built draft
    (mem_append_left _ (mem_append_left _ hdraft))
  exact ⟨artifact, hartifact, hdescribes.identity⟩

include hcorpus

/-- What a dossier refers to. -/
theorem Gathers.dossier_refs {project : String} (hdraft : corpus.dossier project = .ok draft)
    {decisionRefs episodeRefs lessonRefs : List String} {relationships : List ProjectRelationship}
    (hcontent : draft.content =
      .projectDossier project decisionRefs episodeRefs lessonRefs relationships) :
    (∀ identity ∈ decisionRefs ++ episodeRefs, inputs.Fresh identity) ∧
      ∀ identity ∈ lessonRefs, ∃ lesson ∈ layer.artifacts, lesson.identity = identity := by
  obtain ⟨hevidence, -, _, hmade⟩ := dossier_eq_ok hdraft
  cases hmade.symm.trans hcontent
  refine ⟨fun identity hidentity ↦ ?_, fun identity hidentity ↦ ?_⟩
  · rcases mem_append.mp hidentity with hdecision | hepisode
    · obtain ⟨decision, hmem, rfl⟩ := mem_map.mp (mem_sortedBy.mp hdecision)
      rw [Corpus.decisionsOf, getD_groupBy] at hmem
      exact hcorpus.fresh_decision (mem_filter.mp hmem).1
    · rw [hevidence] at hepisode
      obtain ⟨episode, hmem, rfl⟩ := mem_map.mp hepisode
      exact hcorpus.fresh_episode ⟨episode, (mem_episodesOf.mp (mem_sortedBy.mp hmem)).1, rfl⟩
  · obtain ⟨lesson, hlesson, rfl⟩ := mem_map.mp (mem_sortedBy.mp hidentity)
    refine exists_of_core hlayer (mem_core.mpr (.inl ?_))
    exact mem_lessons.mp (mem_filter.mp hlesson).1

/-- What a pack refers to. -/
theorem Gathers.pack_refs {scope : List String} :
    ∀ identity ∈ sortedBy id (corpus.packMembers inputs.digest scope),
      (∃ member ∈ layer.artifacts, member.identity = identity) ∨ inputs.Fresh identity := by
  intro identity hidentity
  rcases mem_append.mp (mem_sortedBy.mp hidentity) with hcore | hbenchmark
  · obtain ⟨member, hmember, rfl⟩ := mem_map.mp hcore
    exact .inl (exists_of_core hlayer (mem_filter.mp hmember).1)
  · obtain ⟨episode, hepisode, rfl⟩ := mem_map.mp hbenchmark
    exact .inr (hcorpus.fresh_episode ⟨episode, mem_benchmarksWithin hepisode, rfl⟩)

theorem Gathers.citesFresh (hplain : inputs.Plain)
    (hartifact : artifact ∈ layer.artifacts) : inputs.CitesFresh layer artifact := by
  obtain ⟨draft, hdraft, hcomplete, hdescribes⟩ := hlayer.described artifact hartifact
  have hcited : ∀ identity ∈ artifact.citations, inputs.Fresh identity := by
    intro identity hidentity
    rw [hdescribes.citations hcomplete, mem_sortedBy] at hidentity
    exact hcorpus.fresh_episode (hcorpus.gathered.evidence_mem hlayer.listed hdraft hidentity)
  rw [mem_append, mem_append] at hdraft
  rcases hdraft with (hcore | hdossier) | hpack
  · -- an artifact of the core advises, and neither a dossier nor a pack does
    obtain ⟨thread, -, hthread⟩ := hcorpus.stands_of_core hplain hcore
    have hadvice := States.advice hthread.content
    rw [← hdescribes.content] at hadvice
    exact ⟨hcited, fun _ _ _ _ _ hcontent ↦ (hadvice (by rw [hcontent]; rfl)).elim,
      fun _ hcontent ↦ (hadvice (by rw [hcontent]; rfl)).elim⟩
  · obtain ⟨project, -, hmade⟩ := Checked.exists_of_mem_mapM hlayer.listed hdossier
    obtain ⟨-, -, _, hproject⟩ := dossier_eq_ok hmade
    refine ⟨hcited, fun _ _ _ _ _ hcontent ↦ ?_, fun _ hcontent ↦ ?_⟩
    · rw [hdescribes.content] at hcontent
      cases hproject.symm.trans hcontent
      exact hcorpus.dossier_refs hlayer hmade hcontent
    · rw [hdescribes.content] at hcontent
      cases hproject.symm.trans hcontent
  · obtain ⟨⟨name, scope⟩, -, hmade⟩ := mem_filterMap.mp hpack
    refine ⟨hcited, fun _ _ _ _ _ hcontent ↦ ?_, fun _ hcontent ↦ ?_⟩
    · rw [hdescribes.content] at hcontent
      cases (pack?_content hmade).symm.trans hcontent
    · rw [hdescribes.content] at hcontent
      cases (pack?_content hmade).symm.trans hcontent
      exact hcorpus.pack_refs hlayer

theorem Gathers.faithful (hplain : inputs.Plain) : inputs.Faithful layer := by
  have hderived : ∀ artifact ∈ layer.artifacts, artifact.content.advice? ≠ none →
      ∃ thread, inputs.Stands thread ∧ inputs.Compiled thread artifact := by
    intro artifact hartifact hadvice
    obtain ⟨draft, hdraft, hcomplete, hdescribes⟩ := hlayer.described artifact hartifact
    rw [mem_append, mem_append] at hdraft
    rcases hdraft with (hcore | hdossier) | hpack
    · obtain ⟨thread, hstands, hthread⟩ := hcorpus.stands_of_core hplain hcore
      exact ⟨thread, hstands, hthread.compiled hcomplete hdescribes⟩
    · obtain ⟨project, -, hmade⟩ := Checked.exists_of_mem_mapM hlayer.listed hdossier
      obtain ⟨-, -, _, hproject⟩ := dossier_eq_ok hmade
      rw [hdescribes.content, hproject] at hadvice
      exact (hadvice rfl).elim
    · obtain ⟨⟨name, scope⟩, -, hmade⟩ := mem_filterMap.mp hpack
      rw [hdescribes.content, pack?_content hmade] at hadvice
      exact (hadvice rfl).elim
  refine ⟨fun thread ↦ ⟨fun hstands ↦ ?_, ?_⟩, hderived, fun artifact ↦ hcorpus.citesFresh
    hlayer hplain⟩
  · obtain ⟨draft, hcore, hthread⟩ := hcorpus.exists_core hplain hstands
    obtain ⟨artifact, hartifact, hdescribes⟩ := hlayer.built draft
      (mem_append_left _ (mem_append_left _ hcore))
    exact ⟨artifact, hartifact,
      hthread.compiled (hcorpus.gathered.complete_core hcore) hdescribes⟩
  · rintro ⟨artifact, hartifact, hcompiled⟩
    obtain ⟨thread', hstands, hcompiled'⟩ :=
      hderived artifact hartifact (States.advice hcompiled.content)
    rwa [hcompiled.thread_unique hcompiled']

end Layer

/-- Of a corpus whose verdicts are known, a layer is compiled that says what the evidence says, and
every order of the same records and of the same rulings gives the same canonical text. -/
theorem compiles_faithfully (inputs : Inputs) (hplain : inputs.Plain) :
    ∃ layer, regenerate inputs.digest inputs.ledger inputs.overlay inputs.ruleset = .ok layer ∧
      inputs.Faithful layer ∧ ∀ ledger overlay, inputs.ledger.entries.Perm ledger.entries →
        inputs.overlay.entries.Perm overlay.entries →
          ∃ layer', regenerate inputs.digest ledger overlay inputs.ruleset = .ok layer' ∧
            layer'.canonical = layer.canonical := by
  obtain ⟨layer, hlayer⟩ := regenerate_eq_ok_iff.mpr hplain.judged
  obtain ⟨-, corpus, dossiers, hgather, hcompiled⟩ := compiled_of_regenerate hlayer
  obtain ⟨hgathered, hruleset, hruled, hepisodes, hdecisions⟩ := gather_eq_ok hgather
  have hcorpus : inputs.Gathers corpus := ⟨hgathered, hruleset, hruled, hepisodes, hdecisions⟩
  refine ⟨layer, hlayer, hcorpus.faithful hcompiled hplain,
    fun ledger overlay hledger hoverlay ↦ ?_⟩
  exact ⟨layer, regenerate_of_perm hledger hoverlay hlayer, rfl⟩

/-- Episode `e2`: the approach of `e1` failed. -/
def failedEpisode : Record :=
  .episode (sampleEpisode (sampleEnvelope "episode:e2" "trace:t2" "p1" "ros2" {})
    (Mapping.single "a" (.int 1)) (Mapping.single "verdict" (.str "failed"))
    approach_ne_nil (List.cons_ne_nil _ _))

/-- Episodes `e1` and `e2`, with the digest of their approach and a ruleset that makes a pattern of
one episode. -/
def mixedInputs : Inputs where
  digest _ := "015abd7f5cc5"
  ledger := (Desk.run ⟨1, ["ros2"]⟩ committing
    [.offer (firstEpisode "trace:t1" (by decide)), .offer failedEpisode]).gate.ledger
  overlay := .empty
  ruleset := { defaultRuleset 1 Nat.one_pos with
    patternMinEpisodes := 1
    patternPositive := Nat.one_pos }

/-- One approach has passed and failed. -/
theorem compiles_faithfully_mixed :
    ∃ layer, regenerate mixedInputs.digest mixedInputs.ledger mixedInputs.overlay
        mixedInputs.ruleset = .ok layer ∧ mixedInputs.Faithful layer ∧
      ∀ ledger overlay, mixedInputs.ledger.entries.Perm ledger.entries →
        mixedInputs.overlay.entries.Perm overlay.entries →
          ∃ layer', regenerate mixedInputs.digest ledger overlay mixedInputs.ruleset = .ok layer' ∧
            layer'.canonical = layer.canonical := by
  refine compiles_faithfully mixedInputs ⟨?_, ?_, ?_, ?_⟩
  · decide +kernel
  · decide +kernel
  · decide +kernel
  · decide +kernel

end Inputs

end AbsoluteZero.Lie

import AbsoluteZero.Lie.Fidelity

/-!
# What a warning recommends instead

An anti-pattern may name one artifact in its place: a pattern of another approach, else a recipe,
else the lesson of what passed. `Corpus.exists_alternative` follows the link to the draft behind it.
Nothing compares the approach of a recipe with the one that is warned against.
-/

namespace AbsoluteZero.Lie

open Foundations List Corpus

namespace Corpus

variable {digest : String → String} {corpus : Corpus} {spec : Spec} {draft : Draft}

/-- A draft of episodes that passed at the signature of the spec; unless they agree on steps, one of
them took another approach. -/
structure Alternative (corpus : Corpus) (digest : String → String) (spec : Spec) (draft : Draft) :
    Prop where
  facets : draft.facets = spec.signature
  passed : ∀ cited ∈ draft.evidence,
    ∃ episode ∈ corpus.sets.members spec.signature .positive, episode.identity = cited
  another : (∀ steps, draft.content ≠ .recipe steps) →
    ∃ episode ∈ corpus.sets.members spec.signature .positive,
      episode.identity ∈ draft.evidence ∧ approachHash digest episode ≠ spec.approachHash

theorem alternative_lesson {member : Episode}
    (hmember : member ∈ corpus.sets.members spec.signature .positive)
    (hother : approachHash digest member ≠ spec.approachHash)
    (hdraft : corpus.lesson? spec.signature .positive = some draft) :
    corpus.Alternative digest spec draft := by
  obtain ⟨-, -, rfl⟩ := lesson?_eq_some_iff.mp hdraft
  exact ⟨rfl, fun _ hcited ↦ mem_map.mp hcited,
    fun _ ↦ ⟨member, hmember, mem_map_of_mem hmember, hother⟩⟩

theorem alternative_pattern {other : Spec} (hspec : other ∈ corpus.specs digest .positive)
    (hsignature : other.signature = spec.signature)
    (hother : other.approachHash ≠ spec.approachHash)
    (hdraft : corpus.pattern? digest other = some draft) :
    corpus.Alternative digest spec draft := by
  obtain ⟨-, hmembers, hcount⟩ := mem_specs.mp hspec
  obtain ⟨-, rfl⟩ := pattern?_eq_some_iff.mp hdraft
  have hmember : ∀ member ∈ other.members,
      member ∈ corpus.sets.members spec.signature .positive ∧
        approachHash digest member = other.approachHash := by
    intro member hmember
    rwa [hmembers, mem_filter, decide_eq_true_iff, hsignature] at hmember
  refine ⟨hsignature, fun cited hcited ↦ ?_, fun _ ↦ ?_⟩
  · obtain ⟨member, hmem, rfl⟩ := mem_map.mp hcited
    exact ⟨member, (hmember member hmem).1, rfl⟩
  · obtain ⟨member, hmem⟩ := exists_mem_of_ne_nil _
      (members_ne_nil_of_le corpus.ruleset.patternPositive hcount)
    obtain ⟨hpassed, hhash⟩ := hmember member hmem
    exact ⟨member, hpassed, mem_map_of_mem hmem, hhash ▸ hother⟩

theorem alternative_recipe {steps : List String} {members : List Episode}
    (hgroup : (steps, members) ∈ corpus.stepGroups spec.signature)
    (hdraft : corpus.recipe? digest spec.signature steps members = some draft) :
    corpus.Alternative digest spec draft := by
  obtain ⟨-, -, rfl⟩ := recipe?_eq_some_iff.mp hdraft
  refine ⟨rfl, fun cited hcited ↦ ?_, fun hsteps ↦ absurd rfl (hsteps steps)⟩
  obtain ⟨member, hmember, rfl⟩ := mem_map.mp hcited
  rw [mem_sortedBy, (mem_stepGroups.mp hgroup).1] at hmember
  exact ⟨member, (mem_filter.mp hmember).1, rfl⟩

/-- Every alternative to the approach of a spec is the identity of such a draft of the core. -/
theorem exists_alternative {target : String} (hsignature : spec.signature ∈ corpus.sets.signatures)
    (htarget : target ∈ corpus.alternatives digest spec) :
    ∃ draft ∈ corpus.core digest, draft.identity = target ∧
      corpus.Alternative digest spec draft := by
  unfold alternatives at htarget
  dsimp only at htarget
  split at htarget
  · split at htarget
    · cases htarget
    · next lesson hlesson =>
      split at htarget
      · next hmember =>
        obtain ⟨member, hmember, hother⟩ := hmember
        cases mem_singleton.mp htarget
        exact ⟨lesson, mem_core.mpr (.inl ⟨_, hsignature, _, hlesson⟩), rfl,
          alternative_lesson hmember hother hlesson⟩
      · cases htarget
  · rw [mem_append, mem_sortedBy, mem_sortedBy, mem_map, mem_map] at htarget
    rcases htarget with ⟨⟨other, draft⟩, hmem, rfl⟩ | ⟨draft, hmem, rfl⟩
    · obtain ⟨hpattern, hother⟩ := mem_filter.mp hmem
      obtain ⟨hspec, hdraft⟩ := mem_patterns.mp hpattern
      obtain ⟨hsame, hhash⟩ := of_decide_eq_true hother
      exact ⟨draft, mem_core.mpr (.inr (.inl ⟨other, hspec, hdraft⟩)), rfl,
        alternative_pattern hspec hsame hhash hdraft⟩
    · obtain ⟨steps, members, hgroup, hdraft⟩ := mem_recipesOf.mp hmem
      have hcore := mem_core.mpr
        (.inr (.inr (.inr ⟨_, hsignature, steps, members, hgroup, hdraft⟩)))
      exact ⟨draft, hcore, rfl, alternative_recipe hgroup hdraft⟩

end Corpus

variable {digest : String → String} {corpus : Corpus} {draft : Draft} {artifact : Artifact}

/-- Only the draft of an anti-pattern has a link. -/
theorem Corpus.extra_eq_nil_or {dossiers : List Draft} (hdossiers : corpus.dossiers = .ok dossiers)
    (hdraft : draft ∈ corpus.core digest ++ dossiers ++ corpus.packs digest) :
    draft.extra = [] ∨
      ∃ spec ∈ corpus.specs digest .negative, corpus.antiPattern? digest spec = some draft := by
  rw [mem_append, mem_append] at hdraft
  rcases hdraft with (hcore | hdossier) | hpack
  · rcases mem_core.mp hcore with ⟨_, -, _, hlesson⟩ | ⟨_, -, hpattern⟩ | hanti |
      ⟨_, -, _, _, -, hrecipe⟩
    · obtain ⟨-, -, rfl⟩ := lesson?_eq_some_iff.mp hlesson
      exact .inl rfl
    · obtain ⟨-, rfl⟩ := pattern?_eq_some_iff.mp hpattern
      exact .inl rfl
    · exact .inr hanti
    · obtain ⟨-, -, rfl⟩ := recipe?_eq_some_iff.mp hrecipe
      exact .inl rfl
  · obtain ⟨project, -, hmade⟩ := Checked.exists_of_mem_mapM hdossiers hdossier
    obtain ⟨relationships, -, hdraft⟩ := Checked.bind_eq_ok_iff.mp hmade
    cases hdraft
    exact .inl rfl
  · obtain ⟨⟨name, scope⟩, -, hmade⟩ := mem_filterMap.mp hpack
    unfold pack? at hmade
    split at hmade <;> cases hmade
    exact .inl rfl

/-- The identities that an artifact names in its place. -/
def Artifact.alternatives (artifact : Artifact) : List String :=
  (artifact.envelope.relations.filter fun relation ↦ relation.relationType = .insteadOf).map
    Relation.targetId

theorem Draft.Describes.alternatives {state : DerivationState}
    (hdescribes : draft.Describes state artifact) (hcomplete : draft.Complete) :
    artifact.alternatives = draft.extra.map Prod.snd := by
  have hevidence : ((sortedBy id draft.evidence).map (⟨.evidencedBy, ·⟩ : String → Relation)).filter
      (fun relation ↦ relation.relationType = .insteadOf) = [] := by
    refine filter_eq_nil_iff.mpr fun relation hrelation ↦ ?_
    obtain ⟨target, -, rfl⟩ := mem_map.mp hrelation
    simp
  have hextra : (draft.extra.map fun relation ↦ (⟨relation.1, relation.2⟩ : Relation)).filter
      (fun relation ↦ relation.relationType = .insteadOf) =
        draft.extra.map fun relation ↦ ⟨relation.1, relation.2⟩ := by
    refine filter_eq_self.mpr fun relation hrelation ↦ ?_
    obtain ⟨link, hlink, rfl⟩ := mem_map.mp hrelation
    exact decide_eq_true (hcomplete.linked link hlink).1
  rw [Artifact.alternatives, hdescribes.relations, filter_append, hevidence, hextra, nil_append,
    map_map]
  rfl

/-- The artifact warns against an approach, and the target stands on episodes of the same facets
that passed; unless it is a recipe, one of them took another approach. -/
structure Inputs.InsteadOf (inputs : Inputs) (artifact target : Artifact) : Prop where
  warning : ∃ approach consequence contested,
    artifact.content = .antiPattern approach consequence contested ∧
      ((∀ steps, target.content ≠ .recipe steps) →
        ∃ episode ∈ inputs.evidence (.lesson artifact.envelope.facets .positive),
          episode.identity ∈ target.citations ∧
            episode.approachText ≠ JsonText.dumps approach.toJson)
  facets : target.envelope.facets = artifact.envelope.facets
  backed : target.citations ≠ []
  passed : ∀ cited ∈ target.citations,
    ∃ episode ∈ inputs.evidence (.lesson artifact.envelope.facets .positive),
      episode.identity = cited

/-- Of every corpus, overlay and ruleset from which a layer is compiled: an artifact names at most
one other in its place, and this is an artifact of the layer that stands on what passed. -/
theorem Inputs.insteadOf_of_regenerate {inputs : Inputs} {layer : Layer}
    (hlayer : regenerate inputs.digest inputs.ledger inputs.overlay inputs.ruleset = .ok layer)
    (hartifact : artifact ∈ layer.artifacts) :
    artifact.alternatives.length ≤ 1 ∧ ∀ identity ∈ artifact.alternatives,
      ∃ target ∈ layer.artifacts, target.identity = identity ∧
        inputs.InsteadOf artifact target := by
  obtain ⟨-, corpus, dossiers, hgather, hcompiled⟩ := compiled_of_regenerate hlayer
  obtain ⟨hgathered, hruleset, hruled, hepisodes, hdecisions⟩ := gather_eq_ok hgather
  have hcorpus : inputs.Gathers corpus := ⟨hgathered, hruleset, hruled, hepisodes, hdecisions⟩
  obtain ⟨draft, hdraft, hcomplete, hdescribes⟩ := hcompiled.described artifact hartifact
  rw [hdescribes.alternatives hcomplete]
  rcases extra_eq_nil_or hcompiled.listed hdraft with hnone | ⟨spec, hspec, hanti⟩
  · rw [hnone]
    exact ⟨Nat.zero_le 1, fun _ hidentity ↦ by cases hidentity⟩
  obtain ⟨hsignature, hmembers, hcount⟩ := mem_specs.mp hspec
  obtain ⟨-, rfl⟩ := antiPattern?_eq_some_iff.mp hanti
  have hextra : ((corpus.alternatives inputs.digest spec).head?.toList.map
      fun target ↦ (RelationType.insteadOf, target)).map Prod.snd =
        (corpus.alternatives inputs.digest spec).head?.toList := by
    rw [map_map]
    exact map_id _
  show (map Prod.snd (map _ _)).length ≤ 1 ∧ ∀ identity ∈ map Prod.snd (map _ _), _
  rw [hextra]
  refine ⟨?_, fun identity hidentity ↦ ?_⟩
  · cases (corpus.alternatives inputs.digest spec).head? <;> simp
  obtain ⟨found, hcore, rfl, halternative⟩ := exists_alternative hsignature
    (mem_of_mem_head? (Option.mem_toList.mp hidentity))
  obtain ⟨target, htarget, hfound⟩ := hcompiled.built found
    (mem_append_left _ (mem_append_left _ hcore))
  have hcites := hfound.citations (hgathered.complete_core hcore)
  have hpassed {episode : Episode}
      (hmember : episode ∈ corpus.sets.members spec.signature .positive) :
      episode ∈ inputs.evidence (.lesson artifact.envelope.facets .positive) := by
    rw [hcorpus.members_lesson, mem_sortedBy] at hmember
    rwa [hdescribes.facets]
  refine ⟨target, htarget, hfound.identity, ⟨_, _, _, hdescribes.content, fun hsteps ↦ ?_⟩,
    ?_, ?_, fun cited hcited ↦ ?_⟩
  · rw [hfound.content] at hsteps
    obtain ⟨episode, hmember, hcited, hother⟩ := halternative.another hsteps
    refine ⟨episode, hpassed hmember, by rwa [hcites, mem_sortedBy], fun hsame ↦ hother ?_⟩
    obtain ⟨first, rest, hlist⟩ := exists_cons_of_ne_nil
      (members_ne_nil_of_le corpus.ruleset.patternPositive hcount)
    have hfirst : first ∈ spec.members := by
      rw [hlist]
      exact mem_cons_self
    rw [hmembers, mem_filter, decide_eq_true_iff] at hfirst
    rw [← hfirst.2, approachHash, canonicalHash]
    rw [hlist] at hsame
    exact congrArg inputs.digest hsame
  · rw [hfound.facets, hdescribes.facets]
    exact halternative.facets
  · rw [hcites]
    exact fun hempty ↦ (hgathered.complete_core hcore).cited (sortedBy_eq_nil.mp hempty)
  · rw [hcites, mem_sortedBy] at hcited
    obtain ⟨episode, hmember, rfl⟩ := halternative.passed cited hcited
    exact ⟨episode, hpassed hmember, rfl⟩

theorem failed_complete : Complete "episode:e2" "trace:t2" "p1" "ros2" := {}

theorem otherApproach_ne_nil : (Mapping.single "a" (.int 2)).items ≠ [] := List.cons_ne_nil _ _

theorem failure_ne_nil : (Mapping.single "verdict" (.str "failed")).items ≠ [] :=
  List.cons_ne_nil _ _

theorem firstTrace_ne_empty : "trace:t1" ≠ "" := by decide

/-- Episode `e2`: another approach than that of `e1` failed. -/
def failedOtherwise : Record :=
  .episode (sampleEpisode (sampleEnvelope "episode:e2" "trace:t2" "p1" "ros2" failed_complete)
    (Mapping.single "a" (.int 2)) (Mapping.single "verdict" (.str "failed"))
    otherApproach_ne_nil failure_ne_nil)

/-- The two episodes, with the digests of their approaches. -/
def warnedInputs : Inputs := { Inputs.mixedInputs with
  digest := fun text ↦ if text = "\x7b\"a\":1\x7d" then "015abd7f5cc5" else "7e8059f49558"
  ledger := (Desk.run ⟨1, ["ros2"]⟩ committing
    [.offer (firstEpisode "trace:t1" firstTrace_ne_empty), .offer failedOtherwise]).gate.ledger }

/-- The approach that failed has the one that passed in its place. -/
theorem insteadOf_warned :
    ∃ layer, regenerate warnedInputs.digest warnedInputs.ledger warnedInputs.overlay
        warnedInputs.ruleset = .ok layer ∧
      ∃ artifact ∈ layer.artifacts, ∃ target ∈ layer.artifacts,
        target.identity ∈ artifact.alternatives ∧ warnedInputs.InsteadOf artifact target := by
  have hlinked : (regenerate warnedInputs.digest warnedInputs.ledger warnedInputs.overlay
      warnedInputs.ruleset).toOption.any (fun layer ↦ layer.artifacts.any fun artifact ↦
        artifact.alternatives ≠ []) = true := by
    decide +kernel
  obtain ⟨layer, hlayer⟩ : ∃ layer, regenerate warnedInputs.digest warnedInputs.ledger
      warnedInputs.overlay warnedInputs.ruleset = .ok layer :=
    regenerate_eq_ok_iff.mpr (by decide +kernel)
  rw [hlayer] at hlinked
  obtain ⟨artifact, hartifact, hlinks⟩ := any_eq_true.mp hlinked
  obtain ⟨identity, hidentity⟩ := exists_mem_of_ne_nil _ (of_decide_eq_true hlinks)
  obtain ⟨target, htarget, rfl, hinstead⟩ :=
    (Inputs.insteadOf_of_regenerate hlayer hartifact).2 identity hidentity
  exact ⟨layer, hlayer, artifact, hartifact, target, htarget, hidentity, hinstead⟩

end AbsoluteZero.Lie

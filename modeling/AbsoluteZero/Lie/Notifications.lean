import AbsoluteZero.Lie.Fidelity
import AbsoluteZero.Lie.Publications
import Mathlib.Data.List.Chain

/-!
# Change notifications

`publish` swaps the layer and tells the bus of the advice that is not what the layer before had
under its identity. Due is the advice that says something else than before or cites other evidence,
and the advice whose notification has failed. Every artifact carries the derivation state of its
layer: a layer in the state of the one before is told nothing of, and of a layer in another state
all the advice is told. So the bus is told of what is due when the state stands still with nothing
pending, or moves with all the advice due (`notifies_exactly`).
-/

namespace AbsoluteZero.Lie

open Foundations List

attribute [ext] Envelope ProjectRelationship

deriving instance DecidableEq for Origin, Relation

instance : DecidableEq (Envelope DerivationState) :=
  fun _ _ ↦ decidable_of_iff _ Envelope.ext_iff.symm

instance : DecidableEq ProjectRelationship :=
  fun _ _ ↦ decidable_of_iff _ ProjectRelationship.ext_iff.symm

deriving instance DecidableEq for Content, Artifact

/-- The envelope of `lesson.recorded`, with the state that its payload names. -/
structure LessonRecorded where
  eventId : String
  subjectRef : String
  derivationState : DerivationState
  deriving DecidableEq

structure AdvisoryInterface where
  layer : Option Layer
  eventSeq : Nat

/-- `prior_by_id`. -/
def priorById (previous : Option Layer) : OrderedDict String Artifact :=
  (previous.elim [] Layer.artifacts).foldl
    (fun dict artifact ↦ dict.insert artifact.identity artifact) .empty

/-- `_changed_advice_artifacts`; artifacts are compared with their stamps. -/
def changedAdviceArtifacts (previous : Option Layer) (layer : Layer) : List Artifact :=
  sortedBy Artifact.identity (layer.artifacts.filter fun artifact ↦
    artifact.content.advice? ≠ none ∧ (priorById previous).get? artifact.identity ≠ some artifact)

variable (takes : LessonRecorded → Bool)

/-- The loop of `publish`, with the events that the bus takes until it raises. -/
def announce (state : DerivationState) (seq : Nat) : List Artifact → Nat × List LessonRecorded
  | [] => (seq, [])
  | artifact :: rest =>
    let event := ⟨"lesson-recorded-" ++ toString (seq + 1), artifact.identity, state⟩
    if takes event then (announce state (seq + 1) rest).map id (event :: ·) else (seq + 1, [])

/-- It returns the derivation state unless the bus raises; the layer is swapped before. -/
def AdvisoryInterface.publish (interface : AdvisoryInterface) (layer : Layer) :
    AdvisoryInterface × List LessonRecorded × Option DerivationState :=
  let changed := changedAdviceArtifacts interface.layer layer
  let (seq, sent) := announce takes layer.derivationState interface.eventSeq changed
  (⟨layer, seq⟩, sent, if sent.length = changed.length then some layer.derivationState else none)

/-- The advice, its scope, the evidence it cites, its maturity and whether it is contested. -/
def Artifact.stated (artifact : Artifact) :
    Option (String × String) × List String × List String × Maturity × Bool :=
  (artifact.content.advice?, artifact.envelope.facets, artifact.citations, artifact.maturity,
    artifact.content.contested)

/-- A call of `publish`, with the advice whose notification is pending. -/
structure Publishing where
  interface : AdvisoryInterface
  pending : List String
  layer : Layer
  sent : List LessonRecorded

namespace Publishing

variable (call : Publishing)

/-- The artifact of that identity in the layer before, if it says the same. -/
def same? (artifact : Artifact) : Option Artifact :=
  ((priorById call.interface.layer).get? artifact.identity).filter fun prior ↦
    prior.stated = artifact.stated

/-- The advice that is new or different, or has not been told. -/
def due : List Artifact :=
  sortedBy Artifact.identity (call.layer.artifacts.filter fun artifact ↦
    artifact.content.advice? ≠ none ∧
      (call.same? artifact = none ∨ artifact.identity ∈ call.pending))

/-- What was due and has not been told. -/
def untold : List String :=
  (call.due.map Artifact.identity).filter fun identity ↦
    identity ∉ call.sent.map LessonRecorded.subjectRef

/-- The bus is told of what is due, one after another, until it raises. -/
def Exact : Prop :=
  call.sent = (announce takes call.layer.derivationState call.interface.eventSeq call.due).2

instance : Decidable (call.Exact takes) := inferInstanceAs (Decidable (_ = _))

/-- The derivation state of the layer before with nothing pending, or another state in which all
the advice is due. -/
def Timely (before : Layer) : Prop :=
  if before.derivationState = call.layer.derivationState then
    call.pending = [] ∧ (call.layer.artifacts.map Artifact.identity).Nodup
  else ∀ artifact ∈ call.layer.artifacts, artifact.content.advice? ≠ none →
    call.same? artifact = none ∨ artifact.identity ∈ call.pending

instance (before : Layer) : Decidable (call.Timely before) :=
  inferInstanceAs (Decidable (ite _ _ _))

end Publishing

/-- The calls that publish some layers one after another. -/
def publishings (interface : AdvisoryInterface) (pending : List String) :
    List Layer → List Publishing
  | [] => []
  | layer :: rest =>
    let (next, sent, _) := interface.publish takes layer
    let call := ⟨interface, pending, layer, sent⟩
    call :: publishings next call.untold rest

/-! ### Layers one after another -/

/-- The logs have grown, and a version names one ruleset. -/
structure Publication.GrowsTo (earlier later : Publication) : Prop where
  ledger : earlier.ledger.entries <+: later.ledger.entries
  overlay : earlier.overlay.entries <+: later.overlay.entries
  ruleset : earlier.ruleset.version = later.ruleset.version → earlier.ruleset = later.ruleset

/-- Publications one after another, each of what was regenerated from its logs. -/
def Regenerated (digest : String → String) (publications : List Publication) : Prop :=
  publications.IsChain Publication.GrowsTo ∧ ∀ publication ∈ publications,
    regenerate digest publication.ledger publication.overlay publication.ruleset =
      .ok publication.layer

/-- Every artifact has the stamp of its layer. -/
def Layer.Stamped (layer : Layer) : Prop :=
  ∀ artifact ∈ layer.artifacts, artifact.envelope.attestation = layer.derivationState

/-- Both layers are stamped, and one state means one layer. -/
structure Layer.Precedes (before after : Layer) : Prop where
  stamped : before.Stamped ∧ after.Stamped
  state : before.derivationState = after.derivationState → before = after

variable {digest : String → String} {before : Layer}

theorem stamped_of_regenerate {ledger : Ledger} {overlay : Overlay} {ruleset : DerivationRuleset}
    {layer : Layer} (hlayer : regenerate digest ledger overlay ruleset = .ok layer) :
    layer.Stamped := by
  obtain ⟨-, _, _, -, hcompiled⟩ := compiled_of_regenerate hlayer
  intro artifact hartifact
  obtain ⟨draft, -, -, hdescribes⟩ := hcompiled.described artifact hartifact
  exact hdescribes.attestation

theorem precedes_of_growsTo {earlier later : Publication} (hgrown : earlier.GrowsTo later)
    (hearlier : regenerate digest earlier.ledger earlier.overlay earlier.ruleset =
      .ok earlier.layer)
    (hlater : regenerate digest later.ledger later.overlay later.ruleset = .ok later.layer) :
    earlier.layer.Precedes later.layer := by
  refine ⟨⟨stamped_of_regenerate hearlier, stamped_of_regenerate hlater⟩, fun hsame ↦ ?_⟩
  rw [Publication.eq_of_state hearlier hlater ⟨hgrown.ledger, prefix_refl _⟩
    ⟨hgrown.overlay, prefix_refl _⟩ hgrown.ruleset hsame]

theorem mem_of_priorById {identity : String} {prior : Artifact}
    (hprior : (priorById (some before)).get? identity = some prior) :
    prior ∈ before.artifacts := by
  have hread : ∀ (artifacts : List Artifact) (dict : OrderedDict String Artifact),
      (artifacts.foldl (fun dict artifact ↦ dict.insert artifact.identity artifact) dict).get?
        identity = some prior → prior ∈ artifacts ∨ dict.get? identity = some prior := by
    intro artifacts
    induction artifacts with
    | nil => exact fun dict hget ↦ .inr hget
    | cons artifact rest ih =>
      intro dict hget
      rcases ih _ hget with hmem | hinserted
      · exact .inl (mem_cons_of_mem _ hmem)
      · rw [OrderedDict.get?_insert] at hinserted
        split at hinserted
        · exact .inl (Option.some.inj hinserted ▸ mem_cons_self)
        · exact .inr hinserted
  exact (hread _ _ hprior).resolve_right (by simp [OrderedDict.get?, OrderedDict.empty])

theorem priorById_eq_some {artifact : Artifact}
    (hdistinct : (before.artifacts.map Artifact.identity).Nodup)
    (hartifact : artifact ∈ before.artifacts) :
    (priorById (some before)).get? artifact.identity = some artifact := by
  refine (OrderedDict.get?_eq_some_iff _).mpr ?_
  have hitems := OrderedDict.items_foldl_insert Artifact.identity id .empty before.artifacts
    (by simpa [OrderedDict.keys, OrderedDict.empty] using hdistinct)
  exact hitems ▸ mem_append_right _ (mem_map_of_mem hartifact)

namespace Publishing

variable {call : Publishing}

/-- Nothing of a layer in the state before is told, and all the advice of a layer in another one. -/
theorem changedAdviceArtifacts_eq_due
    (hbefore : ∀ before ∈ call.interface.layer, before.Precedes call.layer ∧ call.Timely before) :
    changedAdviceArtifacts call.interface.layer call.layer = call.due := by
  refine congrArg (sortedBy Artifact.identity) (filter_congr fun artifact hartifact ↦ ?_)
  refine decide_eq_decide.mpr (and_congr_right fun hadvice ↦ ?_)
  have hnew : call.same? artifact = none →
      (priorById call.interface.layer).get? artifact.identity ≠ some artifact := by
    intro hsame hprior
    rw [same?, hprior] at hsame
    simp at hsame
  cases hlayer : call.interface.layer with
  | none =>
    have hnone : call.same? artifact = none := by
      rw [same?, hlayer]
      rfl
    exact iff_of_true (hlayer ▸ hnew hnone) (.inl hnone)
  | some before =>
    obtain ⟨hprecedes, htimely⟩ := hbefore before hlayer
    rw [hlayer] at hnew
    unfold Timely at htimely
    split at htimely
    · next hstate =>
      -- the layer before is this very layer
      obtain ⟨hpending, hdistinct⟩ := htimely
      obtain rfl := hprecedes.state hstate
      have hprior := priorById_eq_some hdistinct hartifact
      refine iff_of_false (not_not.mpr hprior) (not_or.mpr ⟨fun hsame ↦ hnew hsame hprior, ?_⟩)
      rw [hpending]
      exact not_mem_nil
    · next hstate =>
      -- every stamp is new
      refine iff_of_true (fun hprior ↦ hstate ?_) (htimely artifact hartifact hadvice)
      rw [← hprecedes.stamped.1 artifact (mem_of_priorById hprior),
        hprecedes.stamped.2 artifact hartifact]

end Publishing

variable {takes}

/-- A call sends what the bus takes of the notifications about what has changed, and its layer comes
after the one that was published before it. -/
theorem publishings_spec {follows : Layer → Layer → Prop} {interface : AdvisoryInterface}
    {pending : List String} {layers : List Layer} (hlayers : layers.IsChain follows)
    (hfirst : ∀ before ∈ interface.layer, ∀ layer ∈ layers.head?, follows before layer)
    {call : Publishing} (hcall : call ∈ publishings takes interface pending layers) :
    call.sent = (announce takes call.layer.derivationState call.interface.eventSeq
      (changedAdviceArtifacts call.interface.layer call.layer)).2 ∧
    ∀ before ∈ call.interface.layer, follows before call.layer := by
  induction layers generalizing interface pending with
  | nil => cases hcall
  | cons layer rest ih =>
    obtain ⟨hnext, hrest⟩ := isChain_cons.mp hlayers
    rcases mem_cons.mp hcall with rfl | hcall
    · exact ⟨rfl, fun before hbefore ↦ hfirst before hbefore layer rfl⟩
    · refine ih hrest (fun before hbefore ↦ ?_) hcall
      cases hbefore
      exact hnext

theorem Regenerated.isChain {publications : List Publication}
    (hregenerated : Regenerated digest publications) :
    (publications.map Publication.layer).IsChain Layer.Precedes :=
  (isChain_map _).mpr (hregenerated.1.imp_of_mem_imp fun _ _ hearlier hlater hgrown ↦
    precedes_of_growsTo hgrown (hregenerated.2 _ hearlier) (hregenerated.2 _ hlater))

/-- Assumes: layers regenerated one after another from logs that only grow are published on a new
interface, each in the state of the one before with nothing pending, or in another state with all
its advice due. Whatever the bus takes, it is told of exactly what is due. -/
theorem notifies_exactly {publications : List Publication}
    (hregenerated : Regenerated digest publications)
    (htimely : ∀ call ∈ publishings takes ⟨none, 0⟩ [] (publications.map Publication.layer),
      ∀ before ∈ call.interface.layer, call.Timely before) :
    ∀ call ∈ publishings takes ⟨none, 0⟩ [] (publications.map Publication.layer),
      call.Exact takes := by
  intro call hcall
  obtain ⟨hsent, hprecedes⟩ :=
    publishings_spec hregenerated.isChain (fun _ hnone ↦ by cases hnone) hcall
  rw [Publishing.Exact, ← Publishing.changedAdviceArtifacts_eq_due fun before hbefore ↦
    ⟨hprecedes before hbefore, htimely call hcall before hbefore⟩]
  exact hsent

/-- What is published of a ledger, with no rulings and the default ruleset. -/
def publicationOf (ledger : Ledger) : Publication where
  ledger := ledger
  overlay := .empty
  ruleset := defaultRuleset 1 Nat.one_pos
  layer := match regenerate Inputs.mixedInputs.digest ledger .empty
      (defaultRuleset 1 Nat.one_pos) with
    | .ok layer => layer
    | .error _ => ⟨⟨0, 0, 1⟩, []⟩

theorem attested : "trace:t1" ≠ "" := by decide

def firstPublication : Publication :=
  publicationOf (Desk.run ⟨1, ["ros2"]⟩ committing
    [.offer (firstEpisode "trace:t1" attested)]).gate.ledger

/-- The publication after another episode, in which the lesson of the first one says what it
said. -/
def grownPublication : Publication := publicationOf Inputs.mixedInputs.ledger

theorem regenerate_publicationOf {ledger : Ledger}
    (hjudged : ∀ episode ∈ freshEpisodes ledger .empty, episode.polarity? ≠ none) :
    regenerate Inputs.mixedInputs.digest ledger .empty (defaultRuleset 1 Nat.one_pos) =
      .ok (publicationOf ledger).layer := by
  obtain ⟨layer, hlayer⟩ := (@regenerate_eq_ok_iff Inputs.mixedInputs.digest ledger .empty
    (defaultRuleset 1 Nat.one_pos)).mpr hjudged
  unfold publicationOf
  rw [hlayer]

theorem regenerated_of_pair {publications : List Publication}
    (hchain : publications.IsChain Publication.GrowsTo)
    (hpublications : publications ⊆ [firstPublication, grownPublication]) :
    Regenerated Inputs.mixedInputs.digest publications := by
  refine ⟨hchain, fun publication hmem ↦ ?_⟩
  rcases mem_pair.mp (hpublications hmem) with rfl | rfl
  · exact regenerate_publicationOf (by decide +kernel)
  · exact regenerate_publicationOf (by decide +kernel)

theorem grown : firstPublication.GrowsTo grownPublication :=
  ⟨⟨[Inputs.failedEpisode], rfl⟩, prefix_refl _, fun _ ↦ rfl⟩

theorem growsTo_refl (publication : Publication) : publication.GrowsTo publication :=
  ⟨prefix_refl _, prefix_refl _, fun _ ↦ rfl⟩

/-- A bus that raises on the first notification. -/
def failing (event : LessonRecorded) : Bool := event.eventId ≠ "lesson-recorded-1"

/-- A lesson whose notification has failed is told with the next layer, and nothing is told of the
layer after it. -/
theorem notifies_exactly_grown :
    ∃ calls, publishings failing ⟨none, 0⟩ []
        ([firstPublication, grownPublication, grownPublication].map Publication.layer) = calls ∧
      calls.length = 3 ∧ ∀ call ∈ calls, call.Exact failing :=
  ⟨_, rfl, rfl, notifies_exactly (regenerated_of_pair
    (.cons_cons grown (.cons_cons (growsTo_refl _) (.singleton _))) (by simp)) (by decide +kernel)⟩

/-- A lesson is told again with the grown layer, where it says what it said. If its notification has
failed, and the layer is published again, it is not told at all. -/
theorem not_exact_grown :
    (Regenerated Inputs.mixedInputs.digest [firstPublication, grownPublication] ∧
      ¬ ∀ call ∈ publishings (fun _ ↦ true) ⟨none, 0⟩ []
        ([firstPublication, grownPublication].map Publication.layer), call.Exact fun _ ↦ true) ∧
    Regenerated Inputs.mixedInputs.digest [firstPublication, firstPublication] ∧
      ¬ ∀ call ∈ publishings failing ⟨none, 0⟩ []
        ([firstPublication, firstPublication].map Publication.layer), call.Exact failing := by
  refine ⟨⟨regenerated_of_pair (.cons_cons grown (.singleton _)) (by simp), ?_⟩,
    regenerated_of_pair (.cons_cons (growsTo_refl _) (.singleton _)) (by simp), ?_⟩
  · decide +kernel
  · decide +kernel

end AbsoluteZero.Lie

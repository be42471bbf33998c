import AbsoluteZero.Governance.Regeneration
import AbsoluteZero.Governance.Runtime

/-!
# Activation histories

An activation is two writes, the manifest and then the activation fact, and either may be rejected.
A snapshot is looked up through the first manifest of its version, so the lookup finds what was
activated unless an earlier, unpublished activation has left a different manifest
(`ActivationHistory.activated_snapshot`).
-/

namespace AbsoluteZero.Governance

open Foundations Call List

namespace PolicyStore

/-- The manifest that a snapshot version is looked up by: the first one recorded. -/
def manifestFor (store : PolicyStore) (version : Nat) : Option SnapshotManifest :=
  store.manifests.find? fun recorded ↦ recorded.snapshotVersion = version

theorem manifestFor_manifest (store : PolicyStore) (recorded : SnapshotManifest) (version : Nat) :
    (store.extended (.manifest recorded)).manifestFor version = (store.manifestFor version).or
        (if recorded.snapshotVersion = version then some recorded else none) := by
  change (store.manifests ++ [recorded]).find? _ = _
  rw [find?_append, manifestFor, find?_singleton]
  simp only [decide_eq_true_eq]

theorem permits_activation (store : PolicyStore) (fact : ActivationFact) :
    store.Permits (.activation fact) := trivial

/-- The manifest of a version stays the one it is looked up by. -/
theorem manifestFor_extended {store : PolicyStore} {version : Nat} {recorded : SnapshotManifest}
    (hrecorded : store.manifestFor version = some recorded) (payload : CatalogPayload) :
    (store.extended payload).manifestFor version = some recorded := by
  cases payload with
  | manifest other =>
    rw [manifestFor_manifest, hrecorded]
    rfl
  | _ => exact hrecorded

end PolicyStore

def Storage.CommitsTwo (storage : Storage) : Prop :=
  storage.answer = .committed ∧ storage.answers.tail.headD .committed = .committed

def PolicyStore.manifested (store : PolicyStore) (snapshot : CompiledSnapshot) : PolicyStore :=
  store.extended (.manifest (snapshot.manifest store.nextSnapshotVersion))

def PolicyStore.activated (store : PolicyStore) (snapshot : CompiledSnapshot) : PolicyStore :=
  (store.manifested snapshot).extended
    (.activation ⟨store.activeSnapshotVersion, store.nextSnapshotVersion⟩)

/-- How an activation ends: refused with nothing recorded, stopped after the manifest, or published
with both records. -/
inductive Activates (result : CompileResult) (desk : StoreDesk) :
    Except Refusal Unit → PolicyStore → Prop
  | refused (refusal : Refusal) : Activates result desk (.error refusal) desk.store
  | stopped (refusal : Refusal) (snapshot : CompiledSnapshot)
      (hsnapshot : result.snapshot = some snapshot) (hanswer : desk.storage.answer = .committed)
      (hpermits : desk.store.Permits
        (.manifest (snapshot.manifest desk.store.nextSnapshotVersion))) :
      Activates result desk (.error refusal) (desk.store.manifested snapshot)
  | published (snapshot : CompiledSnapshot) (hsnapshot : result.snapshot = some snapshot)
      (hanswers : desk.storage.CommitsTwo)
      (hpermits : desk.store.Permits
        (.manifest (snapshot.manifest desk.store.nextSnapshotVersion))) :
      Activates result desk (.ok ()) (desk.store.activated snapshot)

theorem buildManifest_eq_ok {recorded built : SnapshotManifest}
    (hbuilt : buildManifest recorded = .ok built) : built = recorded := by
  unfold buildManifest at hbuilt
  repeat' split at hbuilt
  all_goals cases hbuilt
  rfl

variable {result : CompileResult}

theorem activates_writes {desk : StoreDesk} {snapshot : CompiledSnapshot}
    (hsnapshot : result.snapshot = some snapshot) : Activates result desk
      ((appendManifest (snapshot.manifest desk.store.nextSnapshotVersion) >>= fun _ ↦
        appendActivation ⟨desk.store.activeSnapshotVersion, desk.store.nextSnapshotVersion⟩).outcome
          desk)
      ((appendManifest (snapshot.manifest desk.store.nextSnapshotVersion) >>= fun _ ↦
        appendActivation ⟨desk.store.activeSnapshotVersion, desk.store.nextSnapshotVersion⟩).after
          desk).store := by
  rw [outcome_bind, after_bind]
  rcases endsAs_manifest (snapshot.manifest desk.store.nextSnapshotVersion) desk with
    ⟨refusal, houtcome, hafter⟩ | ⟨hpermits, houtcome, hafter⟩
  · rw [houtcome, hafter]
    exact .refused refusal
  · rw [houtcome, hafter, outcome_catalogAppend]
    cases hanswer : desk.storage.answer with
    | rejected =>
      simp only [StoreDesk.appended, hanswer]
      exact .refused _
    | committed =>
      simp only [appendActivation, outcome_catalogAppend, after_catalogAppend]
      cases hnext : (desk.appended
          (.manifest (snapshot.manifest desk.store.nextSnapshotVersion))).storage.answer with
      | rejected =>
        simp only [StoreDesk.appended, hanswer] at hnext ⊢
        simp only [hnext]
        exact .stopped _ snapshot hsnapshot hanswer hpermits
      | committed =>
        have hanswers : desk.storage.CommitsTwo := ⟨hanswer, hnext⟩
        simp only [StoreDesk.appended, hanswer] at hnext ⊢
        simp only [hnext]
        exact .published snapshot hsnapshot hanswers hpermits

theorem activate_cases (result : CompileResult) (desk : StoreDesk) :
    Activates result desk ((activate result).outcome desk)
      ((activate result).after desk).store := by
  unfold activate
  rw [outcome_get_bind, after_get_bind]
  cases hsnapshot : result.snapshot with
  | none => exact .refused _
  | some snapshot =>
    simp only
    split
    · exact .refused _
    · cases hbuilt : buildManifest (snapshot.manifest desk.store.nextSnapshotVersion) with
      | error refusal => exact .refused _
      | ok built =>
        rw [buildManifest_eq_ok hbuilt]
        exact activates_writes hsnapshot

variable (digest : Json → String)

theorem rollback_cases (old : SnapshotManifest) (desk : StoreDesk) :
    (∃ refusal, (rollback digest old).outcome desk = .error refusal ∧
      (rollback digest old).after desk = desk) ∨
    ∃ result, compileSnapshot digest desk.store old.catalogPosition old.compilerRulesetVersion =
        .ok result ∧ (rollback digest old).outcome desk = (activate result).outcome desk ∧
      (rollback digest old).after desk = (activate result).after desk := by
  unfold rollback
  rw [outcome_get_bind, after_get_bind]
  cases hresult : compileSnapshot digest desk.store old.catalogPosition
      old.compilerRulesetVersion with
  | error refusal => exact .inl ⟨refusal, rfl, rfl⟩
  | ok result =>
    simp only
    split
    · exact .inl ⟨_, rfl, rfl⟩
    · exact .inr ⟨result, rfl, rfl, rfl⟩

def Append.Authored : Append → Prop
  | .manifest _ | .activation _ => False
  | _ => True

/-- What happens to a store: authored data is appended, results are activated, old manifests are
rolled back to, and snapshots are looked up. -/
inductive StoreOp
  | author (append : Append) (hauthored : append.Authored)
  | activate (result : CompileResult)
  | rollback (old : SnapshotManifest)
  | snapshotFor (version : Nat)

/-- A runtime, and the snapshots of the results whose activation facts were published, in order. -/
structure ActivationHistory where
  runtime : GovernanceRuntime
  published : List CompiledSnapshot

namespace ActivationHistory

def fresh (storage : Storage) (ledger : GrantLedger) : ActivationHistory :=
  ⟨.new storage .new ledger, []⟩

def desk (history : ActivationHistory) : StoreDesk := storePart.read history.runtime

/-- The history after a call that activates a result, if it returns. -/
def activating (history : ActivationHistory) (call : StoreCall Unit)
    (snapshot : Option CompiledSnapshot) : ActivationHistory where
  runtime := (call.on storePart).after history.runtime
  published := history.published ++
    match call.outcome history.desk with
    | .ok _ => snapshot.toList
    | .error _ => []

def perform (history : ActivationHistory) : StoreOp → ActivationHistory
  | .author append _ =>
    { history with runtime := (append.call.on storePart).after history.runtime }
  | .activate result => history.activating (Governance.activate result) result.snapshot
  | .rollback old =>
    history.activating (Governance.rollback digest old)
      ((compileSnapshot digest history.desk.store old.catalogPosition
        old.compilerRulesetVersion).toOption.bind CompileResult.snapshot)
  | .snapshotFor version =>
    { history with runtime := (Governance.snapshotFor digest version).after history.runtime }

/-- The history after some operations. -/
def run (history : ActivationHistory) (ops : List StoreOp) :
    ActivationHistory :=
  ops.foldl (perform digest) history

/-! ### What an operation does -/

/-- The part of a history that lookups depend on. -/
structure Standing where
  store : PolicyStore
  snapshots : OrderedDict Nat CompiledSnapshot
  published : List CompiledSnapshot

def standing (history : ActivationHistory) : Standing :=
  ⟨history.runtime.store, history.runtime.snapshots, history.published⟩

def activatedResult (store : PolicyStore) : StoreOp → Option CompileResult
  | .activate result => some result
  | .rollback old =>
    (compileSnapshot digest store old.catalogPosition old.compilerRulesetVersion).toOption
  | .author .. | .snapshotFor _ => none

/-- What an operation can do: nothing, append authored data, record a manifest, publish an
activation, or keep a regenerated snapshot. -/
inductive Stepped (digest : Json → String) (storage : Storage) (op : StoreOp)
    (before : Standing) : Standing → Prop
  | kept : Stepped digest storage op before before
  | authored (append : Append) (hauthored : append.Authored) (hop : op = .author append hauthored)
      (hanswer : storage.answer = .committed)
      (hpermits : before.store.Permits (append.payload before.store)) :
      Stepped digest storage op before
        { before with store := before.store.extended (append.payload before.store) }
  | manifested (result : CompileResult) (snapshot : CompiledSnapshot)
      (hresult : activatedResult digest before.store op = some result)
      (hsnapshot : result.snapshot = some snapshot) (hanswer : storage.answer = .committed)
      (hpermits : before.store.Permits
        (.manifest (snapshot.manifest before.store.nextSnapshotVersion))) :
      Stepped digest storage op before { before with store := before.store.manifested snapshot }
  | activated (result : CompileResult) (snapshot : CompiledSnapshot)
      (hresult : activatedResult digest before.store op = some result)
      (hsnapshot : result.snapshot = some snapshot) (hanswers : storage.CommitsTwo)
      (hpermits : before.store.Permits
        (.manifest (snapshot.manifest before.store.nextSnapshotVersion))) :
      Stepped digest storage op before
        { before with
          store := before.store.activated snapshot
          published := before.published ++ [snapshot] }
  | lookedUp (version : Nat) (recorded : SnapshotManifest) (snapshot : CompiledSnapshot)
      (hrecorded : before.store.manifestFor version = some recorded)
      (hregenerate : regenerate digest before.store recorded = .ok snapshot) :
      Stepped digest storage op before
        { before with snapshots := before.snapshots.insert version snapshot }

theorem stepped_author {digest : Json → String} (history : ActivationHistory) (append : Append)
    (hauthored : append.Authored) :
    Stepped digest history.runtime.storage (.author append hauthored) history.standing
      (history.perform digest (.author append hauthored)).standing := by
  have hstanding : (history.perform digest (.author append hauthored)).standing =
      { history.standing with store := (append.call.after history.desk).store } := rfl
  rw [hstanding]
  rcases append.after_call history.desk with heq | ⟨hpermits, heq⟩
  · rw [heq]
    exact .kept
  · rw [heq]
    unfold StoreDesk.appended
    cases hanswer : history.desk.storage.answer with
    | rejected => exact .kept
    | committed => exact .authored append hauthored rfl hanswer hpermits

variable {history : ActivationHistory} {op : StoreOp}

theorem stepped_activating {digest : Json → String} (call : StoreCall Unit)
    (hresult : activatedResult digest history.desk.store op = some result)
    (houtcome : call.outcome history.desk = (activate result).outcome history.desk)
    (hafter : call.after history.desk = (activate result).after history.desk) :
    Stepped digest history.runtime.storage op history.standing
      (history.activating call result.snapshot).standing := by
  have hstanding : (history.activating call result.snapshot).standing =
      ⟨((activate result).after history.desk).store, history.runtime.snapshots, history.published ++
        match (activate result).outcome history.desk with
        | .ok _ => result.snapshot.toList
        | .error _ => []⟩ := by
    rw [← houtcome, ← hafter]
    rfl
  rw [hstanding]
  have hends := activate_cases result history.desk
  generalize (activate result).outcome history.desk = outcome at hends ⊢
  generalize ((activate result).after history.desk).store = store at hends ⊢
  cases hends with
  | refused refusal =>
    simp only [append_nil]
    exact .kept
  | stopped refusal snapshot hsnapshot hanswer hpermits =>
    simp only [append_nil]
    exact .manifested result snapshot hresult hsnapshot hanswer hpermits
  | published snapshot hsnapshot hanswers hpermits =>
    simp only [hsnapshot, Option.toList_some]
    exact .activated result snapshot hresult hsnapshot hanswers hpermits

theorem stepped_snapshotFor (history : ActivationHistory) (version : Nat) :
    Stepped digest history.runtime.storage (.snapshotFor version) history.standing
      (history.perform digest (.snapshotFor version)).standing := by
  have hstanding : (history.perform digest (.snapshotFor version)).standing =
      ⟨((snapshotFor digest version).after history.runtime).store,
        ((snapshotFor digest version).after history.runtime).snapshots, history.published⟩ := rfl
  rw [hstanding]
  unfold snapshotFor
  rw [after_get_bind]
  cases hkept : history.runtime.snapshots.get? version with
  | some snapshot => exact .kept
  | none =>
    cases hrecorded : history.runtime.store.manifests.find? fun recorded ↦
        recorded.snapshotVersion = version with
    | none => exact .kept
    | some recorded =>
      simp only
      cases hregenerate : regenerate digest history.runtime.store recorded with
      | error refusal => exact .kept
      | ok snapshot => exact .lookedUp version recorded snapshot hrecorded hregenerate

theorem stepped_perform (history : ActivationHistory) (op : StoreOp) :
    Stepped digest history.runtime.storage op history.standing
      (history.perform digest op).standing := by
  cases op with
  | author append hauthored => exact stepped_author history append hauthored
  | activate result => exact stepped_activating _ rfl rfl rfl
  | snapshotFor version => exact stepped_snapshotFor digest history version
  | rollback old =>
    rcases rollback_cases digest old history.desk with
      ⟨refusal, houtcome, hafter⟩ | ⟨result, hresult, houtcome, hafter⟩
    · have hstanding : (history.perform digest (.rollback old)).standing = history.standing := by
        simp only [perform, activating, houtcome, append_nil, standing, after_on]
        rw [show storePart.read history.runtime = history.desk from rfl, hafter]
        rfl
      rw [hstanding]
      exact .kept
    · have hperform : history.perform digest (.rollback old) =
          history.activating (Governance.rollback digest old) result.snapshot := by
        simp only [perform, hresult]
        rfl
      rw [hperform]
      refine stepped_activating _ ?_ houtcome hafter
      rw [activatedResult, hresult]
      rfl

/-- Activation facts with the versions from one on, each naming the version before it. -/
def activationChain (count : Nat) : List ActivationFact :=
  (List.range count).map fun index ↦ ⟨if index = 0 then none else some index, index + 1⟩

theorem activationChain_succ (count : Nat) : activationChain (count + 1) =
      activationChain count ++ [⟨if count = 0 then none else some count, count + 1⟩] := by
  rw [activationChain, range_succ, map_append]
  rfl

/-- The catalog is sound, and there is one activation fact for each published snapshot. -/
structure Linked (standing : Standing) : Prop where
  sound : standing.store.Sound
  chain : standing.store.activations = activationChain standing.published.length

namespace Linked

variable {standing : Standing}

theorem activeSnapshotVersion (hlinked : Linked standing) : standing.store.activeSnapshotVersion =
      if standing.published.length = 0 then none else some standing.published.length := by
  rw [PolicyStore.activeSnapshotVersion, hlinked.chain]
  cases standing.published.length with
  | zero => rfl
  | succ count => simp [activationChain_succ]

theorem nextSnapshotVersion (hlinked : Linked standing) :
    standing.store.nextSnapshotVersion = standing.published.length + 1 := by
  rw [PolicyStore.nextSnapshotVersion, hlinked.activeSnapshotVersion]
  split
  · next hnone => simp [hnone]
  · rfl

theorem stepped {digest : Json → String} {storage : Storage} {after : Standing}
    (hlinked : Linked standing) (hstep : Stepped digest storage op standing after) :
    Linked after := by
  cases hstep with
  | kept => exact hlinked
  | authored append hauthored hop hanswer hpermits =>
    refine ⟨hlinked.sound.extended hpermits, Eq.trans ?_ hlinked.chain⟩
    cases append with
    | manifest recorded | activation fact => exact hauthored.elim
    | _ => rfl
  | manifested result snapshot hresult hsnapshot hanswer hpermits =>
    exact ⟨hlinked.sound.extended hpermits, hlinked.chain⟩
  | activated result snapshot hresult hsnapshot hanswers hpermits =>
    refine ⟨(hlinked.sound.extended hpermits).extended (PolicyStore.permits_activation _ _), ?_⟩
    have hlength : (standing.published ++ [snapshot]).length = standing.published.length + 1 := by
      simp
    change standing.store.activations ++ [_] = _
    rw [hlength, activationChain_succ, hlinked.chain, hlinked.activeSnapshotVersion,
      hlinked.nextSnapshotVersion]
  | lookedUp version recorded snapshot hrecorded hregenerate => exact ⟨hlinked.sound, hlinked.chain⟩

end Linked

theorem linked_run (storage : Storage) (ledger : GrantLedger)
    (ops : List StoreOp) : Linked ((fresh storage ledger).run digest ops).standing := by
  have hkeeps : ∀ (ops : List StoreOp) (history : ActivationHistory), Linked history.standing →
      Linked (history.run digest ops).standing := by
    intro ops
    induction ops with
    | nil => exact fun history hlinked ↦ hlinked
    | cons op rest ih =>
      exact fun history hlinked ↦ ih _ (hlinked.stepped (stepped_perform digest history op))
  exact hkeeps ops _ ⟨.new, rfl⟩

/-! ### Faithful histories -/

/-- The operation keeps lookups faithful. Authored data that storage commits spares what is listed
as of the manifests that are still to be regenerated. A result whose manifest storage commits is
what its position compiles to now; and if its activation is published, any manifest already recorded
under the version has its content hash. -/
def Faithful (history : ActivationHistory) (op : StoreOp) : Prop :=
  (∀ append hauthored, op = .author append hauthored →
    ∀ version recorded, history.runtime.store.manifestFor version = some recorded →
      history.runtime.snapshots.get? version = none →
      StoreDesk.Spares recorded.catalogPosition history.desk append) ∧
  ∀ result snapshot, activatedResult digest history.runtime.store op = some result →
    result.snapshot = some snapshot →
    (history.runtime.storage.answer = .committed →
      compileSnapshot digest history.runtime.store snapshot.catalogPosition
        snapshot.compilerRulesetVersion = .ok result) ∧
    (history.runtime.storage.CommitsTwo →
      ∀ recorded ∈ history.runtime.store.manifestFor history.runtime.store.nextSnapshotVersion,
        recorded.contentHash = snapshot.contentHash)

/-- Before the first manifest there is nothing to spare. -/
theorem faithful_author {digest : Json → String} {append : Append}
    {hauthored : append.Authored} (hmanifests : history.runtime.store.manifests = []) :
    history.Faithful digest (.author append hauthored) := by
  refine ⟨fun _ _ _ version recorded hrecorded _ ↦ ?_, fun result snapshot hresult ↦ ?_⟩
  · rw [PolicyStore.manifestFor, hmanifests] at hrecorded
    cases hrecorded
  · cases hresult

/-- What faithful operations keep: the registry has snapshots with the content hashes of their
manifests, the other manifests regenerate, and every published snapshot has the content hash of the
manifest of its version. -/
structure Upheld (digest : Json → String) (standing : Standing) : Prop where
  warmed : ∀ version snapshot, standing.snapshots.get? version = some snapshot →
    ∃ recorded, standing.store.manifestFor version = some recorded ∧
      snapshot.contentHash = recorded.contentHash
  regenerates : ∀ version recorded, standing.store.manifestFor version = some recorded →
    standing.snapshots.get? version = none →
    ∃ snapshot, regenerate digest standing.store recorded = .ok snapshot
  published : ∀ index snapshot, standing.published[index]? = some snapshot →
    ∃ recorded, standing.store.manifestFor (index + 1) = some recorded ∧
      recorded.contentHash = snapshot.contentHash

namespace Upheld

variable {digest : Json → String} {standing : Standing}

theorem extended (hupheld : Upheld digest standing) (hsound : standing.store.Sound)
    {payload : CatalogPayload} (hpermits : standing.store.Permits payload)
    (hspares : ∀ version recorded, standing.store.manifestFor version = some recorded →
      standing.snapshots.get? version = none →
      standing.store.Spares recorded.catalogPosition payload)
    (hnew : ∀ recorded, payload = .manifest recorded →
      ∃ snapshot, regenerate digest standing.store recorded = .ok snapshot) :
    Upheld digest { standing with store := standing.store.extended payload } where
  warmed := fun version snapshot hkept ↦ by
    obtain ⟨recorded, hrecorded, hhash⟩ := hupheld.warmed version snapshot hkept
    exact ⟨recorded, PolicyStore.manifestFor_extended hrecorded payload, hhash⟩
  regenerates := fun version recorded hrecorded hkept ↦ by
    cases hold : standing.store.manifestFor version with
    | some earlier =>
      have heq := hrecorded.symm.trans (PolicyStore.manifestFor_extended hold payload)
      cases heq
      obtain ⟨snapshot, hregenerate⟩ := hupheld.regenerates version recorded hold hkept
      exact ⟨snapshot, regenerate_extended digest hsound hpermits
        (hspares version recorded hold hkept) hregenerate⟩
    | none =>
      cases payload with
      | manifest made =>
        -- the manifest that has just been recorded is the first of its version
        simp only [PolicyStore.manifestFor_manifest, hold, Option.none_or] at hrecorded
        split at hrecorded
        · cases hrecorded
          obtain ⟨snapshot, hregenerate⟩ := hnew recorded rfl
          exact ⟨snapshot, regenerate_extended digest hsound hpermits trivial hregenerate⟩
        · cases hrecorded
      | _ => exact absurd (hold.symm.trans hrecorded) nofun
  published := fun index snapshot hindex ↦ by
    obtain ⟨recorded, hrecorded, hhash⟩ := hupheld.published index snapshot hindex
    exact ⟨recorded, PolicyStore.manifestFor_extended hrecorded payload, hhash⟩

variable {snapshot : CompiledSnapshot}

section

variable (hupheld : Upheld digest standing)

include hupheld

theorem manifested (hsound : standing.store.Sound) (hsnapshot : result.snapshot = some snapshot)
    (hpermits : standing.store.Permits
      (.manifest (snapshot.manifest standing.store.nextSnapshotVersion)))
    (hcompiles : compileSnapshot digest standing.store snapshot.catalogPosition
      snapshot.compilerRulesetVersion = .ok result) :
    Upheld digest { standing with store := standing.store.manifested snapshot } := by
  refine hupheld.extended hsound hpermits (fun _ _ _ _ ↦ trivial) fun recorded heq ↦ ?_
  cases heq
  exact ⟨snapshot, regenerate_of_compiles digest hcompiles hsnapshot rfl⟩

theorem lookedUp {version : Nat} {recorded : SnapshotManifest}
    (hrecorded : standing.store.manifestFor version = some recorded)
    (hregenerate : regenerate digest standing.store recorded = .ok snapshot) :
    Upheld digest { standing with snapshots := standing.snapshots.insert version snapshot } where
  warmed := fun version' snapshot' hkept ↦ by
    rw [OrderedDict.get?_insert] at hkept
    split at hkept
    · next heq =>
      cases hkept
      exact ⟨recorded, heq ▸ hrecorded, contentHash_of_regenerate digest hregenerate⟩
    · exact hupheld.warmed version' snapshot' hkept
  regenerates := fun version' recorded' hrecorded' hkept ↦ by
    rw [OrderedDict.get?_insert] at hkept
    split at hkept
    · cases hkept
    · exact hupheld.regenerates version' recorded' hrecorded' hkept
  published := hupheld.published

theorem activated (hlinked : Linked standing) (hsnapshot : result.snapshot = some snapshot)
    (hpermits : standing.store.Permits
      (.manifest (snapshot.manifest standing.store.nextSnapshotVersion)))
    (hcompiles : compileSnapshot digest standing.store snapshot.catalogPosition
      snapshot.compilerRulesetVersion = .ok result)
    (hhash : ∀ recorded ∈ standing.store.manifestFor standing.store.nextSnapshotVersion,
      recorded.contentHash = snapshot.contentHash) : Upheld digest { standing with
        store := standing.store.activated snapshot
        published := standing.published ++ [snapshot] } := by
  have hmanifested := hupheld.manifested hlinked.sound hsnapshot hpermits hcompiles
  have hextended := hmanifested.extended (hlinked.sound.extended hpermits)
    (PolicyStore.permits_activation _
      ⟨standing.store.activeSnapshotVersion, standing.store.nextSnapshotVersion⟩)
    (fun _ _ _ _ ↦ trivial) nofun
  refine ⟨hextended.warmed, hextended.regenerates, fun index snapshot' hindex ↦ ?_⟩
  rcases lt_or_ge index standing.published.length with hlt | hge
  · rw [getElem?_append_left hlt] at hindex
    exact hextended.published index snapshot' hindex
  · rw [getElem?_append_right hge] at hindex
    have hzero : index - standing.published.length = 0 := by
      by_contra hne
      rw [getElem?_singleton, if_neg hne] at hindex
      cases hindex
    rw [hzero] at hindex
    cases hindex
    have hnext : standing.store.nextSnapshotVersion = index + 1 := by
      rw [hlinked.nextSnapshotVersion]
      omega
    change ∃ recorded, (standing.store.manifested snapshot).manifestFor (index + 1) =
      some recorded ∧ _
    rw [PolicyStore.manifested, PolicyStore.manifestFor_manifest, ← hnext]
    cases hold : standing.store.manifestFor standing.store.nextSnapshotVersion with
    | some recorded => exact ⟨recorded, rfl, hhash recorded hold⟩
    | none => exact ⟨_, if_pos rfl, rfl⟩

end

end Upheld

theorem upheld_perform {digest : Json → String}
    (hlinked : Linked history.standing) (hfaithful : history.Faithful digest op)
    (hupheld : Upheld digest history.standing) :
    Upheld digest (history.perform digest op).standing := by
  have hstep := stepped_perform digest history op
  obtain ⟨hauthoring, hactivating⟩ := hfaithful
  generalize (history.perform digest op).standing = after at hstep
  cases hstep with
  | kept => exact hupheld
  | authored append hauthored hop hanswer hpermits =>
    refine hupheld.extended hlinked.sound hpermits (fun version recorded hrecorded hkept ↦ ?_)
      fun recorded heq ↦ ?_
    · exact hauthoring append hauthored hop version recorded hrecorded hkept hanswer
    · cases append with
      | manifest recorded => exact hauthored.elim
      | _ => cases heq
  | manifested result snapshot hresult hsnapshot hanswer hpermits =>
    have hcompiles := (hactivating result snapshot hresult hsnapshot).1 hanswer
    exact hupheld.manifested hlinked.sound hsnapshot hpermits hcompiles
  | activated result snapshot hresult hsnapshot hanswers hpermits =>
    obtain ⟨hcompiles, hhash⟩ := hactivating result snapshot hresult hsnapshot
    exact hupheld.activated hlinked hsnapshot hpermits (hcompiles hanswers.1) (hhash hanswers)
  | lookedUp version recorded snapshot hrecorded hregenerate =>
    exact hupheld.lookedUp hrecorded hregenerate

theorem Upheld.snapshotFor {digest : Json → String}
    (hupheld : Upheld digest history.standing) {index : Nat} {snapshot : CompiledSnapshot}
    (hindex : history.published[index]? = some snapshot) :
    ∃ found, (Governance.snapshotFor digest (index + 1)).outcome history.runtime = .ok found ∧
      found.contentHash = snapshot.contentHash := by
  obtain ⟨recorded, hrecorded, hhash⟩ := hupheld.published index snapshot hindex
  unfold Governance.snapshotFor
  rw [outcome_get_bind]
  cases hkept : history.runtime.snapshots.get? (index + 1) with
  | some found =>
    obtain ⟨recorded', hrecorded', hfound⟩ := hupheld.warmed (index + 1) found hkept
    cases hrecorded.symm.trans hrecorded'
    exact ⟨found, rfl, hfound.trans hhash⟩
  | none =>
    obtain ⟨found, hregenerate⟩ := hupheld.regenerates (index + 1) recorded hrecorded hkept
    refine ⟨found, ?_, (contentHash_of_regenerate digest hregenerate).trans hhash⟩
    rw [show (history.runtime.store.manifests.find? fun recorded ↦
      recorded.snapshotVersion = index + 1) = some recorded from hrecorded]
    have hok : regenerate digest history.runtime.store recorded = .ok found := hregenerate
    simp only [hok]
    rfl

/-- In every history the activation facts number the versions from one, each naming the one before.
Assumes for the lookup: every operation is faithful. Then every published version is looked up as a
snapshot with the content hash of the result that was activated; the active version is the last
one. -/
theorem activated_snapshot (storage : Storage) (ledger : GrantLedger) (ops : List StoreOp) :
    let history := (fresh storage ledger).run digest ops
    history.runtime.store.activations = activationChain history.published.length ∧
    (IsPlan (perform digest) (Faithful digest) (fresh storage ledger) ops →
      ∀ version, history.runtime.activeSnapshotVersion = some version →
        ∃ snapshot, history.published.getLast? = some snapshot ∧
          ∃ found, (Governance.snapshotFor digest version).outcome history.runtime = .ok found ∧
            found.contentHash = snapshot.contentHash) := by
  intro history
  have hlinked : Linked history.standing := linked_run digest storage ledger ops
  refine ⟨hlinked.chain, fun hplan version hactive ↦ ?_⟩
  have hupheld : Linked history.standing ∧ Upheld digest history.standing := by
    refine hplan.keeps (fun history ↦ Linked history.standing ∧ Upheld digest history.standing)
      (fun history op hfaithful hstate ↦ ⟨hstate.1.stepped (stepped_perform digest history op),
        upheld_perform hstate.1 hfaithful hstate.2⟩) ⟨⟨.new, rfl⟩, nofun, nofun, nofun⟩
  have hlast : history.published.length = version ∧ history.published.length ≠ 0 := by
    have hversion := hlinked.activeSnapshotVersion.symm.trans hactive
    split at hversion
    · cases hversion
    · next hne => exact ⟨Option.some.inj hversion, hne⟩
  obtain ⟨rfl, hne⟩ := hlast
  obtain ⟨count, hcount⟩ := Nat.exists_eq_succ_of_ne_zero hne
  obtain ⟨snapshot, hindex⟩ : ∃ snapshot, history.published[count]? = some snapshot :=
    ⟨_, getElem?_eq_getElem (by omega)⟩
  refine ⟨snapshot, ?_, ?_⟩
  · rw [getLast?_eq_getElem?, hcount]
    exact hindex
  · rw [hcount]
    exact hupheld.2.snapshotFor hindex

/-- A store with a vocabulary and a document, over a storage that has answers left. -/
def sampleHistory (answers : List WriteAnswer) : ActivationHistory :=
  (fresh ⟨.empty, answers⟩ .new).run Json.repr
    [.author (.vocabulary defaultVocabulary) trivial,
      .author (.document (sampleDocument "baseline" allowRun) true) trivial]

def sampleResult : CompileResult :=
  compileAssembled Json.repr (assemble (sampleHistory []).runtime.store 2) 2 defaultVocabulary 1

def sampleOps : List StoreOp :=
  [.author (.vocabulary defaultVocabulary) trivial,
    .author (.document (sampleDocument "baseline" allowRun) true) trivial, .activate sampleResult]

/-- What was activated is looked up. -/
theorem activated_snapshot_sample :
    let history := (fresh ⟨.empty, []⟩ .new).run Json.repr sampleOps
    ∃ snapshot, history.published.getLast? = some snapshot ∧
      ∃ found, (Governance.snapshotFor Json.repr 1).outcome history.runtime = .ok found ∧
        found.contentHash = snapshot.contentHash := by
  have hplan : IsPlan (perform Json.repr) (Faithful Json.repr) (fresh ⟨.empty, []⟩ .new)
      sampleOps := by
    refine ⟨?_, ?_, ?_, trivial⟩
    · exact faithful_author rfl
    · exact faithful_author rfl
    · refine ⟨nofun, fun result snapshot hresult hsnapshot ↦ ⟨fun _ ↦ ?_, fun _ _ hnext ↦ ?_⟩⟩
      all_goals cases hresult
      swap
      · cases hnext
      have hcompiles : compileSnapshot Json.repr (sampleHistory []).runtime.store 2 1 =
        .ok sampleResult := rfl
      exact compiles_at Json.repr hcompiles hsnapshot
  exact (activated_snapshot Json.repr ⟨.empty, []⟩ .new sampleOps).2 hplan 1 (by decide +kernel)

def activatingAt (history : ActivationHistory) (position : Nat) : ActivationHistory :=
  match compileSnapshot Json.repr history.runtime.store position 1 with
  | .ok result => history.perform Json.repr (.activate result)
  | .error _ => history

def lookedUpHash (history : ActivationHistory) (version : Nat) : Option String :=
  ((Governance.snapshotFor Json.repr version).outcome history.runtime).toOption.map
    CompiledSnapshot.contentHash

def publishedHash (history : ActivationHistory) : Option String :=
  history.published.getLast?.map CompiledSnapshot.contentHash

/-- The activation fact of a first result is rejected after its manifest, a document is added, and
the activation is retried with the result of the larger policy set: version one is published for the
second result and looked up as the first. -/
theorem retry_publishes_another :
    let stopped := (sampleHistory [.committed, .committed, .committed, .rejected]).activatingAt 2
    let retried := (stopped.perform Json.repr
      (.author (.document (sampleDocument "second" allowRun) true) trivial)).activatingAt 4
    stopped.runtime.activeSnapshotVersion = none ∧
      retried.runtime.activeSnapshotVersion = some 1 ∧
      (retried.lookedUpHash 1).isSome ∧ retried.lookedUpHash 1 ≠ retried.publishedHash := by
  decide +kernel

end ActivationHistory

end AbsoluteZero.Governance

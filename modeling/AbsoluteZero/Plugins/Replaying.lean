import AbsoluteZero.Plugins.Deliveries
import AbsoluteZero.Plugins.Resolution

/-!
# Replayed bindings

A runtime stays sound over every history (`PluginRuntime.Sound.after`). A contract cites a version
and a snapshot, and with them it is bound again at every later point
(`PluginRuntime.replayBind_of_bound`); its provider is the first of those that can be bound
(`PluginRuntime.bindings_replay`).
-/

namespace AbsoluteZero.Plugins

open Foundations JsonText Reading OrderedDict List

/-! ### Stored snapshots -/

/-- The `repr` of the number is read back as it. -/
def Floats.Readable (floats : Floats) (number : FloatNumber) : Prop :=
  floats.reader.read number.text = some (number.value, number.text)

/-- Every reliability of the snapshot is read back as it is. -/
def HealthSnapshot.Readable (floats : Floats) (snapshot : HealthSnapshot) : Prop :=
  ∀ entry ∈ snapshot.values, floats.Readable entry.reliability

theorem canonical_healthEntry (entry : HealthEntry) : entry.toJson.canonical = entry.toJson := by
  simp only [HealthEntry.toJson, FloatNumber.toJson, Json.canonical, Json.canonicalFields,
    Json.insertField]
  rw [if_neg (by decide)]

theorem ofJson_toJson (entry : HealthEntry) : HealthEntry.ofJson entry.toJson = some entry := by
  rfl

theorem toJson_inj {first second : HealthEntry} (heq : first.toJson = second.toJson) :
    first = second := by
  have hread := ofJson_toJson first
  rw [heq, ofJson_toJson] at hread
  exact (Option.some.inj hread).symm

variable {floats : Floats} {snapshot : HealthSnapshot}

theorem holdable_snapshot (hreadable : snapshot.Readable floats) :
    Holdable floats.reader snapshot.toJson := by
  refine ⟨?_, holdableFields_iff.mpr ?_⟩
  · rw [map_map]
    exact snapshot.nodup
  · intro field hfield
    obtain ⟨item, hitem, rfl⟩ := mem_map.mp hfield
    have hread := hreadable item.2 (mem_map_of_mem hitem)
    simp only [HealthEntry.toJson, FloatNumber.toJson, Holdable, HoldableFields,
      map_cons, map_nil, true_and, and_true]
    exact ⟨by simp, floats.reader.spells _ _ _ hread⟩

theorem exists_read_snapshot (hreadable : snapshot.Readable floats) : ∃ copy : HealthSnapshot,
      (loads floats.reader snapshot.canonicalText).bind (dict? HealthEntry.ofJson) =
        some copy ∧ snapshot.SameEntries copy ∧ copy.canonicalText = snapshot.canonicalText := by
  obtain ⟨copy, hread, hwritten⟩ :=
    @readsBack_dict HealthEntry HealthEntry.ofJson HealthEntry.toJson snapshot fun entry _ ↦
      ⟨entry, by rw [canonical_healthEntry, ofJson_toJson], rfl⟩
  refine ⟨copy, ?_, fun providerId ↦ ?_, ?_⟩
  · unfold HealthSnapshot.canonicalText
    rw [loads_dumps (holdable_snapshot hreadable)]
    exact hread
  · have hlookup := congrArg (fun value ↦ Json.get? value providerId) hwritten
    simp only [writeDict, get?_canonical] at hlookup
    have hfind (dict : HealthSnapshot) : (OrderedDict.find providerId
        (dict.items.map fun item ↦ (item.1, item.2.toJson))).map Json.canonical =
          (dict.get? providerId).map HealthEntry.toJson := by
      change ((dict.mapValues HealthEntry.toJson).get? providerId).map Json.canonical = _
      rw [get?_mapValues]
      cases dict.get? providerId with
      | none => rfl
      | some entry => exact congrArg some (canonical_healthEntry entry)
    rw [hfind, hfind] at hlookup
    cases hentry : snapshot.get? providerId with
    | none =>
      rw [hentry] at hlookup
      exact (Option.map_eq_none_iff.mp hlookup).symm
    | some entry =>
      rw [hentry] at hlookup
      obtain ⟨other, hother, heq⟩ := Option.map_eq_some_iff.mp hlookup
      rw [hother, toJson_inj heq]
  · exact congrArg (fun value ↦ String.ofList (write [','] [':'] value)) hwritten

/-- The reliability of a provider is the neutral one or that of an update. -/
theorem reliability_health {property : FloatNumber → Prop} (thresholds : Thresholds)
    {observations : List Observation} (hinitial : property initialCarry.reliability)
    (hupdates : ∀ update ∈ updates observations, property update.1) :
    property (health thresholds observations).reliability := by
  induction observations using List.reverseRecOn with
  | nil => exact hinitial
  | append_singleton observations observation ih =>
    rw [updates_append] at hupdates
    have hearlier := ih fun update hupdate ↦ hupdates update (mem_append_left _ hupdate)
    unfold health at hearlier ⊢
    rw [foldl_append]
    cases observation with
    | live kind | admin kind => cases kind <;> exact hearlier
    | priors prior priorsVersion =>
      exact hupdates (prior, priorsVersion) (mem_append_right _ mem_cons_self)

/-- Every prior of the journal is read back as it is. -/
def JournalReadable (floats : Floats) (journal : EvidenceJournal) : Prop :=
  ∀ entry ∈ journal, ∀ update ∈ entry.observation.update?, floats.Readable update.1

theorem JournalReadable.reliability {journal : EvidenceJournal}
    (hjournal : JournalReadable floats journal) (thresholds : Thresholds) (key : DictKey) :
    floats.Readable (health thresholds (entriesFor journal key)).reliability := by
  refine reliability_health thresholds floats.half_read fun update hupdate ↦ ?_
  obtain ⟨observation, hobservation, hupdate⟩ := mem_filterMap.mp hupdate
  obtain ⟨entry, hentry, rfl⟩ := mem_map.mp hobservation
  exact hjournal entry (mem_of_mem_filter hentry) update hupdate

theorem JournalReadable.append {journal later : EvidenceJournal}
    (hjournal : JournalReadable floats journal) (hlater : JournalReadable floats later) :
    JournalReadable floats (journal ++ later) := by
  intro entry hentry
  rcases mem_append.mp hentry with hold | hnew
  · exact hjournal entry hold
  · exact hlater entry hnew

theorem readable_entryOf (floats : Floats) (message : Json) :
    JournalReadable floats (entryOf floats message).toList := by
  have houtcome : ∀ kind, JournalReadable floats (outcomeEntry message kind).toList := by
    intro kind entry hentry update hupdate
    unfold outcomeEntry at hentry
    split at hentry
    · rw [mem_singleton.mp hentry] at hupdate
      cases hupdate
    · cases hentry
  unfold entryOf
  split
  · intro entry hentry update hupdate
    cases hread : priorsEntry floats message with
    | error fault =>
      rw [hread] at hentry
      cases hentry
    | ok found =>
      rw [hread] at hentry
      rw [mem_singleton.mp hentry] at hupdate
      obtain ⟨providerId, -, hread⟩ := Checked.bind_eq_ok_iff.mp hread
      obtain ⟨prior, -, hread⟩ := Checked.bind_eq_ok_iff.mp hread
      obtain ⟨priorsVersion, -, hread⟩ := Checked.bind_eq_ok_iff.mp hread
      split at hread
      · cases hread
      · next number hnumber =>
        cases hread
        cases hupdate
        exact floats.convert_read prior number hnumber
  · exact houtcome .failed
  · exact houtcome .timeout
  · exact houtcome .completed
  · intro entry hentry
    cases hentry

/-- The provider is neither disabled nor in quarantine or on its way out of it. -/
def Carry.Healthy (carry : Carry) : Prop :=
  carry.disabled = false ∧
    (carry.state = .healthy ∨ carry.state = .degraded ∨ carry.state = .recovered)

theorem availability_ofCarry_iff {carry : Carry} :
    (HealthEntry.ofCarry carry).availability = "available" ↔ carry.Healthy := by
  unfold HealthEntry.ofCarry Carry.effective Carry.Healthy
  cases carry.disabled <;> cases carry.state <;> simp

/-- A provider comes before another one or is it: by the declared preference, then by the higher
reliability, then by the smaller id. -/
def Precedes (preference : List String) (reliability : String → Rat) (first second : String) :
    Prop :=
  preference.idxOf first < preference.idxOf second ∨
    preference.idxOf first = preference.idxOf second ∧
      (reliability second < reliability first ∨
        reliability first = reliability second ∧ first ≤ second)

variable {preference : List String}

theorem get?_foldl_zipIdx (hnodup : preference.Nodup)
    (offset : Nat) (ranks : OrderedDict String Nat) (providerId : String) :
    ((preference.zipIdx offset).foldl (fun ranks item ↦ ranks.insert item.1 item.2) ranks).get?
        providerId = if providerId ∈ preference then some (offset + preference.idxOf providerId)
      else ranks.get? providerId := by
  induction preference generalizing offset ranks with
  | nil => rfl
  | cons head rest ih =>
    obtain ⟨hhead, hrest⟩ := nodup_cons.mp hnodup
    rw [zipIdx_cons, foldl_cons, ih hrest, get?_insert]
    by_cases hmem : providerId ∈ rest
    · have hne : head ≠ providerId := by
        rintro rfl
        exact hhead hmem
      rw [if_pos hmem, if_pos (mem_cons_of_mem _ hmem), idxOf_cons_ne _ hne]
      exact congrArg some (by omega)
    · rw [if_neg hmem]
      by_cases heq : head = providerId
      · subst heq
        rw [if_pos rfl, if_pos mem_cons_self, idxOf_cons_self]
        rfl
      · rw [if_neg heq, if_neg]
        rw [mem_cons, not_or]
        exact ⟨fun hsame ↦ heq hsame.symm, hmem⟩

theorem rank_eq_idxOf (hnodup : preference.Nodup) (providerId : String) :
    rank preference providerId = preference.idxOf providerId := by
  unfold rank prefRank
  rw [get?_foldl_zipIdx hnodup 0]
  by_cases hmem : providerId ∈ preference
  · rw [if_pos hmem, Nat.zero_add]
    rfl
  · rw [if_neg hmem, idxOf_eq_length hmem]
    rfl

theorem sortKey_le_iff (hnodup : preference.Nodup) {first second : String} :
    sortKey preference snapshot first ≤ sortKey preference snapshot second ↔
      Precedes preference snapshot.reliability first second := by
  unfold sortKey Precedes
  rw [Prod.Lex.toLex_le_toLex, Prod.Lex.toLex_le_toLex, rank_eq_idxOf hnodup,
    rank_eq_idxOf hnodup, neg_lt_neg_iff, neg_inj]

namespace PluginRuntime

/-! ### Soundness -/

def HonestSnapshots (setup : Setup) (storage : OrderedDict String String) : Prop :=
  ∀ hash text, storage.get? (artifactKey hash) = some text → setup.digest text = hash ∧
    ∃ snapshot : HealthSnapshot, snapshot.Readable setup.floats ∧ text = snapshot.canonicalText

/-- What holds of a runtime over every history. -/
structure Sound (setup : Setup) (thresholds : Thresholds) (runtime : PluginRuntime) : Prop where
  folding : runtime.Folding thresholds
  readable : JournalReadable setup.floats runtime.journal
  named : runtime.registry.All Content.Named
  honest : HonestSnapshots setup runtime.storage

/-- The versions and the stored snapshots of the earlier runtime are there still. -/
structure Extends (later earlier : PluginRuntime) : Prop where
  registry : ∃ mutations, later.registry = earlier.registry.offer Content.handle mutations
  snapshots : ∀ hash text, earlier.storage.get? (artifactKey hash) = some text →
    later.storage.get? (artifactKey hash) = some text

theorem Extends.refl (runtime : PluginRuntime) : runtime.Extends runtime :=
  ⟨⟨[], rfl⟩, fun _ _ hstored ↦ hstored⟩

theorem Extends.trans {first second third : PluginRuntime} (hthird : third.Extends second)
    (hsecond : second.Extends first) : third.Extends first where
  registry := by
    obtain ⟨mutations, hmutations⟩ := hsecond.registry
    obtain ⟨later, hlater⟩ := hthird.registry
    refine ⟨mutations ++ later, ?_⟩
    rw [hlater, hmutations]
    exact (foldl_append ..).symm
  snapshots hash text hstored := hthird.snapshots hash text (hsecond.snapshots hash text hstored)

variable {setup : Setup} {thresholds : Thresholds} {runtime later : PluginRuntime}

theorem Sound.offer (hsound : runtime.Sound setup thresholds) (mutations : List Mutation) :
    Sound setup thresholds
      { runtime with registry := runtime.registry.offer Content.handle mutations } :=
  { hsound with
    folding := ⟨hsound.folding.synced, hsound.folding.thresholds, hsound.folding.table⟩
    named := Registry.all_named_offer hsound.named mutations }

/-- A key that is no snapshot's may be written. -/
theorem HonestSnapshots.insert {storage : OrderedDict String String}
    (hhonest : HonestSnapshots setup storage) {key text : String}
    (hkey : ∀ hash, key ≠ artifactKey hash) : HonestSnapshots setup (storage.insert key text) := by
  intro hash stored hstored
  rw [get?_insert, if_neg (hkey hash)] at hstored
  exact hhonest hash stored hstored

theorem letter_artifactKey (hash : String) : (artifactKey hash).toList[4]? = some 'h' := by
  unfold artifactKey
  rw [String.toList_append, getElem?_append_left (by decide)]
  decide

theorem artifactKey_inj {first second : String} (heq : artifactKey first = artifactKey second) :
    first = second := by
  exact String.append_right_inj _ |>.mp heq

theorem snapshotKey_ne_artifactKey (hash : String) : snapshotKey ≠ artifactKey hash := by
  intro heq
  have hletter := letter_artifactKey hash
  rw [← heq] at hletter
  revert hletter
  decide

theorem admissionKey_ne_artifactKey (declarationHash hash : String) :
    "prt/admission/" ++ declarationHash ≠ artifactKey hash := by
  intro heq
  have hletter := letter_artifactKey hash
  rw [← heq, String.toList_append, getElem?_append_left (by decide)] at hletter
  revert hletter
  decide

/-! ### Every act -/

theorem offer_of_applied {registry registry' : Registry} {mutation : Mutation}
    (happlied : applied registry mutation = .ok registry') :
    registry' = registry.offer Content.handle [mutation] := by
  unfold applied at happlied
  split at happlied
  · next heq =>
    cases happlied
    exact (congrArg Prod.fst heq).symm
  · cases happlied

theorem offer_of_enact {registry registry' : Registry} {entity : String} {id toState : Json}
    (henact : enactLifecycleEvent registry entity id toState = .ok registry') :
    ∃ mutations, registry' = registry.offer Content.handle mutations := by
  unfold enactLifecycleEvent at henact
  split at henact
  · split at henact
    · split at henact
      · next happlied =>
        cases henact
        exact ⟨_, offer_of_applied happlied⟩
      · cases henact
    · split at henact
      · split at henact <;> cases henact
      · cases henact
  · cases henact

theorem registry_handleEvent (floats : Floats) (runtime : PluginRuntime) (message : Json) :
    (∃ mutations, (runtime.handleEvent floats message).1.registry =
      runtime.registry.offer Content.handle mutations) ∧
    (runtime.handleEvent floats message).1.storage = runtime.storage := by
  have houtcome : ∀ kind, (runtime.handleOutcome message kind).1.registry = runtime.registry ∧
      (runtime.handleOutcome message kind).1.storage = runtime.storage := by
    intro kind
    unfold handleOutcome recordOutcome
    split
    · split <;> exact ⟨rfl, rfl⟩
    · exact ⟨rfl, rfl⟩
  unfold handleEvent
  cases eventOf message with
  | error fault => exact ⟨⟨[], rfl⟩, rfl⟩
  | ok event =>
    cases event with
    | lifecycleChanged =>
      simp only [dispatch, handleLifecycle]
      split
      · split
        · exact ⟨⟨[], rfl⟩, rfl⟩
        · split
          · exact ⟨⟨[], rfl⟩, rfl⟩
          · split
            · exact ⟨⟨[], rfl⟩, rfl⟩
            · split
              · exact ⟨⟨[], rfl⟩, rfl⟩
              · next henact => exact ⟨offer_of_enact henact, rfl⟩
      all_goals exact ⟨⟨[], rfl⟩, rfl⟩
    | reliabilityUpdated =>
      simp only [dispatch, consumeReliabilityUpdate]
      split <;> exact ⟨⟨[], rfl⟩, rfl⟩
    | execFailed => exact ⟨⟨[], (houtcome .failed).1⟩, (houtcome .failed).2⟩
    | execTimeout => exact ⟨⟨[], (houtcome .timeout).1⟩, (houtcome .timeout).2⟩
    | execCompleted => exact ⟨⟨[], (houtcome .completed).1⟩, (houtcome .completed).2⟩

def Follows (setup : Setup) (thresholds : Thresholds) (later earlier : PluginRuntime) : Prop :=
  later.Sound setup thresholds ∧ later.Extends earlier

theorem Follows.trans {first second third : PluginRuntime}
    (hthird : third.Follows setup thresholds second)
    (hsecond : second.Follows setup thresholds first) : third.Follows setup thresholds first :=
  ⟨hthird.1, hthird.2.trans hsecond.2⟩

section

variable (hsound : runtime.Sound setup thresholds)

include hsound

theorem Sound.follows_of_ports
    (topics : OrderedDict String (List Json)) (loadStates : OrderedDict String LoadState) :
    Follows setup thresholds { runtime with topics, loadStates } runtime :=
  ⟨{ hsound with
      folding := ⟨hsound.folding.synced, hsound.folding.thresholds, hsound.folding.table⟩ },
    ⟨[], rfl⟩, fun _ _ hstored ↦ hstored⟩

theorem Sound.handleEvent (message : Json) :
    (runtime.handleEvent setup.floats message).1.Follows setup thresholds runtime := by
  obtain ⟨hfolding, hjournal⟩ := handleEvent_keeps setup.floats hsound.folding message
  obtain ⟨⟨mutations, hregistry⟩, hstorage⟩ := registry_handleEvent setup.floats runtime message
  refine ⟨⟨hfolding, ?_, ?_, ?_⟩, ⟨mutations, hregistry⟩, ?_⟩
  · rw [hjournal]
    exact hsound.readable.append (readable_entryOf setup.floats message)
  · rw [hregistry]
    exact Registry.all_named_offer hsound.named mutations
  · rw [hstorage]
    exact hsound.honest
  · rw [hstorage]
    exact fun _ _ hstored ↦ hstored

theorem Sound.handleAll (messages : List Json) :
    (runtime.handleAll setup.floats messages).runtime.Follows setup thresholds runtime := by
  induction messages generalizing runtime with
  | nil => exact ⟨hsound, .refl runtime⟩
  | cons message rest ih =>
    have hnext := hsound.handleEvent message
    unfold PluginRuntime.handleAll
    split
    · next next hcall =>
      rw [hcall] at hnext
      exact (ih hnext.1).trans hnext
    · next next fault hcall =>
      rw [hcall] at hnext
      exact hnext

theorem Sound.drained (topic : ConsumedEvent) :
    (runtime.drained topic).Follows setup thresholds runtime := by
  unfold PluginRuntime.drained
  split
  · exact ⟨hsound, .refl runtime⟩
  · exact hsound.follows_of_ports _ _

theorem Sound.drainTopics (topics : List ConsumedEvent) :
    (runtime.drainTopics setup.floats topics).runtime.Follows setup thresholds runtime := by
  induction topics generalizing runtime with
  | nil => exact ⟨hsound, .refl runtime⟩
  | cons topic topics ih =>
    have hdrained := hsound.drained topic
    have hfirst := (hdrained.1.handleAll (runtime.messages topic)).trans hdrained
    unfold PluginRuntime.drainTopics
    simp only
    split
    · exact hfirst
    · exact (ih hfirst.1).trans hfirst

end

/-- Assumes: the manager folds the journal. A snapshot has the health of the providers that it is
taken of, and the manager folds the journal after it. -/
theorem snapshotOf_spec (journal : EvidenceJournal) {legality : LifecycleLegality HealthState}
    (htable : legality.table = healthTransitions) (providerIds : List String)
    (snapshot : HealthSnapshot) {manager : HealthManager} (hsynced : manager.Synced journal) :
    (∀ providerId, (snapshotOf journal legality providerIds snapshot manager).1.get? providerId =
      if providerId ∈ providerIds then some (HealthEntry.ofCarry
          (Plugins.health manager.thresholds (entriesFor journal (.text providerId))))
      else snapshot.get? providerId) ∧
    (snapshotOf journal legality providerIds snapshot manager).2.Synced journal ∧
    (snapshotOf journal legality providerIds snapshot manager).2.thresholds =
      manager.thresholds := by
  induction providerIds generalizing snapshot manager with
  | nil => exact ⟨fun providerId ↦ by simp [snapshotOf], hsynced, rfl⟩
  | cons head rest ih =>
    obtain ⟨hentries, hsynced', hthresholds⟩ := ih (snapshot.insert head
        (HealthEntry.ofCarry (manager.sync journal legality (.text head)).1))
      (hsynced.sync htable (.text head))
    refine ⟨fun providerId ↦ ?_, hsynced', hthresholds⟩
    refine (hentries providerId).trans ?_
    rw [get?_insert, hsynced.sync_eq htable]
    by_cases hrest : providerId ∈ rest
    · rw [if_pos hrest, if_pos (mem_cons_of_mem _ hrest)]
      rfl
    · rw [if_neg hrest]
      by_cases hhead : head = providerId
      · subst hhead
        rw [if_pos rfl, if_pos mem_cons_self]
      · rw [if_neg hhead, if_neg]
        rw [mem_cons, not_or]
        exact ⟨fun heq ↦ hhead heq.symm, hrest⟩

theorem Sound.get?_takeSnapshot (hsound : runtime.Sound setup thresholds)
    (providerIds : List String) (providerId : String) :
    (runtime.takeSnapshot providerIds).1.get? providerId = if providerId ∈ providerIds then
        some (HealthEntry.ofCarry (runtime.carryOf (.text providerId))) else none := by
  obtain ⟨hentries, -⟩ := snapshotOf_spec runtime.journal hsound.folding.table providerIds .empty
    hsound.folding.synced
  rw [hsound.folding.carryOf_eq, ← hsound.folding.thresholds]
  exact hentries providerId

theorem Sound.readable_takeSnapshot (hsound : runtime.Sound setup thresholds)
    (providerIds : List String) : (runtime.takeSnapshot providerIds).1.Readable setup.floats := by
  intro entry hentry
  obtain ⟨⟨providerId, found⟩, hitem, rfl⟩ := mem_map.mp hentry
  have hlookup := (get?_eq_some_iff _).mpr hitem
  rw [hsound.get?_takeSnapshot] at hlookup
  split at hlookup
  · cases hlookup
    rw [hsound.folding.carryOf_eq]
    exact hsound.readable.reliability thresholds (.text providerId)
  · cases hlookup

/-- A snapshot is stored under its hash, whether or not it was there. -/
theorem get?_persistSnapshot (hhonest : HonestSnapshots setup runtime.storage)
    (hfree : Function.Injective setup.digest) (snapshot : HealthSnapshot) :
    (persistSnapshot setup runtime.storage snapshot).get?
        (artifactKey (setup.digest snapshot.canonicalText)) = some snapshot.canonicalText := by
  unfold persistSnapshot
  simp only
  split
  · next hthere =>
    obtain ⟨text, htext⟩ := Option.isSome_iff_exists.mp hthere
    rw [htext, hfree (hhonest _ _ htext).1]
  · exact get?_insert_self ..

section

variable (hsound : runtime.Sound setup thresholds)

include hsound

theorem Sound.bind (first second : SetOrder) (capabilityId : String) :
    (runtime.bind setup first second capabilityId).2.Follows setup thresholds runtime := by
  have hread := hsound.readable_takeSnapshot
    ((runtime.registry.current.bindingsFor first capabilityId).map BindingRecord.providerId)
  obtain ⟨-, hsynced, hthresholds⟩ := snapshotOf_spec runtime.journal hsound.folding.table
    ((runtime.registry.current.bindingsFor first capabilityId).map BindingRecord.providerId) .empty
    hsound.folding.synced
  refine ⟨⟨⟨hsynced, hthresholds.trans hsound.folding.thresholds, hsound.folding.table⟩,
    hsound.readable, hsound.named, ?_⟩, ⟨[], rfl⟩, ?_⟩
  · intro hash text hstored
    unfold PluginRuntime.bind persistSnapshot at hstored
    simp only at hstored
    split at hstored
    · exact hsound.honest hash text hstored
    · rw [get?_insert] at hstored
      split at hstored
      · next heq =>
        cases hstored
        exact ⟨artifactKey_inj heq, _, hread, rfl⟩
      · exact hsound.honest hash text hstored
  · intro hash text hstored
    unfold PluginRuntime.bind persistSnapshot
    simp only
    split
    · exact hstored
    · next hnew =>
      rw [get?_insert, if_neg]
      · exact hstored
      · intro heq
        rw [heq, hstored] at hnew
        exact hnew rfl

theorem Sound.admitDeclaration (passes : Bool)
    (declarationHash serialized : String) (bundle : Bundle) :
    (runtime.admitDeclaration passes declarationHash serialized bundle).Follows setup thresholds
      runtime := by
  unfold PluginRuntime.admitDeclaration
  split
  · split
    · next registry version happly =>
      have hregistry : registry = runtime.registry.offer Content.handle [.admitBundle bundle] :=
        (congrArg Prod.fst happly).symm
      subst hregistry
      refine ⟨⟨⟨hsound.folding.synced, hsound.folding.thresholds, hsound.folding.table⟩,
        hsound.readable, Registry.all_named_offer hsound.named _,
        hsound.honest.insert (admissionKey_ne_artifactKey declarationHash)⟩, ⟨_, rfl⟩, ?_⟩
      intro hash text hstored
      rw [get?_insert, if_neg (admissionKey_ne_artifactKey declarationHash hash)]
      exact hstored
    · exact ⟨hsound, .refl runtime⟩
  · exact ⟨hsound, .refl runtime⟩

theorem Sound.administrate (kind : AdminKind) (providerId actor reason : String) :
    (runtime.administrate kind providerId actor reason).1.Follows setup thresholds runtime := by
  unfold PluginRuntime.administrate
  split
  · exact ⟨hsound, .refl runtime⟩
  · have hsynced := hsound.folding.synced.append [⟨.str providerId, .admin kind⟩]
    refine ⟨⟨⟨hsynced.sync hsound.folding.table (.text providerId), hsound.folding.thresholds,
      hsound.folding.table⟩, hsound.readable.append ?_, hsound.named, hsound.honest⟩, ⟨[], rfl⟩,
      fun _ _ hstored ↦ hstored⟩
    intro entry hentry update hupdate
    rw [mem_singleton.mp hentry] at hupdate
    cases hupdate

theorem Sound.perform (act : Act) :
    (runtime.perform setup act).Follows setup thresholds runtime := by
  cases act with
  | admission passes declarationHash serialized bundle =>
    exact hsound.admitDeclaration passes declarationHash serialized bundle
  | mutate mutation => exact ⟨hsound.offer [mutation], ⟨[mutation], rfl⟩, fun _ _ h ↦ h⟩
  | requestTransition providerId toState =>
    change (runtime.requestTransition providerId toState).Follows setup thresholds runtime
    unfold PluginRuntime.requestTransition
    simp only
    split
    · exact hsound.follows_of_ports _ _
    · exact ⟨hsound, .refl runtime⟩
  | administrate kind providerId actor reason =>
    exact hsound.administrate kind providerId actor reason
  | readHealth providerId =>
    have hsynced := hsound.folding.synced.sync hsound.folding.table (.text providerId)
    exact ⟨⟨⟨hsynced, hsound.folding.thresholds, hsound.folding.table⟩, hsound.readable,
      hsound.named, hsound.honest⟩, ⟨[], rfl⟩, fun _ _ h ↦ h⟩
  | publish topic message => exact hsound.follows_of_ports _ _
  | handleEvent message => exact hsound.handleEvent message
  | drainAndHandle => exact hsound.drainTopics _
  | persist =>
    refine ⟨⟨⟨hsound.folding.synced, hsound.folding.thresholds, hsound.folding.table⟩,
      hsound.readable, hsound.named, hsound.honest.insert snapshotKey_ne_artifactKey⟩,
      ⟨[], rfl⟩, ?_⟩
    intro hash text hstored
    change (runtime.storage.insert snapshotKey _).get? (artifactKey hash) = some text
    rw [get?_insert, if_neg (snapshotKey_ne_artifactKey hash)]
    exact hstored
  | bind first second capabilityId => exact hsound.bind first second capabilityId

theorem Sound.after (acts : List Act) :
    (runtime.after setup acts).Follows setup thresholds runtime := by
  induction acts generalizing runtime with
  | nil => exact ⟨hsound, .refl runtime⟩
  | cons act rest ih =>
    have hnext := hsound.perform act
    exact (ih hnext.1).trans hnext

end

theorem sound_new (thresholds : Thresholds) (topics : OrderedDict String (List Json))
    {storage : OrderedDict String String} (hhonest : HonestSnapshots setup storage) :
    (new thresholds topics storage).Sound setup thresholds where
  folding := folding_new thresholds topics storage
  readable := by
    intro entry hentry
    cases hentry
  named := Versioned.All.fresh Content.named_empty
  honest := hhonest

/-- Assumes: the digest has no collisions. A contract is bound again at every later point. -/
theorem replayBind_of_bound (hfree : Function.Injective setup.digest)
    (hsound : runtime.Sound setup thresholds) {first second : SetOrder} {capabilityId : String}
    {contract : BindingContract} {bound : PluginRuntime}
    (hbound : runtime.bind setup first second capabilityId = (.bound contract, bound))
    (hlater : later.Extends bound) (order : SetOrder) :
    replayBind setup later order contract = .ok (.bound contract) := by
  have hread := hsound.readable_takeSnapshot
    ((runtime.registry.current.bindingsFor first capabilityId).map BindingRecord.providerId)
  obtain ⟨copy, hcopy, hsame, htext⟩ := exists_read_snapshot hread
  have hstored := get?_persistSnapshot hsound.honest hfree (runtime.takeSnapshot
    ((runtime.registry.current.bindingsFor first capabilityId).map BindingRecord.providerId)).1
  obtain ⟨hresolved, rfl⟩ := Prod.mk.inj hbound
  obtain ⟨canonical, winner, provider, hresolve, hwins, hprovider, hcontract⟩ :=
    hsound.named.current.resolve_eq_bound_iff.mp hresolved
  have hnumber : contract.registryVersion = runtime.registry.version := by
    rw [hcontract]
    rfl
  have hhash : contract.healthSnapshotHash = setup.digest (runtime.takeSnapshot
      ((runtime.registry.current.bindingsFor first capabilityId).map
        BindingRecord.providerId)).1.canonicalText := by
    rw [hcontract]
    rfl
  -- the version and the snapshot are there still
  have hversion : later.registry.atVersion runtime.registry.version =
      some runtime.registry.current := by
    obtain ⟨mutations, hmutations⟩ := hlater.registry
    rw [hmutations]
    exact Versioned.atVersion_offer mutations runtime.registry.atVersion_current
  have hraw := hlater.snapshots _ _ hstored
  have hpolicy : (policyView setup runtime).SamePolicy (policyView setup later) := ⟨rfl, rfl⟩
  have hreplayed := hsound.named.current.resolve_replay hpolicy hsame htext order hresolved
  unfold replayBind
  rw [hnumber, hversion]
  rw [hhash, hraw]
  simp only [hcopy]
  rw [if_pos (congrArg setup.digest htext), hreplayed]
  simp only [if_true]

/-! ### The choice of a provider -/

/-- The provider can be bound for the capability: it is bound to it in the current version,
registered and not retired, permitted, not barred, and healthy. -/
structure Candidate (setup : Setup) (runtime : PluginRuntime) (capabilityId providerId : String) :
    Prop where
  bound : ∃ canonical binding, runtime.registry.current.resolve capabilityId = some canonical ∧
    runtime.registry.current.bindings.get? (canonical, providerId) = some binding
  registered : ∃ provider, runtime.registry.current.providers.get? providerId = some provider ∧
    provider.lifecycle ≠ .retired
  permitted : runtime.registry.current.permits providerId = true
  unbarred : providerId ∉ setup.adminBarred
  healthy : (runtime.carryOf (.text providerId)).Healthy

def reliabilityOf (runtime : PluginRuntime) (providerId : String) : Rat :=
  (runtime.carryOf (.text providerId)).reliability.value

section

variable (hsound : runtime.Sound setup thresholds)

include hsound

theorem Sound.eligible_iff {first order : SetOrder} {capabilityId canonical : String}
    (hresolve : runtime.registry.current.resolve capabilityId = some canonical)
    {entry : BindingRecord}
    (hentry : entry ∈ runtime.registry.current.bindingsFor order canonical) :
    ((rungFor runtime.registry.current (policyView setup runtime)
        (runtime.takeSnapshot ((runtime.registry.current.bindingsFor first capabilityId).map
          BindingRecord.providerId)).1 entry.providerId).eligible = true ↔
      Candidate setup runtime capabilityId entry.providerId) ∧
    (runtime.takeSnapshot ((runtime.registry.current.bindingsFor first capabilityId).map
      BindingRecord.providerId)).1.reliability entry.providerId =
        runtime.reliabilityOf entry.providerId := by
  have hself := (hsound.named.current.resolve_self hresolve).2
  obtain ⟨canonical', providerId, hresolve', hbinding⟩ := mem_bindingsFor.mp hentry
  rw [hself] at hresolve'
  cases hresolve'
  have hid := (hsound.named.current.bindings canonical providerId entry hbinding).2.1
  have hmem : entry.providerId ∈
      (runtime.registry.current.bindingsFor first capabilityId).map BindingRecord.providerId :=
    mem_map.mpr ⟨entry, mem_bindingsFor.mpr ⟨canonical, providerId, hresolve, hbinding⟩, rfl⟩
  have hlookup := hsound.get?_takeSnapshot
    ((runtime.registry.current.bindingsFor first capabilityId).map BindingRecord.providerId)
    entry.providerId
  rw [if_pos hmem] at hlookup
  constructor
  · rw [eligible_rungFor_iff, hlookup]
    simp only [Option.map_some, Option.some.injEq, availability_ofCarry_iff]
    constructor
    · rintro ⟨hregistered, hunbarred, hpermitted, hhealthy⟩
      exact ⟨⟨canonical, entry, hresolve, hid ▸ hbinding⟩, hregistered, hpermitted, hunbarred,
        hhealthy⟩
    · rintro ⟨-, hregistered, hpermitted, hunbarred, hhealthy⟩
      exact ⟨hregistered, hunbarred, hpermitted, hhealthy⟩
  · unfold HealthSnapshot.reliability
    rw [hlookup]
    rfl

theorem Sound.candidate_iff {first : SetOrder}
    (order : SetOrder) {capabilityId canonical providerId : String}
    (hresolve : runtime.registry.current.resolve capabilityId = some canonical) :
    Candidate setup runtime capabilityId providerId ↔
      ∃ entry ∈ runtime.registry.current.bindingsFor order canonical,
        entry.providerId = providerId ∧ (rungFor runtime.registry.current (policyView setup runtime)
          (runtime.takeSnapshot ((runtime.registry.current.bindingsFor first capabilityId).map
            BindingRecord.providerId)).1 entry.providerId).eligible = true := by
  constructor
  · intro hcandidate
    obtain ⟨canonical', binding, hresolve', hbinding⟩ := hcandidate.bound
    rw [hresolve] at hresolve'
    cases hresolve'
    have hself := (hsound.named.current.resolve_self hresolve).2
    have hid := (hsound.named.current.bindings canonical providerId binding hbinding).2.1
    have hmem : binding ∈ runtime.registry.current.bindingsFor order canonical :=
      mem_bindingsFor.mpr ⟨canonical, providerId, hself, hbinding⟩
    refine ⟨binding, hmem, hid, ?_⟩
    rw [(hsound.eligible_iff hresolve hmem).1, hid]
    exact hcandidate
  · rintro ⟨entry, hmem, rfl, heligible⟩
    exact (hsound.eligible_iff hresolve hmem).1.mp heligible

theorem Sound.bound_spec
    (hnodup : ∀ id preference, setup.preferences.get? id = some preference → preference.Nodup)
    {first second : SetOrder} {capabilityId : String} {contract : BindingContract}
    (hbound : (runtime.bind setup first second capabilityId).1 = .bound contract) :
    contract.registryVersion = runtime.registry.version ∧
    runtime.registry.current.resolve capabilityId = some contract.capabilityId ∧
    Candidate setup runtime capabilityId contract.providerId ∧
    ∀ other, Candidate setup runtime capabilityId other →
      Precedes ((setup.preferences.get? contract.capabilityId).getD []) runtime.reliabilityOf
        contract.providerId other := by
  obtain ⟨canonical, winner, provider, hresolve, ⟨⟨order, hmem⟩, heligible, hleast⟩, hprovider,
    rfl⟩ := hsound.named.current.resolve_eq_bound_iff.mp hbound
  have hid : provider.id = winner.providerId :=
    hsound.named.current.providers_named winner.providerId provider hprovider
  obtain ⟨hwinner, hreliability⟩ := @Sound.eligible_iff setup thresholds runtime hsound first order
    capabilityId canonical hresolve winner hmem
  refine ⟨rfl, hresolve, ?_, ?_⟩
  · change Candidate setup runtime capabilityId provider.id
    rw [hid]
    exact hwinner.mp heligible
  · intro other hother
    change Precedes ((setup.preferences.get? canonical).getD []) runtime.reliabilityOf provider.id
      other
    obtain ⟨entry, hentry, rfl, heligible'⟩ :=
      (@Sound.candidate_iff setup thresholds runtime hsound first order _ _ _ hresolve).mp hother
    have hpreference : ((setup.preferences.get? canonical).getD []).Nodup := by
      cases hlisted : setup.preferences.get? canonical with
      | none => exact nodup_nil
      | some preference => exact hnodup canonical preference hlisted
    have hle := (sortKey_le_iff hpreference).mp (hleast order entry hentry heligible')
    have hother' := (@Sound.eligible_iff setup thresholds runtime hsound first order capabilityId
      canonical hresolve entry hentry).2
    unfold Precedes at hle ⊢
    rw [hreliability, hother'] at hle
    rw [hid]
    exact hle

theorem Sound.failed_iff (first second : SetOrder) (capabilityId : String) :
    (∃ failure, (runtime.bind setup first second capabilityId).1 = .failed failure) ↔
      ¬∃ providerId, Candidate setup runtime capabilityId providerId := by
  change (∃ failure, resolve setup.digest runtime.registry.current runtime.registry.version second
    (policyView setup runtime) (runtime.takeSnapshot ((runtime.registry.current.bindingsFor first
      capabilityId).map BindingRecord.providerId)).1 capabilityId = .failed failure) ↔ _
  cases hresolve : runtime.registry.current.resolve capabilityId with
  | none =>
    refine iff_of_true ⟨_, resolve_of_none hresolve⟩ ?_
    rintro ⟨providerId, ⟨canonical, binding, hsome, -⟩, -⟩
    rw [hresolve] at hsome
    cases hsome
  | some canonical =>
    rcases resolve_cases setup.digest runtime.registry.version second hresolve with
      ⟨hnone, hfailed⟩ | ⟨winner, provider, hwins, -, hminted⟩
    · refine iff_of_true hfailed ?_
      rintro ⟨providerId, hcandidate⟩
      obtain ⟨entry, hentry, -, heligible⟩ :=
        (hsound.candidate_iff second hresolve).mp hcandidate
      rw [hnone entry hentry] at heligible
      cases heligible
    · refine iff_of_false ?_ (not_not_intro ⟨winner.providerId, ?_⟩)
      · rintro ⟨failure, hfailed⟩
        rw [hminted] at hfailed
        cases hfailed
      · obtain ⟨⟨order, hmem⟩, heligible, -⟩ := hwins
        exact (hsound.eligible_iff hresolve hmem).1.mp heligible

end

/-- Assumes: the digest has no collisions, no preference lists an id twice, and the stored snapshots
are the texts that their keys are the digests of. Over every history a contract is bound again at
every later point, its provider is the first of the candidates at its version, and a binding fails
exactly when there is no candidate. -/
theorem bindings_replay (hfree : Function.Injective setup.digest)
    (hnodup : ∀ id preference, setup.preferences.get? id = some preference → preference.Nodup)
    {topics : OrderedDict String (List Json)} {storage : OrderedDict String String}
    (hhonest : HonestSnapshots setup storage) {acts : List Act}
    (hruntime : (new thresholds topics storage).after setup acts = runtime)
    (first second : SetOrder) (capabilityId : String) : (∀ contract bound,
      runtime.bind setup first second capabilityId = (.bound contract, bound) →
        (∀ later order, replayBind setup (bound.after setup later) order contract =
          .ok (.bound contract)) ∧ contract.registryVersion = runtime.registry.version ∧
        runtime.registry.current.resolve capabilityId = some contract.capabilityId ∧
        Candidate setup runtime capabilityId contract.providerId ∧
        ∀ other, Candidate setup runtime capabilityId other →
          Precedes ((setup.preferences.get? contract.capabilityId).getD []) runtime.reliabilityOf
            contract.providerId other) ∧
    ((∃ failure, (runtime.bind setup first second capabilityId).1 = .failed failure) ↔
      ¬∃ providerId, Candidate setup runtime capabilityId providerId) := by
  have hsound : runtime.Sound setup thresholds := by
    rw [← hruntime]
    exact ((sound_new thresholds topics hhonest).after acts).1
  refine ⟨fun contract bound hbound ↦ ⟨fun later order ↦ ?_, ?_⟩, hsound.failed_iff ..⟩
  · have hfollows := hsound.bind first second capabilityId
    rw [hbound] at hfollows
    exact replayBind_of_bound hfree hsound hbound (hfollows.1.after later).2 order
  · exact hsound.bound_spec hnodup (congrArg Prod.fst hbound)

/-- A digest without collisions, no bars and no preferences. -/
def plainSetup : Setup := ⟨id, plainFloats, [], .empty⟩

def listedOrder : SetOrder := ⟨id, fun ids ↦ List.Perm.refl ids⟩

/-- An active capability, a provider, and a binding between them. -/
def boundActs : List Act := (Registry.boundRetirement.take 3).map Act.mutate

/-- The contract of that history is bound again when the provider has retired. -/
theorem bindings_replay_boundActs : ∃ contract, replayBind plainSetup
          ((((new defaultThresholds .empty .empty).after plainSetup boundActs).bind plainSetup
            listedOrder listedOrder "cap.a").2.after plainSetup
              [.mutate (.lifecycleTransition "provider" "prov.x" "retired"), .persist])
          listedOrder contract = .ok (.bound contract) := by
  obtain ⟨hreplay, hfailed⟩ := @bindings_replay plainSetup defaultThresholds _
    Function.injective_id (fun _ _ hlisted ↦ (by cases hlisted)) .empty .empty
    (fun _ _ hstored ↦ (by cases hstored)) boundActs rfl listedOrder listedOrder "cap.a"
  have hcandidate : Candidate plainSetup
      ((new defaultThresholds .empty .empty).after plainSetup boundActs) "cap.a" "prov.x" :=
    { bound := ⟨"cap.a", ⟨"cap.a", "prov.x", .empty⟩, by decide +kernel, by decide +kernel⟩
      registered := ⟨⟨"prov.x", "1.0.0", .empty, .empty, .active⟩, by decide +kernel, by decide⟩
      permitted := by decide +kernel
      unbarred := not_mem_nil
      healthy := by
        unfold Carry.Healthy
        decide +kernel }
  cases hbound : ((new defaultThresholds .empty .empty).after plainSetup boundActs).bind plainSetup
      listedOrder listedOrder "cap.a" with
  | mk resolution bound =>
    cases resolution with
    | bound contract => exact ⟨contract, (hreplay contract bound hbound).1 _ listedOrder⟩
    | failed failure =>
      exact absurd ⟨"prov.x", hcandidate⟩ (hfailed.mp ⟨failure, congrArg Prod.fst hbound⟩)

end PluginRuntime

end AbsoluteZero.Plugins

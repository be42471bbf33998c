import AbsoluteZero.Foundations.PythonEquality
import AbsoluteZero.Plugins.Health
import AbsoluteZero.Plugins.Naming
import AbsoluteZero.Plugins.Persistence

/-!
# Restored registries

A stored content is read as its copy (`Content.stored`). Replaying the parts of a content that a
history led to adds everything again but bindings of a capability that takes none any more or
disagrees with its provider (`Content.Named.exists_replay`, `Registry.survives_restart_iff`).
-/

namespace AbsoluteZero.Plugins

open Foundations JsonText Reading OrderedDict List

/-! ### Copies -/

/-- The mapping with its keys in their order, at every depth. -/
def storedMapping (mapping : OrderedDict String Json) : OrderedDict String Json where
  items := Json.canonicalFields mapping.items
  nodup := (map_fst_canonicalFields_perm mapping.items).nodup_iff.mpr mapping.nodup

def CapabilityRecord.stored (record : CapabilityRecord) : CapabilityRecord :=
  { record with constraints := storedMapping record.constraints }

def ProviderRecord.stored (record : ProviderRecord) : ProviderRecord :=
  { record with
    declaredConstraints := storedMapping record.declaredConstraints
    loadPolicy := storedMapping record.loadPolicy }

variable (record : BindingRecord)

def BindingRecord.stored : BindingRecord :=
  { record with terms := storedMapping record.terms }

/-- The content as it is read back from its text. -/
def Content.stored (content : Content) : Content where
  capabilities := content.capabilities.mapValues CapabilityRecord.stored
  providers := content.providers.mapValues ProviderRecord.stored
  bindings := content.bindings.mapValues BindingRecord.stored
  aliases := content.aliases
  relationships := content.relationships

section

variable (mapping : OrderedDict String Json)

theorem get?_storedMapping (key : String) :
    (storedMapping mapping).get? key = (mapping.get? key).map Json.canonical :=
  Json.find_canonicalFields key mapping.items

theorem writeMapping_eq :
    writeMapping mapping = .obj mapping.items := by
  exact congrArg Json.obj (map_id _)

theorem canonical_writeMapping :
    (writeMapping mapping).canonical = writeMapping (storedMapping mapping) := by
  rw [writeMapping_eq, writeMapping_eq, Json.canonical]
  rfl

theorem canonical_storedMapping :
    (writeMapping (storedMapping mapping)).canonical = (writeMapping mapping).canonical := by
  rw [← canonical_writeMapping, canonical_canonical]

end

theorem canonical_writeTexts (texts : List String) :
    (writeTexts texts).canonical = writeTexts texts := by
  simp only [writeTexts, writeList, Json.canonical, canonicalElements_eq_map, map_map]
  refine congrArg Json.arr (map_congr_left fun text _ ↦ ?_)
  exact canonical_str text

theorem canonical_writePointer (pointer : Option String) :
    (writePointer pointer).canonical = writePointer pointer := by
  cases pointer with
  | none => exact canonical_null
  | some text => exact canonical_str text

theorem readTexts_writeTexts (texts : List String) : readTexts (writeTexts texts) = some texts := by
  unfold readTexts writeTexts writeList list?
  rw [mapM_eq_some_iff, forall₂_map_left_iff]
  exact forall₂_same.mpr fun _ _ ↦ rfl

theorem optional?_writePointer (pointer : Option String) :
    optional? text? (writePointer pointer) = some pointer := by
  cases pointer with
  | none | some text => rfl

theorem dict?_writeMapping (mapping : OrderedDict String Json) :
    dict? some (writeMapping mapping) = some mapping := by
  rw [writeMapping_eq]
  have hread : (mapping.items.mapM fun field ↦ (some field.2).map fun value ↦ (field.1, value)) =
      some mapping.items := mapM_eq_some_iff.mpr (forall₂_same.mpr fun _ _ ↦ rfl)
  change (mapping.items.mapM fun field ↦ (some field.2).map fun value ↦ (field.1, value)).bind
    dictOf? = some mapping
  rw [hread]
  exact dif_pos mapping.nodup

theorem word?_text {Word : Type} [ClosedVocabulary Word] (word : Word) :
    (word? (.str (ClosedVocabulary.text word)) : Option Word) = some word :=
  ClosedVocabulary.read_text word

theorem readCapability_stored (record : CapabilityRecord) :
    readCapability record.toDict.canonical = some record.stored := by
  simp [readCapability, CapabilityRecord.toDict, get?_canonical, find_cons,
    canonical_writeTexts, canonical_writeMapping, canonical_writePointer, canonical_str,
    canonical_int, readTexts_writeTexts, dict?_writeMapping, optional?_writePointer, word?_text,
    text?, int?, CapabilityRecord.stored, record.expectations_nonempty]

theorem readProvider_stored (record : ProviderRecord) :
    readProvider record.toDict.canonical = some record.stored := by
  simp [readProvider, ProviderRecord.toDict, get?_canonical, find_cons,
    canonical_writeMapping, canonical_str, dict?_writeMapping, word?_text, text?,
    ProviderRecord.stored]

theorem readBinding_stored :
    readBinding record.toDict.canonical = some record.stored := by
  simp [readBinding, BindingRecord.toDict, get?_canonical, find_cons,
    canonical_writeMapping, canonical_str, dict?_writeMapping, text?, BindingRecord.stored]

theorem readRelationship_toDict (edge : RelationshipEdge) :
    readRelationship edge.toDict.canonical = some edge := by
  simp [readRelationship, RelationshipEdge.toDict, get?_canonical, find_cons,
    canonical_str, word?_text, text?]

/-! ### Replaying a content -/

namespace Content

/-- The binding can be added: its capability takes bindings and agrees with its provider. -/
def Takes (content : Content) (record : BindingRecord) : Prop :=
  ∃ capability provider, content.capabilities.get? record.capabilityId = some capability ∧
    capability.lifecycle.matchable = true ∧
    content.providers.get? record.providerId = some provider ∧
    Agree capability.constraints provider.declaredConstraints

/-- Every binding could be made again. -/
def Readmissible (content : Content) : Prop :=
  ∀ capabilityId providerId record,
    content.bindings.get? (capabilityId, providerId) = some record → content.Takes record

variable {working next origin : Content}

/-- An `add_capability` that is accepted. -/
theorem addCapability_of_new {record : CapabilityRecord}
    (hnew : working.capabilities.get? record.id = none)
    (hunaliased : working.aliases.get? record.id = none) (hfree : ∀ name ∈ record.aliases,
      working.capabilities.get? name = none ∧ working.aliases.get? name = none) :
    working.addCapability record =
      .ok ((working.putCapability record).putAliases record.aliases record.id) := by
  have hdefect : working.aliasDefect record.aliases = none := by
    refine findSome?_eq_none_iff.mpr fun name hname ↦ ?_
    rw [(hfree name hname).1, (hfree name hname).2]
    rfl
  unfold addCapability
  rw [hnew, hunaliased, hdefect]
  simp only [Option.isSome_none, Bool.false_eq_true, if_false, if_neg record.expectations_nonempty]
  rfl

theorem Named.replayCapabilities (horigin : origin.Named) {records : List CapabilityRecord}
    (hworking : working.Named)
    (hrecords : ∀ record ∈ records, origin.capabilities.get? record.id = some record)
    (hthere : ∀ id record, working.capabilities.get? id = some record →
      origin.capabilities.get? id = some record)
    (hnodup : (working.capabilities.keys ++ records.map CapabilityRecord.id).Nodup) :
    ∃ described, records.foldlM Content.addCapability working = .ok described ∧ described.Named ∧
      described.capabilities.items = working.capabilities.items ++
        records.map (fun record ↦ (record.id, record)) ∧
      described.providers = working.providers ∧ described.bindings = working.bindings ∧
      described.relationships = working.relationships := by
  induction records generalizing working with
  | nil => exact ⟨working, rfl, hworking, (append_nil _).symm, rfl, rfl, rfl⟩
  | cons record rest ih =>
    have hrecord := hrecords record mem_cons_self
    have hnew : working.capabilities.get? record.id = none := by
      rw [get?_eq_none_iff]
      intro hmem
      exact (List.nodup_append.mp hnodup).2.2 _ hmem _ mem_cons_self rfl
    -- an alias that is there is one of the origin, of another capability
    have haliased : ∀ name target, working.aliases.get? name = some target →
        origin.aliases.get? name = some target ∧ target ≠ record.id := by
      intro name target htarget
      obtain ⟨capability, hcapability, hname⟩ := (hworking.aliases name target).mp htarget
      refine ⟨(horigin.aliases name target).mpr ⟨capability, hthere _ _ hcapability, hname⟩, ?_⟩
      rintro rfl
      rw [hnew] at hcapability
      cases hcapability
    have hunaliased : working.aliases.get? record.id = none := by
      refine Option.eq_none_iff_forall_ne_some.mpr fun target htarget ↦ ?_
      obtain ⟨horiginal, hne⟩ := haliased record.id target htarget
      exact hne (horigin.aliases_apart record.id target horiginal (hrecord ▸ rfl)).symm
    have hfree : ∀ name ∈ record.aliases,
        working.capabilities.get? name = none ∧ working.aliases.get? name = none := by
      intro name hname
      have hown : origin.aliases.get? name = some record.id :=
        (horigin.aliases name record.id).mpr ⟨record, hrecord, hname⟩
      constructor
      · refine Option.eq_none_iff_forall_ne_some.mpr fun capability hcapability ↦ ?_
        have heq := horigin.aliases_apart name record.id hown (hthere _ _ hcapability ▸ rfl)
        rw [heq, hnew] at hcapability
        cases hcapability
      · refine Option.eq_none_iff_forall_ne_some.mpr fun target htarget ↦ ?_
        obtain ⟨horiginal, hne⟩ := haliased name target htarget
        rw [hown] at horiginal
        exact hne (Option.some.inj horiginal).symm
    have hadded := addCapability_of_new hnew hunaliased hfree
    have hitems : ((working.putCapability record).putAliases record.aliases
        record.id).capabilities.items = working.capabilities.items ++ [(record.id, record)] :=
      upsert_of_notMem ((working.capabilities.get?_eq_none_iff).mp hnew)
    obtain ⟨described, hfold, hdescribed, hcapabilities, hrest⟩ := ih
      (hworking.addCapability hadded)
      (fun other hother ↦ hrecords other (mem_cons_of_mem _ hother))
      (fun id other hother ↦ by
        change (working.putCapability record).capabilities.get? id = some other at hother
        rw [get?_putCapability] at hother
        split at hother
        · next heq =>
          cases hother
          exact heq ▸ hrecord
        · exact hthere id other hother)
      (by
        rw [OrderedDict.keys, hitems, map_append, append_assoc]
        exact hnodup)
    refine ⟨described, ?_, hdescribed, ?_, hrest⟩
    · rw [foldlM_cons, hadded]
      exact hfold
    · rw [hcapabilities, hitems, append_assoc]
      rfl

/-- Providers with new ids, added one after another. -/
theorem replayProviders {records : List ProviderRecord}
    (hnodup : (working.providers.keys ++ records.map ProviderRecord.id).Nodup) :
    ∃ providers, records.foldlM addProvider working = .ok { working with providers } ∧
      providers.items = working.providers.items ++
        records.map (fun record ↦ (record.id, record)) := by
  induction records generalizing working with
  | nil => exact ⟨working.providers, rfl, (append_nil _).symm⟩
  | cons record rest ih =>
    have hnew : record.id ∉ working.providers.keys := fun hmem ↦
      (List.nodup_append.mp hnodup).2.2 _ hmem _ mem_cons_self rfl
    have hadded : working.addProvider record =
        .ok { working with providers := working.providers.insert record.id record } := by
      unfold addProvider
      rw [(working.providers.get?_eq_none_iff).mpr hnew]
    have hitems : (working.providers.insert record.id record).items =
        working.providers.items ++ [(record.id, record)] := upsert_of_notMem hnew
    obtain ⟨providers, hfold, hproviders⟩ := @ih
      { working with providers := working.providers.insert record.id record } (by
        rw [OrderedDict.keys, hitems, map_append, append_assoc]
        exact hnodup)
    refine ⟨providers, ?_, ?_⟩
    · rw [foldlM_cons, hadded]
      exact hfold
    · rw [hproviders, hitems, append_assoc]
      rfl

def withBinding (working : Content) (record : BindingRecord) : Content :=
  { working with
    bindings := working.bindings.insert (record.capabilityId, record.providerId) record }

/-- Assumes: the capability is named by its id. The binding is added when the content takes it. -/
theorem addBinding_eq_ok_iff {record : BindingRecord}
    (hself : working.resolve record.capabilityId = some record.capabilityId) :
    working.addBinding record = .ok next ↔
      working.Takes record ∧ next = working.withBinding record := by
  unfold addBinding Takes withBinding
  rw [hself]
  simp only
  cases working.capabilities.get? record.capabilityId with
  | none => simp
  | some capability =>
    cases hmatchable : capability.lifecycle.matchable with
    | false => simp [hmatchable]
    | true =>
      cases working.providers.get? record.providerId with
      | none => simp [hmatchable]
      | some provider =>
        by_cases hagree : Agree capability.constraints provider.declaredConstraints
        · simp only [Bool.true_eq_false, if_false, if_pos (constraintsCompatible_iff.mpr hagree),
            Except.ok.injEq, Option.some.injEq, exists_and_left, exists_eq_left', hmatchable,
            hagree, true_and]
          exact eq_comm
        · simp [hmatchable, hagree, mt constraintsCompatible_iff.mp hagree]

theorem replayBindings {records : List BindingRecord} (hself : ∀ record ∈ records,
      working.resolve record.capabilityId = some record.capabilityId) :
    records.foldlM addBinding working = .ok next ↔ (∀ record ∈ records, working.Takes record) ∧
        next = { working with
          bindings := records.foldl (fun bindings record ↦
            bindings.insert (record.capabilityId, record.providerId) record)
              working.bindings } := by
  induction records generalizing working with
  | nil =>
    simp only [foldlM_nil, not_mem_nil, false_implies, implies_true, true_and, foldl_nil]
    exact ⟨fun hnext ↦ (Except.ok.inj hnext).symm, fun hnext ↦ hnext ▸ rfl⟩
  | cons record rest ih =>
    rw [foldlM_cons, Checked.bind_eq_ok_iff, forall_mem_cons, foldl_cons]
    constructor
    · rintro ⟨bound, hbound, hrest⟩
      obtain ⟨htakes, rfl⟩ :=
        (addBinding_eq_ok_iff (hself record mem_cons_self)).mp hbound
      obtain ⟨hall, rfl⟩ := (@ih (working.withBinding record)
        fun other hother ↦ hself other (mem_cons_of_mem _ hother)).mp hrest
      exact ⟨⟨htakes, hall⟩, rfl⟩
    · rintro ⟨⟨htakes, hall⟩, rfl⟩
      exact ⟨working.withBinding record,
        (addBinding_eq_ok_iff (hself record mem_cons_self)).mpr ⟨htakes, rfl⟩,
        (@ih (working.withBinding record)
          fun other hother ↦ hself other (mem_cons_of_mem _ hother)).mpr ⟨hall, rfl⟩⟩

theorem replayRelationships {records : List RelationshipEdge} (hnamed : ∀ edge ∈ records,
      (working.resolve edge.src).isSome ∧ (working.resolve edge.dst).isSome) :
    records.foldlM addRelationship working =
      .ok { working with relationships := working.relationships ++ records } := by
  induction records generalizing working with
  | nil =>
    rw [append_nil]
    rfl
  | cons edge rest ih =>
    obtain ⟨hsource, htarget⟩ := hnamed edge mem_cons_self
    have hadded : working.addRelationship edge =
        .ok { working with relationships := working.relationships ++ [edge] } := by
      unfold addRelationship
      rw [Option.isNone_eq_false_iff.mpr hsource, Option.isNone_eq_false_iff.mpr htarget]
      rfl
    rw [foldlM_cons, hadded]
    refine (@ih { working with relationships := working.relationships ++ [edge] }
      fun other hother ↦ hnamed other (mem_cons_of_mem _ hother)).trans ?_
    rw [append_assoc]
    rfl

def bindingKey : String × String :=
  (record.capabilityId, record.providerId)

/-- The same records, edges and names, in any order. -/
structure Rearranges (content other : Content) : Prop where
  capabilities : ∀ id, content.capabilities.get? id = other.capabilities.get? id
  providers : ∀ id, content.providers.get? id = other.providers.get? id
  bindings : ∀ key, content.bindings.get? key = other.bindings.get? key
  relationships : content.relationships.Perm other.relationships
  resolve : ∀ name, content.resolve name = other.resolve name
  listing : content.listing = other.listing

theorem Named.keyed_bindings (horigin : origin.Named) : origin.bindings.KeyedBy bindingKey := by
  intro key record hrecord
  obtain ⟨hcapability, hprovider, -⟩ := horigin.bindings key.1 key.2 record hrecord
  exact Prod.ext hcapability hprovider

/-- Assumes: the capabilities of two contents have the same ids and aliases. So do their names. -/
theorem Named.resolve_congr {content other : Content} (hcontent : content.Named)
    (hother : other.Named)
    (hsame : ∀ id, (content.capabilities.get? id).map CapabilityRecord.aliases =
      (other.capabilities.get? id).map CapabilityRecord.aliases) (name : String) :
    content.resolve name = other.resolve name := by
  have hrole {first second : Content}
      (hsame : ∀ id, (first.capabilities.get? id).map CapabilityRecord.aliases =
        (second.capabilities.get? id).map CapabilityRecord.aliases) {target : String} :
      (∃ capability, first.capabilities.get? target = some capability ∧
        name ∈ capability.aliases) →
      ∃ capability, second.capabilities.get? target = some capability ∧
        name ∈ capability.aliases := by
    rintro ⟨capability, hcapability, hname⟩
    have hmapped := hsame target
    rw [hcapability, Option.map_some] at hmapped
    obtain ⟨twin, htwin, heq⟩ := Option.map_eq_some_iff.mp hmapped.symm
    exact ⟨twin, htwin, heq ▸ hname⟩
  have haliases : content.aliases.get? name = other.aliases.get? name := by
    refine Option.ext fun target ↦ ?_
    rw [hcontent.aliases name target, hother.aliases name target]
    exact ⟨hrole hsame, hrole fun id ↦ (hsame id).symm⟩
  have hthere : (content.capabilities.get? name).isSome =
      (other.capabilities.get? name).isSome := by
    have hmapped := congrArg Option.isSome (hsame name)
    rwa [Option.isSome_map, Option.isSome_map] at hmapped
  unfold Content.resolve
  rw [haliases, hthere]

/-- Replaying the parts of a content ends well exactly when every binding could be made again, with
the content rearranged. -/
theorem Named.exists_replay (horigin : origin.Named) :
    ∃ replayed : Content, replayed.Rearranges origin ∧ ∀ restored,
      origin.listing.mutations.foldlM Content.handle empty = .ok restored ↔
        origin.Readmissible ∧ restored = replayed := by
  have hcapabilities : origin.capabilities.KeyedBy CapabilityRecord.id :=
    horigin.capabilities_named
  have hproviders : origin.providers.KeyedBy ProviderRecord.id := horigin.providers_named
  have hbindings := horigin.keyed_bindings
  obtain ⟨described, hdescribe, hnamed, hdescribed, hnoProviders, hnoBindings, hnoEdges⟩ :=
    @Named.replayCapabilities empty origin horigin origin.listing.capabilities named_empty
      (fun record hrecord ↦ hcapabilities.get?_eq_some_iff.mpr ⟨mem_sortedBy.mp hrecord, rfl⟩)
      (fun id record hrecord ↦ by cases hrecord)
      (((perm_sortedBy _ _).map CapabilityRecord.id).nodup_iff.mpr
        (hcapabilities.map_values ▸ origin.capabilities.nodup))
  obtain ⟨providers, hprovide, hprovided⟩ :=
    @replayProviders described origin.listing.providers (by
      rw [hnoProviders]
      exact ((perm_sortedBy _ _).map ProviderRecord.id).nodup_iff.mpr
        (hproviders.map_values ▸ origin.providers.nodup))
  rw [hnoProviders] at hprovided
  -- the lookups among the parts that cannot be refused
  have hcapability : ∀ id, described.capabilities.get? id = origin.capabilities.get? id := by
    refine fun id ↦ Option.ext fun record ↦ ?_
    rw [get?_eq_some_iff_of_items hdescribed, hcapabilities.get?_eq_some_iff]
    exact and_congr_left' mem_sortedBy
  have hprovider : ∀ id, providers.get? id = origin.providers.get? id := by
    refine fun id ↦ Option.ext fun record ↦ ?_
    rw [get?_eq_some_iff_of_items hprovided, hproviders.get?_eq_some_iff]
    exact and_congr_left' mem_sortedBy
  have hresolve : ∀ name, described.resolve name = origin.resolve name :=
    hnamed.resolve_congr horigin fun id ↦ congrArg _ (hcapability id)
  let provided : Content := { described with providers }
  have htakes : ∀ record, provided.Takes record ↔ origin.Takes record := by
    intro record
    unfold Takes
    rw [show provided.capabilities = described.capabilities from rfl,
      show provided.providers = providers from rfl, hcapability, hprovider]
  have hself : ∀ record ∈ origin.listing.bindings,
      provided.resolve record.capabilityId = some record.capabilityId := by
    intro record hrecord
    have hlookup := hbindings.get?_eq_some_iff.mpr ⟨mem_sortedBy.mp hrecord, rfl⟩
    have hthere := (horigin.bindings _ _ record hlookup).2.2.1
    exact (hresolve record.capabilityId).trans (horigin.resolve_id hthere)
  have hreadmissible : (∀ record ∈ origin.listing.bindings, provided.Takes record) ↔
      origin.Readmissible := by
    constructor
    · intro hall capabilityId providerId record hrecord
      have hvalue := (hbindings.get?_eq_some_iff.mp hrecord).1
      exact (htakes record).mp (hall record (mem_sortedBy.mpr hvalue))
    · intro hall record hrecord
      exact (htakes record).mpr (hall _ _ record
        (hbindings.get?_eq_some_iff.mpr ⟨mem_sortedBy.mp hrecord, rfl⟩))
  let bound : Content := { provided with
    bindings := origin.listing.bindings.foldl (fun bindings record ↦
      bindings.insert (bindingKey record) record) provided.bindings }
  let replayed : Content := { bound with
    relationships := bound.relationships ++ origin.listing.relationships }
  have hbound : bound.bindings.items =
      origin.listing.bindings.map fun record ↦ (bindingKey record, record) := by
    have hitems := items_foldl_insert bindingKey id provided.bindings
      origin.listing.bindings (by
        rw [show provided.bindings = .empty from hnoBindings]
        exact ((perm_sortedBy _ _).map bindingKey).nodup_iff.mpr
          (hbindings.map_values ▸ origin.bindings.nodup))
    refine hitems.trans ?_
    rw [show provided.bindings = .empty from hnoBindings]
    rfl
  have hedges : replayed.relationships = origin.listing.relationships := by
    change described.relationships ++ _ = _
    rw [hnoEdges]
    rfl
  have hrelate : origin.listing.relationships.foldlM Content.addRelationship bound =
      .ok replayed := by
    refine replayRelationships fun edge hedge ↦ ?_
    obtain ⟨hsource, htarget⟩ := horigin.endpoints edge (mem_sortedBy.mp hedge)
    rw [← hresolve] at hsource htarget
    exact ⟨hsource, htarget⟩
  refine ⟨replayed, ⟨hcapability, hprovider, ?_, ?_, hresolve, ?_⟩, fun restored ↦ ?_⟩
  · refine fun key ↦ Option.ext fun record ↦ ?_
    rw [get?_eq_some_iff_of_items hbound, hbindings.get?_eq_some_iff]
    exact and_congr_left' mem_sortedBy
  · rw [hedges]
    exact perm_sortedBy _ _
  · have hvalues {Key Value : Type} [DecidableEq Key] {key : Value → Key}
        {dict : OrderedDict Key Value} {values : List Value}
        (hitems : dict.items = values.map fun value ↦ (key value, value)) :
        dict.values = values := by
      rw [OrderedDict.values, hitems, map_map]
      exact map_id values
    unfold listing
    rw [show replayed.capabilities.values = origin.listing.capabilities from hvalues hdescribed,
      show replayed.providers.values = origin.listing.providers from hvalues hprovided,
      show replayed.bindings.values = origin.listing.bindings from hvalues hbound, hedges]
    simp only [listing, sortedBy_sortedBy]
  · have hfold : origin.listing.mutations.foldlM Content.handle empty =
        (origin.listing.bindings.foldlM Content.addBinding provided) >>= fun bound ↦
          origin.listing.relationships.foldlM Content.addRelationship bound := by
      simp only [Listing.mutations, foldlM_append, foldlM_map, bind_assoc]
      change (origin.listing.capabilities.foldlM Content.addCapability empty >>= fun described ↦
        origin.listing.providers.foldlM Content.addProvider described >>= fun provided ↦
          origin.listing.bindings.foldlM Content.addBinding provided >>= fun bound ↦
            origin.listing.relationships.foldlM Content.addRelationship bound) = _
      rw [hdescribe]
      change (origin.listing.providers.foldlM Content.addProvider described >>= _) = _
      rw [hprovide]
      rfl
    rw [hfold, Checked.bind_eq_ok_iff, ← hreadmissible]
    constructor
    · rintro ⟨other, hother, hrestored⟩
      obtain ⟨hall, rfl⟩ := (replayBindings hself).mp hother
      exact ⟨hall, Except.ok.inj (hrestored.symm.trans hrelate)⟩
    · rintro ⟨hall, rfl⟩
      exact ⟨bound, (replayBindings hself).mpr ⟨hall, rfl⟩, hrelate⟩

variable {content : Content}

theorem resolve_stored (name : String) : content.stored.resolve name = content.resolve name := by
  unfold resolve
  rw [show content.stored.aliases = content.aliases from rfl,
    show content.stored.capabilities = content.capabilities.mapValues CapabilityRecord.stored from
      rfl, get?_mapValues, Option.isSome_map]

theorem Named.stored (hcontent : content.Named) : content.stored.Named where
  capabilities_named := by
    intro id record hrecord
    obtain ⟨original, horiginal, rfl⟩ :=
      Option.map_eq_some_iff.mp ((get?_mapValues ..).symm.trans hrecord)
    exact hcontent.capabilities_named id original horiginal
  providers_named := by
    intro id record hrecord
    obtain ⟨original, horiginal, rfl⟩ :=
      Option.map_eq_some_iff.mp ((get?_mapValues ..).symm.trans hrecord)
    exact hcontent.providers_named id original horiginal
  bindings := by
    intro capabilityId providerId record hrecord
    obtain ⟨original, horiginal, rfl⟩ :=
      Option.map_eq_some_iff.mp ((get?_mapValues ..).symm.trans hrecord)
    obtain ⟨hcapability, hprovider, hthere, hthere'⟩ :=
      hcontent.bindings capabilityId providerId original horiginal
    refine ⟨hcapability, hprovider, ?_, ?_⟩
    · rw [show content.stored.capabilities =
        content.capabilities.mapValues CapabilityRecord.stored from rfl, get?_mapValues,
        Option.isSome_map]
      exact hthere
    · rw [show content.stored.providers =
        content.providers.mapValues ProviderRecord.stored from rfl, get?_mapValues,
        Option.isSome_map]
      exact hthere'
  aliases := by
    intro name target
    refine (hcontent.aliases name target).trans ?_
    rw [show content.stored.capabilities =
      content.capabilities.mapValues CapabilityRecord.stored from rfl, get?_mapValues]
    cases content.capabilities.get? target with
    | none => simp
    | some capability => simp [CapabilityRecord.stored]
  aliases_apart := by
    intro name target htarget hthere
    rw [show content.stored.capabilities =
      content.capabilities.mapValues CapabilityRecord.stored from rfl, get?_mapValues,
      Option.isSome_map] at hthere
    exact hcontent.aliases_apart name target htarget hthere
  endpoints := by
    intro edge hedge
    rw [resolve_stored, resolve_stored]
    exact hcontent.endpoints edge hedge

theorem agree_stored_iff {constraints declared : OrderedDict String Json} :
    Agree (storedMapping constraints) (storedMapping declared) ↔ Agree constraints declared := by
  constructor
  · intro hagree name value other hvalue hother
    have heq := hagree name value.canonical other.canonical
      (by rw [get?_storedMapping, hvalue]; rfl) (by rw [get?_storedMapping, hother]; rfl)
    rwa [pyEq_canonical] at heq
  · intro hagree name value other hvalue hother
    rw [get?_storedMapping] at hvalue hother
    obtain ⟨constraint, hconstraint, rfl⟩ := Option.map_eq_some_iff.mp hvalue
    obtain ⟨answer, hanswer, rfl⟩ := Option.map_eq_some_iff.mp hother
    rw [pyEq_canonical]
    exact hagree name constraint answer hconstraint hanswer

theorem takes_stored_iff {record : BindingRecord} :
    content.stored.Takes record.stored ↔ content.Takes record := by
  unfold Takes
  rw [show content.stored.capabilities =
      content.capabilities.mapValues CapabilityRecord.stored from rfl,
    show content.stored.providers = content.providers.mapValues ProviderRecord.stored from rfl,
    get?_mapValues, get?_mapValues]
  constructor
  · rintro ⟨capability, provider, hcapability, hmatchable, hprovider, hagree⟩
    obtain ⟨capability, horiginal, rfl⟩ := Option.map_eq_some_iff.mp hcapability
    obtain ⟨provider, horiginal', rfl⟩ := Option.map_eq_some_iff.mp hprovider
    exact ⟨capability, provider, horiginal, hmatchable, horiginal', agree_stored_iff.mp hagree⟩
  · rintro ⟨capability, provider, hcapability, hmatchable, hprovider, hagree⟩
    exact ⟨capability.stored, provider.stored, congrArg _ hcapability, hmatchable,
      congrArg _ hprovider, agree_stored_iff.mpr hagree⟩

theorem readmissible_stored_iff : content.stored.Readmissible ↔ content.Readmissible := by
  constructor
  · intro hall capabilityId providerId record hrecord
    refine takes_stored_iff.mp (hall capabilityId providerId record.stored ?_)
    exact (get?_mapValues ..).trans (congrArg _ hrecord)
  · intro hall capabilityId providerId record hrecord
    obtain ⟨original, horiginal, rfl⟩ :=
      Option.map_eq_some_iff.mp ((get?_mapValues ..).symm.trans hrecord)
    exact takes_stored_iff.mpr (hall capabilityId providerId original horiginal)

theorem listing_stored : content.stored.listing =
    { capabilities := content.listing.capabilities.map CapabilityRecord.stored
      providers := content.listing.providers.map ProviderRecord.stored
      bindings := content.listing.bindings.map BindingRecord.stored
      relationships := content.listing.relationships } := by
  have hvalues {Key Value : Type} [DecidableEq Key] (dict : OrderedDict Key Value)
      (copy : Value → Value) : (dict.mapValues copy).values = dict.values.map copy := by
    simp only [OrderedDict.values, OrderedDict.mapValues, map_map]
    rfl
  simp only [listing, Content.stored, hvalues]
  congr 1
  · exact sortedBy_map (fun _ ↦ rfl) _
  · exact sortedBy_map (fun _ ↦ rfl) _
  · exact sortedBy_map (fun _ ↦ rfl) _

end Content

/-! ### Loading what was stored -/

structure Content.JsonValued (reader : FloatReader) (content : Content) : Prop where
  capabilities : ∀ record ∈ content.capabilities.values,
    Holdable reader (writeMapping record.constraints)
  providers : ∀ record ∈ content.providers.values,
    Holdable reader (writeMapping record.declaredConstraints) ∧
      Holdable reader (writeMapping record.loadPolicy)
  bindings : ∀ record ∈ content.bindings.values,
    Holdable reader (writeMapping record.terms)

variable {reader : FloatReader}

theorem canonical_capability (record : CapabilityRecord) :
    record.stored.toDict.canonical = record.toDict.canonical := by
  simp only [CapabilityRecord.toDict, CapabilityRecord.stored, Json.canonical,
    Json.canonicalFields, canonical_storedMapping]

theorem canonical_provider (record : ProviderRecord) :
    record.stored.toDict.canonical = record.toDict.canonical := by
  simp only [ProviderRecord.toDict, ProviderRecord.stored, Json.canonical,
    Json.canonicalFields, canonical_storedMapping]

theorem canonical_binding :
    record.stored.toDict.canonical = record.toDict.canonical := by
  simp only [BindingRecord.toDict, BindingRecord.stored, Json.canonical,
    Json.canonicalFields, canonical_storedMapping]

theorem holdable_storedMapping {mapping : OrderedDict String Json}
    (hmapping : Holdable reader (writeMapping mapping)) :
    Holdable reader (writeMapping (storedMapping mapping)) := by
  rw [← canonical_writeMapping]
  exact Holdable.canonical _ hmapping

theorem holdable_writeTexts (texts : List String) :
    Holdable reader (writeTexts texts) := by
  refine holdableElements_iff.mpr fun value hvalue ↦ ?_
  obtain ⟨text, -, rfl⟩ := mem_map.mp hvalue
  simp [Holdable]

theorem holdable_writePointer (pointer : Option String) :
    Holdable reader (writePointer pointer) := by
  cases pointer <;> simp [writePointer, writeOptional, Holdable]

theorem holdable_capabilityDict {record : CapabilityRecord}
    (hrecord : Holdable reader (writeMapping record.constraints)) :
    Holdable reader record.toDict := by
  simp [CapabilityRecord.toDict, Holdable, HoldableFields, holdable_writeTexts,
    holdable_writePointer, hrecord]

theorem holdable_providerDict {record : ProviderRecord}
    (hdeclared : Holdable reader (writeMapping record.declaredConstraints))
    (hpolicy : Holdable reader (writeMapping record.loadPolicy)) :
    Holdable reader record.toDict := by
  simp [ProviderRecord.toDict, Holdable, HoldableFields, hdeclared, hpolicy]

theorem holdable_bindingDict {record : BindingRecord}
    (hrecord : Holdable reader (writeMapping record.terms)) :
    Holdable reader record.toDict := by
  simp [BindingRecord.toDict, Holdable, HoldableFields, hrecord]

variable {Record : Type}

theorem holdable_writeList {write : Record → Json} {records : List Record}
    (hrecords : ∀ record ∈ records, Holdable reader (write record)) :
    Holdable reader (writeList write records) := by
  refine holdableElements_iff.mpr fun value hvalue ↦ ?_
  obtain ⟨record, hrecord, rfl⟩ := mem_map.mp hvalue
  exact hrecords record hrecord

/-- A list of records and the list of their copies are written alike. -/
theorem canonical_writeList_map {write : Record → Json} {copy : Record → Record}
    (hcopy : ∀ record, (write (copy record)).canonical = (write record).canonical)
    (records : List Record) :
    (writeList write (records.map copy)).canonical = (writeList write records).canonical := by
  simp only [writeList, Json.canonical, canonicalElements_eq_map, map_map, Json.arr.injEq]
  exact map_congr_left fun record _ ↦ hcopy record

theorem list?_writeList {read : Json → Option Record} {write : Record → Json}
    {copy : Record → Record} (hread : ∀ record, read (write record).canonical = some (copy record))
    (records : List Record) :
    list? read (writeList write records).canonical = some (records.map copy) := by
  simp only [writeList, Json.canonical, canonicalElements_eq_map, map_map, list?]
  rw [mapM_eq_some_iff, forall₂_map_left_iff, forall₂_map_right_iff]
  exact forall₂_same.mpr fun record _ ↦ hread record

variable {content : Content}

theorem Content.JsonValued.stored (hvalues : content.JsonValued reader) :
    (∀ record ∈ content.stored.listing.capabilities, Holdable reader record.toDict) ∧
    (∀ record ∈ content.stored.listing.providers, Holdable reader record.toDict) ∧
    ∀ record ∈ content.stored.listing.bindings, Holdable reader record.toDict := by
  rw [Content.listing_stored]
  refine ⟨?_, ?_, ?_⟩
  · intro record hrecord
    obtain ⟨original, horiginal, rfl⟩ := mem_map.mp hrecord
    exact holdable_capabilityDict
      (holdable_storedMapping (hvalues.capabilities original (mem_sortedBy.mp horiginal)))
  · intro record hrecord
    obtain ⟨original, horiginal, rfl⟩ := mem_map.mp hrecord
    obtain ⟨hdeclared, hpolicy⟩ := hvalues.providers original (mem_sortedBy.mp horiginal)
    exact holdable_providerDict (holdable_storedMapping hdeclared) (holdable_storedMapping hpolicy)
  · intro record hrecord
    obtain ⟨original, horiginal, rfl⟩ := mem_map.mp hrecord
    exact holdable_bindingDict
      (holdable_storedMapping (hvalues.bindings original (mem_sortedBy.mp horiginal)))

theorem holdable_fields {listing : Listing}
    (hcapabilities : ∀ record ∈ listing.capabilities, Holdable reader record.toDict)
    (hproviders : ∀ record ∈ listing.providers, Holdable reader record.toDict)
    (hbindings : ∀ record ∈ listing.bindings, Holdable reader record.toDict) :
    Holdable reader (.obj listing.fields) := by
  have hedges : Holdable reader
      (writeList RelationshipEdge.toDict listing.relationships) :=
    holdable_writeList fun edge _ ↦ by
      simp [RelationshipEdge.toDict, Holdable, HoldableFields]
  simp [Listing.fields, Holdable, HoldableFields,
    holdable_writeList hcapabilities, holdable_writeList hproviders, holdable_writeList hbindings,
    hedges]

theorem Content.JsonValued.fields (hvalues : content.JsonValued reader) :
    Holdable reader (.obj content.listing.fields) :=
  holdable_fields
    (fun record hrecord ↦
      holdable_capabilityDict (hvalues.capabilities record (mem_sortedBy.mp hrecord)))
    (fun record hrecord ↦
      holdable_providerDict (hvalues.providers record (mem_sortedBy.mp hrecord)).1
        (hvalues.providers record (mem_sortedBy.mp hrecord)).2)
    fun record hrecord ↦ holdable_bindingDict (hvalues.bindings record (mem_sortedBy.mp hrecord))

variable {registry : Registry}

theorem holdable_contentOf (hvalues : registry.current.JsonValued reader) :
    Holdable reader (contentOf registry) := by
  have hfields := hvalues.fields
  refine ⟨nodup_cons.mpr ⟨by simp [Listing.fields], hfields.1⟩, ?_⟩
  exact ⟨trivial, hfields.2⟩

theorem readListing_contentOf (registry : Registry) :
    readListing (contentOf registry).canonical = some registry.current.stored.listing := by
  rw [Content.listing_stored]
  simp only [readListing, contentOf, Listing.fields, get?_canonical, find_cons,
    String.reduceEq, if_true, if_false, Option.map_some, Option.bind_eq_bind, Option.bind_some,
    list?_writeList readCapability_stored, list?_writeList readProvider_stored,
    list?_writeList readBinding_stored, @list?_writeList _ _ _ id readRelationship_toDict,
    map_id]

/-- Leaving out a key forgets a field under it. -/
theorem filter_insertField (field : String × Json) (fields : List (String × Json)) :
    (Json.insertField field fields).filter (fun other ↦ other.1 ≠ field.1) =
      fields.filter fun other ↦ other.1 ≠ field.1 := by
  induction fields with
  | nil => simp [Json.insertField]
  | cons head rest ih =>
    unfold Json.insertField
    split
    · rw [filter_cons, filter_cons, ih]
    · rw [filter_cons_of_neg (by simp)]

/-- What was stored without its version compares equal to what the replayed copy would be stored
as. -/
theorem pyEq_persisted (hvalues : registry.current.JsonValued reader) :
    (Json.obj (((contentOf registry).canonical.fields?.getD []).filter fun field ↦
      field.1 ≠ "version")).pyEq (.obj registry.current.stored.listing.fields) = true := by
  have hpersisted : ((contentOf registry).canonical.fields?.getD []).filter
      (fun field ↦ field.1 ≠ "version") = Json.canonicalFields registry.current.listing.fields := by
    refine (filter_insertField ("version", Json.int registry.version) _).trans
      (filter_eq_self.mpr fun field hfield ↦ ?_)
    obtain ⟨original, horiginal, -⟩ := mem_canonicalFields.mp hfield
    have hkey := mem_map_of_mem (f := Prod.fst) horiginal
    simp only [Listing.fields, map_cons, map_nil, mem_cons, not_mem_nil, or_false] at hkey
    rcases hkey with hkey | hkey | hkey | hkey <;> simp [hkey]
  have hcanonical : Json.obj (Json.canonicalFields registry.current.listing.fields) =
      (Json.obj registry.current.listing.fields).canonical := by
    rw [Json.canonical]
  rw [hpersisted, hcanonical]
  refine pyEq_of_canonical_eq _ (Holdable.canonical _ hvalues.fields)
    (holdable_fields hvalues.stored.1 hvalues.stored.2.1 hvalues.stored.2.2) ?_
  rw [canonical_canonical, Content.listing_stored]
  simp only [Listing.fields, Json.canonical, Json.canonicalFields,
    canonical_writeList_map canonical_capability, canonical_writeList_map canonical_provider,
    canonical_writeList_map canonical_binding]

/-- Replaying on a registry ends as replaying on its content. -/
theorem foldlM_applied (registry : Registry) (mutations : List Mutation) :
    (mutations.foldlM applied registry).map Versioned.current =
      mutations.foldlM Content.handle registry.current := by
  induction mutations generalizing registry with
  | nil => rfl
  | cons mutation rest ih =>
    rw [foldlM_cons, foldlM_cons]
    unfold applied
    rcases Versioned.apply_cases Content.handle registry mutation with
      ⟨refusal, hhandle, happly⟩ | ⟨working, hhandle, happly⟩
    · rw [hhandle, happly]
      rfl
    · rw [hhandle, happly]
      exact ih (registry.commit working)

/-- The same records, up to the order of the keys in their dicts, the same edges and the same
names. -/
structure Content.SameAs (content other : Content) : Prop where
  capabilities : ∀ id, (content.capabilities.get? id).map (fun record ↦ record.toDict.canonical) =
    (other.capabilities.get? id).map fun record ↦ record.toDict.canonical
  providers : ∀ id, (content.providers.get? id).map (fun record ↦ record.toDict.canonical) =
    (other.providers.get? id).map fun record ↦ record.toDict.canonical
  bindings : ∀ key, (content.bindings.get? key).map (fun record ↦ record.toDict.canonical) =
    (other.bindings.get? key).map fun record ↦ record.toDict.canonical
  relationships : content.relationships.Perm other.relationships
  resolve : ∀ name, content.resolve name = other.resolve name

theorem sameAs_of_rearranges {content other : Content}
    (hrearranged : content.Rearranges other.stored) : content.SameAs other where
  capabilities := by
    intro id
    rw [hrearranged.capabilities, show other.stored.capabilities =
      other.capabilities.mapValues CapabilityRecord.stored from rfl, get?_mapValues,
      Option.map_map]
    exact congrArg (Option.map · _) (funext canonical_capability)
  providers := by
    intro id
    rw [hrearranged.providers, show other.stored.providers =
      other.providers.mapValues ProviderRecord.stored from rfl, get?_mapValues,
      Option.map_map]
    exact congrArg (Option.map · _) (funext canonical_provider)
  bindings := by
    intro key
    rw [hrearranged.bindings, show other.stored.bindings =
      other.bindings.mapValues BindingRecord.stored from rfl, get?_mapValues,
      Option.map_map]
    exact congrArg (Option.map · _) (funext canonical_binding)
  relationships := hrearranged.relationships
  resolve := fun name ↦ (hrearranged.resolve name).trans (Content.resolve_stored name)

/-- The registry survives a restart: whatever else is stored, what was persisted is loaded as a
registry with the same content and the version number. -/
def Survives (reader : FloatReader) (registry : Registry) : Prop :=
  ∀ storage, ∃ loaded : Registry,
    loadRegistry reader (persistRegistry registry storage) = .ok (loaded, .int registry.version) ∧
      loaded.current.SameAs registry.current

/-- Assumes: the records are JSON values. A registry whose content has its names in order survives a
restart exactly when every binding could be made again. -/
theorem Content.Named.survives_iff_readmissible (hnamed : registry.current.Named)
    (hvalues : registry.current.JsonValued reader) :
    Survives reader registry ↔ registry.current.Readmissible := by
  obtain ⟨replayed, hrearranged, hreplay⟩ := hnamed.stored.exists_replay
  have hstored (storage : OrderedDict String String) :
      (persistRegistry registry storage).get? snapshotKey = some (snapshotText registry) :=
    get?_insert_self ..
  have hloaded : loads reader (snapshotText registry) =
      some (contentOf registry).canonical := loads_dumps (holdable_contentOf hvalues)
  have hversion : (contentOf registry).canonical.get? "version" = some (.int registry.version) := by
    simp [contentOf, get?_canonical, find_cons, canonical_int]
  have hfold := foldlM_applied (Versioned.fresh Content.empty)
    registry.current.stored.listing.mutations
  rw [show (Versioned.fresh Content.empty).current = Content.empty from rfl] at hfold
  rw [← Content.readmissible_stored_iff]
  constructor
  · intro hsurvives
    obtain ⟨loaded, hload, -⟩ := hsurvives .empty
    unfold loadRegistry at hload
    simp only [hstored, hloaded, hversion, readListing_contentOf] at hload
    split at hload
    · cases hload
    · next restored hrestored =>
      rw [hrestored] at hfold
      exact ((hreplay restored.current).mp hfold.symm).1
  · intro hreadmissible storage
    have hend := (hreplay replayed).mpr ⟨hreadmissible, rfl⟩
    rw [← hfold] at hend
    obtain ⟨restored, hrestored, heq⟩ := Checked.map_eq_ok_iff.mp hend
    subst heq
    refine ⟨restored, ?_, sameAs_of_rearranges hrearranged⟩
    unfold loadRegistry
    simp only [hstored, hloaded, hversion, readListing_contentOf, hrestored]
    rw [hrearranged.listing, if_pos (pyEq_persisted hvalues)]

namespace Registry

/-- Assumes: the records are JSON values. The registry that a history led to survives a restart
exactly when every binding of its content could be made again. -/
theorem survives_restart_iff (mutations : List Mutation)
    (hvalues : (after mutations).current.JsonValued reader) :
    Survives reader (after mutations) ↔ (after mutations).current.Readmissible :=
  (all_named_after mutations).current.survives_iff_readmissible hvalues

theorem jsonValued_of_empty
    (hcapabilities : ∀ record ∈ content.capabilities.values, record.constraints = .empty)
    (hproviders : ∀ record ∈ content.providers.values,
      record.declaredConstraints = .empty ∧ record.loadPolicy = .empty)
    (hbindings : ∀ record ∈ content.bindings.values, record.terms = .empty) :
    content.JsonValued reader := by
  have hempty : Holdable reader (writeMapping .empty) :=
    ⟨nodup_nil, trivial⟩
  refine ⟨fun record hrecord ↦ ?_, fun record hrecord ↦ ?_, fun record hrecord ↦ ?_⟩
  · rw [hcapabilities record hrecord]
    exact hempty
  · rw [(hproviders record hrecord).1, (hproviders record hrecord).2]
    exact ⟨hempty, hempty⟩
  · rw [hbindings record hrecord]
    exact hempty

/-- An active capability with its provider and the binding between them survives. -/
theorem survives_boundActive : Survives plainFloats.reader (after (boundRetirement.take 3)) := by
  refine (survives_restart_iff (boundRetirement.take 3) (jsonValued_of_empty (by decide +kernel)
    (by decide +kernel) (by decide +kernel))).mpr fun capabilityId providerId record hrecord ↦ ?_
  have hvalues : (after (boundRetirement.take 3)).current.bindings.values =
      [⟨"cap.a", "prov.x", .empty⟩] := by
    decide +kernel
  have hmem := mem_map_of_mem (f := Prod.snd) ((get?_eq_some_iff _).mp hrecord)
  change record ∈ (after (boundRetirement.take 3)).current.bindings.values at hmem
  rw [hvalues, mem_singleton] at hmem
  subst hmem
  refine ⟨⟨"cap.a", "does a", "nlp", [], .active, [], ["output non-empty"], .empty, 1, none,
      cons_ne_nil _ _⟩, ⟨"prov.x", "1.0.0", .empty, .empty, .active⟩, by decide +kernel, rfl,
    by decide +kernel, ?_⟩
  intro name value declared hvalue
  cases hvalue

/-- When the capability has retired, loading refuses the binding. -/
theorem not_survives_boundRetirement :
    ¬ ∀ mutations, (after mutations).current.JsonValued plainFloats.reader →
      Survives plainFloats.reader (after mutations) := by
  intro hall
  have hsurvives := hall boundRetirement (jsonValued_of_empty (by decide +kernel)
    (by decide +kernel) (by decide +kernel))
  have hreadmissible := ((all_named_after boundRetirement).current.survives_iff_readmissible
    (jsonValued_of_empty (by decide +kernel) (by decide +kernel) (by decide +kernel))).mp hsurvives
  obtain ⟨capability, -, hcapability, hmatchable, -⟩ :=
    hreadmissible "cap.a" "prov.x" ⟨"cap.a", "prov.x", .empty⟩ (by decide +kernel)
  have hretired : ((after boundRetirement).current.capabilities.get? "cap.a").map
      CapabilityRecord.lifecycle = some .retired := by
    decide +kernel
  rw [hcapability, Option.map_some, Option.some.injEq] at hretired
  rw [hretired] at hmatchable
  cases hmatchable

end Registry

end AbsoluteZero.Plugins

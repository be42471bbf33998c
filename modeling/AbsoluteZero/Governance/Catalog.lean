import AbsoluteZero.Foundations.Plan
import AbsoluteZero.Governance.Compiler

/-!
# Histories of the catalog

An append to the store is refused and changes nothing, or it writes one entry that the checks permit
(`Append.endsAs`). Entries are numbered from one and no document version is recorded twice, so a
later append changes nothing that is read as of an earlier position, deprecations excepted
(`PolicyStore.SameAsOf.indexed`).
-/

namespace AbsoluteZero.Governance

open Foundations OrderedDict List

/-! ### Single appends -/

/-- An append to the store, with its arguments. -/
inductive Append
  | document (document : PolicyDocument) (expectNew : Bool)
  | vocabulary (vocabulary : Vocabulary)
  | deprecation (did : DocId) (version : Nat) (provenance : Provenance)
  | manifest (recorded : SnapshotManifest)
  | activation (fact : ActivationFact)

def Append.call : Append → StoreCall Unit
  | .document authored expectNew => appendDocument authored expectNew
  | .vocabulary next => appendVocabulary next
  | .deprecation did version provenance => appendDeprecation did version provenance
  | .manifest recorded => appendManifest recorded
  | .activation fact => appendActivation fact

/-- The store with one more entry. -/
def PolicyStore.extended (store : PolicyStore) (payload : CatalogPayload) : PolicyStore :=
  (store.catalogued payload).indexed payload

def StoreDesk.appended (desk : StoreDesk) (payload : CatalogPayload) : StoreDesk where
  storage := desk.storage.written (catalogKey (desk.store.entries.length + 1))
    (CatalogEntry.mk (desk.store.entries.length + 1) payload).toJson
  store := match desk.storage.answer with
    | .committed => desk.store.extended payload
    | .rejected => desk.store

theorem after_catalogAppend (payload : CatalogPayload) (desk : StoreDesk) :
    (catalogAppend payload).after desk = desk.appended payload := by
  unfold catalogAppend StoreDesk.appended
  rw [Call.after_get_bind]
  cases desk.storage.answer <;> rfl

theorem outcome_catalogAppend (payload : CatalogPayload) (desk : StoreDesk) :
    (catalogAppend payload).outcome desk = match desk.storage.answer with
      | .committed => .ok ()
      | .rejected => .error ⟨.catalogAppendRejected,
          "catalog.append_rejected:" ++ toString (desk.store.entries.length + 1)⟩ := by
  unfold catalogAppend
  rw [Call.outcome_get_bind]
  cases desk.storage.answer <;> rfl

namespace PolicyStore

/-- The last version of a document, zero before the first. -/
def currentVersion (store : PolicyStore) (did : DocId) : Nat := (store.docVersions.get? did).getD 0

/-- What the checks of the appends let through. -/
def Permits (store : PolicyStore) : CatalogPayload → Prop
  | .documentVersion did version document => did = document.docId ∧
      version = store.currentVersion did + 1 ∧
      (store.vocabularyVersions.get? document.header.vocabularyVersion).isSome
  | .vocabularyVersion vocabulary =>
      store.currentVocabularyVersion = 0 ∧ vocabulary.version = 1 ∨
        ∃ current, store.vocabularyVersions.get? store.currentVocabularyVersion = some current ∧
          vocabulary.version = current.version + 1 ∧
          supersetOf vocabulary.domains current.domains ∧
          supersetOf vocabulary.operations current.operations ∧
          supersetOf vocabulary.factNames current.factNames
  | .deprecation marker => (store.documentVersion marker.targetDocId marker.targetVersion).isSome
  | .manifest recorded => ∀ ref ∈ recorded.documentRefs, (store.documentVersion ref.1 ref.2).isSome
  | .activation _ => True

end PolicyStore

/-- The call is refused and changes nothing, or it is the write of the entry, which the checks
permit. -/
def EndsAs (payload : CatalogPayload) (desk : StoreDesk) (call : StoreCall Unit) : Prop :=
  (∃ refusal, call.outcome desk = .error refusal ∧ call.after desk = desk) ∨
    desk.store.Permits payload ∧ call.outcome desk = (catalogAppend payload).outcome desk ∧
      call.after desk = desk.appended payload

namespace EndsAs

variable {payload : CatalogPayload} {desk : StoreDesk}

theorem throw (refusal : Refusal) : EndsAs payload desk (throw refusal) := .inl ⟨refusal, rfl, rfl⟩

theorem catalogAppend (hpermits : desk.store.Permits payload) :
    EndsAs payload desk (Governance.catalogAppend payload) :=
  .inr ⟨hpermits, rfl, after_catalogAppend payload desk⟩

theorem get_bind {next : StoreDesk → StoreCall Unit} (hnext : EndsAs payload desk (next desk)) :
    EndsAs payload desk (get >>= next) := hnext

end EndsAs

def Append.payload (store : PolicyStore) : Append → CatalogPayload
  | .document authored _ =>
    .documentVersion authored.docId (store.currentVersion authored.docId + 1) authored
  | .vocabulary next => .vocabularyVersion next
  | .deprecation did version provenance => .deprecation ⟨did, version, provenance⟩
  | .manifest recorded => .manifest recorded
  | .activation fact => .activation fact

theorem endsAs_document (document : PolicyDocument) (expectNew : Bool) (desk : StoreDesk) :
    EndsAs ((Append.document document expectNew).payload desk.store) desk
      (appendDocument document expectNew) := by
  refine .get_bind ?_
  dsimp only
  split
  · exact .throw _
  · next hvocabulary =>
    split
    · exact .throw _
    · refine .get_bind ?_
      dsimp only
      split
      · exact .throw _
      · refine .catalogAppend ⟨rfl, rfl, ?_⟩
        simpa [Option.isSome_iff_ne_none] using hvocabulary

theorem endsAs_vocabulary (vocabulary : Vocabulary) (desk : StoreDesk) :
    EndsAs (.vocabularyVersion vocabulary) desk (appendVocabulary vocabulary) := by
  refine .get_bind ?_
  split
  · next hstart =>
    split
    · exact .throw _
    · next hone => exact .catalogAppend (.inl ⟨hstart, not_not.mp hone⟩)
  · split
    · exact .throw _
    · next current hcurrent =>
      split
      · exact .throw _
      · next hnext =>
        split
        · exact .throw _
        · next hadditive =>
          exact .catalogAppend (.inr ⟨current, hcurrent, not_not.mp hnext, not_not.mp hadditive⟩)

theorem endsAs_deprecation (did : DocId) (version : Nat) (provenance : Provenance)
    (desk : StoreDesk) : EndsAs (.deprecation ⟨did, version, provenance⟩) desk
      (appendDeprecation did version provenance) := by
  refine .get_bind ?_
  split
  · exact .throw _
  · next hknown =>
    refine .catalogAppend ?_
    simpa [PolicyStore.Permits, Option.isSome_iff_ne_none] using hknown

theorem endsAs_manifest (recorded : SnapshotManifest) (desk : StoreDesk) :
    EndsAs (.manifest recorded) desk (appendManifest recorded) := by
  refine .get_bind ?_
  split
  · exact .throw _
  · next hknown =>
    refine .catalogAppend fun ref href ↦ ?_
    have hsome := find?_eq_none.mp hknown ref href
    simpa [Option.isSome_iff_ne_none] using hsome

theorem endsAs_activation (fact : ActivationFact) (desk : StoreDesk) :
    EndsAs (.activation fact) desk (appendActivation fact) := .catalogAppend trivial

theorem Append.endsAs (append : Append) (desk : StoreDesk) :
    EndsAs (append.payload desk.store) desk append.call := by
  cases append with
  | document authored expectNew => exact endsAs_document authored expectNew desk
  | vocabulary next => exact endsAs_vocabulary next desk
  | deprecation did version provenance => exact endsAs_deprecation did version provenance desk
  | manifest recorded => exact endsAs_manifest recorded desk
  | activation fact => exact endsAs_activation fact desk

/-- The desk afterwards: the same one, or with the entry, which the checks permit. -/
def Writes (payload : CatalogPayload) (desk after : StoreDesk) : Prop :=
  after = desk ∨ desk.store.Permits payload ∧ after = desk.appended payload

theorem Append.after_call (append : Append) (desk : StoreDesk) :
    Writes (append.payload desk.store) desk (append.call.after desk) := by
  rcases append.endsAs desk with ⟨-, -, hafter⟩ | ⟨hpermits, -, hafter⟩
  · exact .inl hafter
  · exact .inr ⟨hpermits, hafter⟩

namespace PolicyStore

/-- The entries are numbered from one, and the versions of a document count up to the last one. -/
structure Sound (store : PolicyStore) : Prop where
  numbered : store.entries.map CatalogEntry.position = List.range' 1 store.entries.length
  counted : ∀ position did version document,
    CatalogEntry.mk position (.documentVersion did version document) ∈ store.entries →
      version ≤ store.currentVersion did

theorem Sound.new : new.Sound := ⟨rfl, nofun⟩

@[simp] theorem entries_indexed (store : PolicyStore) (payload : CatalogPayload) :
    (store.indexed payload).entries = store.entries := by
  cases payload <;> rfl

@[simp] theorem entries_extended (store : PolicyStore) (payload : CatalogPayload) :
    (store.extended payload).entries =
      store.entries ++ [CatalogEntry.mk (store.entries.length + 1) payload] := by
  rw [extended, entries_indexed]
  rfl

variable {store : PolicyStore} {payload : CatalogPayload}

theorem currentVersion_le_extended (hpermits : store.Permits payload) (did : DocId) :
    store.currentVersion did ≤ (store.extended payload).currentVersion did := by
  cases payload with
  | documentVersion did' version document =>
    obtain ⟨-, rfl, -⟩ := hpermits
    by_cases heq : did' = did
    · subst heq
      simp [currentVersion, extended, indexed, catalogued]
    · simp [currentVersion, extended, indexed, catalogued, get?_insert, heq]
  | _ => exact le_rfl

theorem Sound.extended (hsound : store.Sound)
    (hpermits : store.Permits payload) : (store.extended payload).Sound where
  numbered := by
    rw [entries_extended, map_append, hsound.numbered, length_append]
    simp [range'_concat, Nat.add_comm]
  counted := by
    intro position did version document hentry
    rw [entries_extended, mem_append, mem_singleton] at hentry
    rcases hentry with hold | hnew
    · exact (hsound.counted position did version document hold).trans
        (currentVersion_le_extended hpermits did)
    · cases hnew
      simp [currentVersion, PolicyStore.extended, indexed]

theorem Sound.writes {desk after : StoreDesk} (hsound : desk.store.Sound)
    (hwrites : Writes payload desk after) : after.store.Sound := by
  rcases hwrites with rfl | ⟨hpermits, rfl⟩
  · exact hsound
  · unfold StoreDesk.appended
    cases desk.storage.answer with
    | committed => exact hsound.extended hpermits
    | rejected => exact hsound

/-! ### Reads as of a position -/

variable {position : Nat}

theorem asOf_extended (hposition : position ≤ store.catalogPosition) (payload : CatalogPayload) :
    (store.extended payload).asOf position = store.asOf position := by
  have hlate : ¬ store.entries.length + 1 ≤ position :=
    not_le.mpr (Nat.lt_succ_of_le hposition)
  simp [asOf, hlate]

theorem get?_noteVersions {entries : List CatalogEntry} {latest : OrderedDict DocId Nat}
    {did : DocId} {version : Nat}
    (hget : (entries.foldl noteVersion latest).get? did = some version) :
    latest.get? did = some version ∨ ∃ position document,
        CatalogEntry.mk position (.documentVersion did version document) ∈ entries := by
  induction entries generalizing latest with
  | nil => exact .inl hget
  | cons entry rest ih =>
    rcases ih hget with hnoted | ⟨position, document, hentry⟩
    · obtain ⟨position, payload⟩ := entry
      cases payload with
      | documentVersion did' version' document =>
        by_cases heq : did' = did
        · subst heq
          simp only [noteVersion, get?_insert_self, Option.some.injEq] at hnoted
          subst hnoted
          exact .inr ⟨position, document, mem_cons_self⟩
        · simp only [noteVersion, get?_insert, heq, if_false] at hnoted
          exact .inl hnoted
      | _ => exact .inl hnoted
    · exact .inr ⟨position, document, mem_cons_of_mem _ hentry⟩

theorem mem_documentsAsOf {ref : DocId × Nat} :
    ref ∈ store.documentsAsOf position ↔
      ((store.asOf position).foldl noteVersion .empty).get? ref.1 = some ref.2 := by
  rw [documentsAsOf, mem_sortedBy, get?_eq_some_iff]

theorem exists_entry_of_mem_documentsAsOf {did : DocId}
    {version : Nat} (href : (did, version) ∈ store.documentsAsOf position) : ∃ number document,
      CatalogEntry.mk number (.documentVersion did version document) ∈ store.entries := by
  rcases get?_noteVersions (mem_documentsAsOf.mp href) with hempty | ⟨number, document, hentry⟩
  · simp at hempty
  · exact ⟨number, document, (mem_filter.mp hentry).1⟩

structure SameAsOf (first : PolicyStore) (position : Nat) (second : PolicyStore) : Prop where
  reached : position ≤ first.catalogPosition ∧ position ≤ second.catalogPosition
  entries : second.asOf position = first.asOf position
  documents : ∀ ref ∈ first.documentsAsOf position,
    second.documentVersion ref.1 ref.2 = first.documentVersion ref.1 ref.2 ∧
      second.isDeprecated ref.1 ref.2 = first.isDeprecated ref.1 ref.2

namespace SameAsOf

variable {position : Nat} {first second third store : PolicyStore}

theorem refl (hposition : position ≤ store.catalogPosition) : store.SameAsOf position store :=
  ⟨⟨hposition, hposition⟩, rfl, fun _ _ ↦ ⟨rfl, rfl⟩⟩

theorem documentsAsOf (hsame : first.SameAsOf position second) :
    second.documentsAsOf position = first.documentsAsOf position := by
  rw [PolicyStore.documentsAsOf, hsame.entries, PolicyStore.documentsAsOf]

theorem trans (hfirst : first.SameAsOf position second) (hsecond : second.SameAsOf position third) :
    first.SameAsOf position third where
  reached := ⟨hfirst.reached.1, hsecond.reached.2⟩
  entries := hsecond.entries.trans hfirst.entries
  documents := fun ref href ↦ by
    obtain ⟨hversion, hdeprecated⟩ := hsecond.documents ref (hfirst.documentsAsOf ▸ href)
    obtain ⟨hversion', hdeprecated'⟩ := hfirst.documents ref href
    exact ⟨hversion.trans hversion', hdeprecated.trans hdeprecated'⟩

end SameAsOf

/-- The entry does not deprecate a document version that is listed as of the position, unless that
one is deprecated already. -/
def Spares (store : PolicyStore) (position : Nat) : CatalogPayload → Prop
  | .deprecation marker =>
    (marker.targetDocId, marker.targetVersion) ∈ store.documentsAsOf position →
      store.isDeprecated marker.targetDocId marker.targetVersion
  | _ => True

/-- Assumes: the entry is permitted and spares what is listed as of the position. Then it changes
nothing that is read as of it. -/
theorem SameAsOf.extended (hsound : store.Sound) (hposition : position ≤ store.catalogPosition)
    (hpermits : store.Permits payload) (hspares : store.Spares position payload) :
    store.SameAsOf position (store.extended payload) where
  reached := ⟨hposition, hposition.trans (by simp [catalogPosition])⟩
  entries := asOf_extended hposition payload
  documents := by
    rintro ⟨did, version⟩ href
    cases payload with
    | documentVersion did' version' document =>
      obtain ⟨-, rfl, -⟩ := hpermits
      obtain ⟨number, recorded, hentry⟩ := exists_entry_of_mem_documentsAsOf href
      have hold := hsound.counted number did version recorded hentry
      refine ⟨?_, rfl⟩
      -- the new version is one that was never recorded
      have hne : (did', store.currentVersion did' + 1) ≠ (did, version) := by
        rintro heq
        obtain ⟨rfl, rfl⟩ := Prod.mk.inj heq
        omega
      simp [documentVersion, PolicyStore.extended, indexed, catalogued, get?_insert, hne]
    | deprecation marker =>
      refine ⟨rfl, ?_⟩
      by_cases heq : (marker.targetDocId, marker.targetVersion) = (did, version)
      · have hdeprecated := hspares (heq ▸ href)
        obtain ⟨rfl, rfl⟩ := Prod.mk.inj heq
        rw [hdeprecated]
        simp [isDeprecated, PolicyStore.extended, indexed]
      · simp [isDeprecated, PolicyStore.extended, indexed, catalogued, Ne.symm heq]
    | _ => exact ⟨rfl, rfl⟩

theorem SameAsOf.writes {desk after : StoreDesk} (hsound : desk.store.Sound)
    (hposition : position ≤ desk.store.catalogPosition)
    (hspares : desk.storage.answer = .committed → desk.store.Spares position payload)
    (hwrites : Writes payload desk after) : desk.store.SameAsOf position after.store := by
  rcases hwrites with rfl | ⟨hpermits, rfl⟩
  · exact .refl hposition
  · unfold StoreDesk.appended
    cases hanswer : desk.storage.answer with
    | committed => exact .extended hsound hposition hpermits (hspares hanswer)
    | rejected => exact .refl hposition

end PolicyStore

namespace StoreDesk

def fresh (storage : Storage) : StoreDesk := ⟨storage, .new⟩

def performed (desk : StoreDesk) (append : Append) : StoreDesk := append.call.after desk

def run (desk : StoreDesk) (appends : List Append) : StoreDesk := appends.foldl performed desk

/-- The append is no deprecation that storage commits of a document version that is listed as of the
position and not deprecated yet. -/
def Spares (position : Nat) (desk : StoreDesk) (append : Append) : Prop :=
  desk.storage.answer = .committed → desk.store.Spares position (append.payload desk.store)

theorem sound_run {desk : StoreDesk} (hsound : desk.store.Sound) (appends : List Append) :
    (desk.run appends).store.Sound := by
  induction appends generalizing desk with
  | nil => exact hsound
  | cons append rest ih => exact ih (hsound.writes (append.after_call desk))

theorem sound_run_fresh (storage : Storage) (appends : List Append) :
    ((fresh storage).run appends).store.Sound :=
  sound_run PolicyStore.Sound.new appends

/-- What spares the entries as of a position leaves the reads as of it alone. -/
theorem sameAsOf_run {desk : StoreDesk} {position : Nat} {appends : List Append}
    (hsound : desk.store.Sound) (hposition : position ≤ desk.store.catalogPosition)
    (hplan : IsPlan performed (Spares position) desk appends) :
    desk.store.SameAsOf position (desk.run appends).store := by
  induction appends generalizing desk with
  | nil => exact .refl hposition
  | cons append rest ih =>
    have hstep := PolicyStore.SameAsOf.writes hsound hposition hplan.1 (append.after_call desk)
    exact hstep.trans (ih (hsound.writes (append.after_call desk)) hstep.reached.2 hplan.2)

end StoreDesk

end AbsoluteZero.Governance

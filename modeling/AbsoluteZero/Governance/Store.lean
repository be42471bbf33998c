import AbsoluteZero.Foundations.Call
import AbsoluteZero.Governance.Document
import Mathlib.Data.Finset.Basic

/-!
# The vocabulary and the policy store

A vocabulary version lists the terms that rules may use; `evolve` may only add some. The store is
the append-only catalog: an append checks what it is given, writes it to storage under the next
position, and enters it in the catalog and in the indexes if storage committed the write.
-/

namespace AbsoluteZero.Governance

open Foundations

abbrev TermSet := SortedSet String

structure Vocabulary where
  version : Nat
  domains : TermSet
  operations : TermSet
  factNames : TermSet

/-- What `evolve` refuses. -/
inductive VocabularyRefusal
  | notAdditive (text : String)
  | noNewTerms (text : String)

/-- `first.issuperset(second)`. -/
def supersetOf (first second : TermSet) : Bool := second.elements.all fun term ↦ term ∈ first

def notAdditiveText (label : String) (current proposed : TermSet) : String :=
  "vocabulary.not_additive:" ++ label ++ ":removed_or_renamed=" ++
    (Json.arr ((current.elements.filter fun term ↦ term ∉ proposed).map .str)).repr

/-- `evolve`: the proposed term sets, an absent one standing for the current one, make the next
version if they drop nothing and add something. -/
def Vocabulary.evolve (vocabulary : Vocabulary) (domains operations factNames : Option TermSet) :
    Except VocabularyRefusal Vocabulary := do
  let newDomains := domains.getD vocabulary.domains
  let newOperations := operations.getD vocabulary.operations
  let newFactNames := factNames.getD vocabulary.factNames
  if ¬ supersetOf newDomains vocabulary.domains then
    throw (.notAdditive (notAdditiveText "domains" vocabulary.domains newDomains))
  if ¬ supersetOf newOperations vocabulary.operations then
    throw (.notAdditive (notAdditiveText "operations" vocabulary.operations newOperations))
  if ¬ supersetOf newFactNames vocabulary.factNames then
    throw (.notAdditive (notAdditiveText "fact_names" vocabulary.factNames newFactNames))
  if newDomains = vocabulary.domains ∧ newOperations = vocabulary.operations ∧
      newFactNames = vocabulary.factNames then
    throw (.noNewTerms ("vocabulary.no_new_terms:version=" ++ toString vocabulary.version))
  return ⟨vocabulary.version + 1, newDomains, newOperations, newFactNames⟩

/-- `to_dict`. -/
def Vocabulary.toJson (vocabulary : Vocabulary) : Json :=
  .obj [("version", .int vocabulary.version),
    ("domains", .arr (vocabulary.domains.elements.map .str)),
    ("operations", .arr (vocabulary.operations.elements.map .str)),
    ("fact_names", .arr (vocabulary.factNames.elements.map .str))]

def initialDomains : List String :=
  ["execution", "plugin", "filesystem", "repository", "network", "shell", "model", "token-budget",
    "context-limit", "resource-limit", "retry-limit", "persistence", "approval"]

/-- `default_v1`: the initial domains, and nothing else yet. -/
def defaultVocabulary : Vocabulary where
  version := 1
  domains := .ofList initialDomains
  operations := .empty
  factNames := .empty

/-- What storage answers to a write. -/
inductive WriteAnswer
  | committed
  | rejected
  deriving DecidableEq

/-- Storage: what is stored under each key, and how it will answer the next writes. It commits once
the answers are used up. -/
structure Storage where
  blobs : OrderedDict String Json
  answers : List WriteAnswer

namespace Storage

def answer (storage : Storage) : WriteAnswer := storage.answers.headD .committed

def written (storage : Storage) (key : String) (data : Json) : Storage where
  blobs := match storage.answer with
    | .committed => storage.blobs.insert key data
    | .rejected => storage.blobs
  answers := storage.answers.tail

end Storage

/-! ### Records -/

/-- A snapshot manifest: what a snapshot was compiled from, and its content hash. -/
structure SnapshotManifest where
  snapshotVersion : Nat
  catalogPosition : Nat
  vocabularyVersion : Nat
  compilerRulesetVersion : Nat
  documentRefs : List (DocId × Nat)
  contentHash : String

structure ActivationFact where
  previousSnapshotVersion : Option Nat
  snapshotVersion : Nat

structure DeprecationMarker where
  targetDocId : DocId
  targetVersion : Nat
  provenance : Provenance

inductive CatalogPayload
  | documentVersion (did : DocId) (version : Nat) (document : PolicyDocument)
  | vocabularyVersion (vocabulary : Vocabulary)
  | deprecation (marker : DeprecationMarker)
  | manifest (recorded : SnapshotManifest)
  | activation (fact : ActivationFact)

structure CatalogEntry where
  position : Nat
  payload : CatalogPayload

/-- `ENTRY_KINDS`. -/
def CatalogPayload.kind : CatalogPayload → String
  | .documentVersion .. => "document_version"
  | .vocabularyVersion .. => "vocabulary_version"
  | .deprecation .. => "deprecation"
  | .manifest .. => "manifest"
  | .activation .. => "activation"

/-- A document reference as the list of its parts. -/
def documentRefToJson (ref : DocId × Nat) : Json := .arr [docIdToJson ref.1, .int ref.2]

/-- The payload of an entry as a dict. -/
def CatalogPayload.toJson : CatalogPayload → Json
  | .documentVersion did version document => .obj [("doc_id", docIdToJson did),
      ("version", .int version), ("document", document.toJson)]
  | .vocabularyVersion vocabulary => vocabulary.toJson
  | .deprecation marker => .obj [("target_doc_id", docIdToJson marker.targetDocId),
      ("target_version", .int marker.targetVersion), ("provenance", marker.provenance.toJson)]
  | .manifest recorded => .obj [("snapshot_version", .int recorded.snapshotVersion),
      ("catalog_position", .int recorded.catalogPosition),
      ("vocabulary_version", .int recorded.vocabularyVersion),
      ("compiler_ruleset_version", .int recorded.compilerRulesetVersion),
      ("document_refs", .arr (recorded.documentRefs.map documentRefToJson)),
      ("content_hash", .str recorded.contentHash)]
  | .activation fact => .obj [("previous_snapshot_version",
      match fact.previousSnapshotVersion with
      | some version => .int version
      | none => .null), ("snapshot_version", .int fact.snapshotVersion)]

/-- `canonical_dict`. -/
def CatalogEntry.toJson (entry : CatalogEntry) : Json :=
  .obj [("position", .int entry.position), ("kind", .str entry.payload.kind),
    ("payload", entry.payload.toJson)]

/-- The exception classes of the engine. -/
inductive RefusalKind
  | catalogAppendRejected
  | identityCollision
  | nonMonotonicVersion
  | unknownVocabularyVersion
  | vocabularyNotAdditive
  | unknownDocumentVersion
  | malformedManifest
  | malformedCompileInput
  | unsupportedCompilerRulesetVersion
  | activationRefused
  | regenerationMismatch
  | malformedEvaluationInput
  | unsupportedEvaluationRulesetVersion
  | snapshotIntegrity
  | keyError
  | malformedGrantAppend
  | unknownGrantId
  | ledgerAppendRejected
  | malformedAdmissionInput
  | admissionRefused
  | unknownSnapshotVersion
  | approvalRouting
  deriving DecidableEq

/-- A raised exception: its class and its text. -/
structure Refusal where
  kind : RefusalKind
  text : String

/-- The class of what a call raises; none if it returns. -/
def refusalKind {Result : Type} : Except Refusal Result → Option RefusalKind
  | .ok _ => none
  | .error refusal => some refusal.kind

/-- `repr` of a document id. -/
def reprDocId (did : DocId) : String :=
  "(" ++ Json.quoted (ofLex did).1.text ++ ", " ++ Json.quoted (ofLex did).2 ++ ")"

variable (did : DocId) (version : Nat)

/-- `repr` of a document version. -/
def reprDocVersion : String :=
  "(" ++ reprDocId did ++ ", " ++ toString version ++ ")"

/-! ### The store -/

/-- A `PolicyStore`: the catalog and the indexes over it. -/
structure PolicyStore where
  entries : List CatalogEntry
  docVersions : OrderedDict DocId Nat
  docContent : OrderedDict (DocId × Nat) PolicyDocument
  deprecated : Finset (DocId × Nat)
  vocabularyVersions : OrderedDict Nat Vocabulary
  currentVocabularyVersion : Nat
  manifests : List SnapshotManifest
  activations : List ActivationFact

/-- `PolicyStore(storage)`: a store starts empty, whatever storage holds. -/
def PolicyStore.new : PolicyStore where
  entries := []
  docVersions := .empty
  docContent := .empty
  deprecated := ∅
  vocabularyVersions := .empty
  currentVocabularyVersion := 0
  manifests := []
  activations := []

namespace PolicyStore

variable (store : PolicyStore)

def catalogPosition : Nat := store.entries.length

def exportLog : List Json := store.entries.map CatalogEntry.toJson

/-- The catalog with one more entry. -/
def catalogued (payload : CatalogPayload) : PolicyStore :=
  { store with
    entries := store.entries ++ [{ position := store.entries.length + 1, payload := payload }] }

def indexed : CatalogPayload → PolicyStore
  | .documentVersion did version document =>
    { store with
      docVersions := store.docVersions.insert did version
      docContent := store.docContent.insert (did, version) document }
  | .vocabularyVersion vocabulary =>
    { store with
      vocabularyVersions := store.vocabularyVersions.insert vocabulary.version vocabulary
      currentVocabularyVersion := vocabulary.version }
  | .deprecation marker =>
    { store with
      deprecated := insert (marker.targetDocId, marker.targetVersion) store.deprecated }
  | .manifest recorded => { store with manifests := store.manifests ++ [recorded] }
  | .activation fact => { store with activations := store.activations ++ [fact] }

def isDeprecated : Bool :=
  (did, version) ∈ store.deprecated

def documentVersion : Option PolicyDocument :=
  store.docContent.get? (did, version)

/-- `as_of`: the entries up to a position. -/
def asOf (position : Nat) : List CatalogEntry :=
  store.entries.filter fun entry ↦ entry.position ≤ position

/-- One turn of the loop of `documents_as_of`. -/
def noteVersion (latest : OrderedDict DocId Nat) (entry : CatalogEntry) : OrderedDict DocId Nat :=
  match entry.payload with
  | .documentVersion did version _ => latest.insert did version
  | _ => latest

/-- `documents_as_of`: the version of each document that was the last one appended, sorted. -/
def documentsAsOf (position : Nat) : List (DocId × Nat) :=
  sortedBy toLex ((store.asOf position).foldl noteVersion .empty).items

def vocabularyAsOf (position : Nat) : Option Vocabulary :=
  ((store.asOf position).filterMap fun entry ↦
    match entry.payload with
    | .vocabularyVersion vocabulary => some vocabulary
    | _ => none).getLast?

end PolicyStore

structure StoreDesk where
  storage : Storage
  store : PolicyStore

abbrev StoreCall := Call StoreDesk Refusal

def catalogKey (position : Nat) : String := "sgpe/catalog/" ++ toString position

/-- `Catalog.append`, and what the store then does with the entry: durable write first, then the
position, then the indexes. -/
def catalogAppend (payload : CatalogPayload) : StoreCall Unit := do
  let desk ← get
  let entry : CatalogEntry :=
    { position := desk.store.entries.length + 1, payload := payload }
  let storage := desk.storage.written (catalogKey entry.position) entry.toJson
  match desk.storage.answer with
  | .rejected => do
    set ({ desk with storage := storage } : StoreDesk)
    throw ⟨.catalogAppendRejected, "catalog.append_rejected:" ++ toString entry.position⟩
  | .committed =>
    set ({ storage := storage, store := (desk.store.catalogued payload).indexed payload } :
      StoreDesk)

def applyDocumentVersion (document : PolicyDocument) :
    StoreCall Unit := do
  let desk ← get
  let current := (desk.store.docVersions.get? did).getD 0
  if version ≠ current + 1 then
    throw ⟨.nonMonotonicVersion, "store.non_monotonic_version:" ++ reprDocId did ++ ":expected=" ++
      toString (current + 1) ++ ":got=" ++ toString version⟩
  else
    catalogAppend (.documentVersion did version document)

def appendDocument (document : PolicyDocument) (expectNew : Bool) : StoreCall Unit := do
  let desk ← get
  let did := document.docId
  let current := (desk.store.docVersions.get? did).getD 0
  if (desk.store.vocabularyVersions.get? document.header.vocabularyVersion).isNone then
    throw ⟨.unknownVocabularyVersion, "store.unknown_vocabulary_version:" ++
      toString document.header.vocabularyVersion⟩
  else if expectNew ∧ current ≠ 0 then
    throw ⟨.identityCollision, "store.identity_collision:" ++ reprDocId did⟩
  else
    applyDocumentVersion did (current + 1) document

/-- `append_vocabulary`: versions count from one, and no term is dropped. -/
def appendVocabulary (vocabulary : Vocabulary) : StoreCall Unit := do
  let desk ← get
  if desk.store.currentVocabularyVersion = 0 then
    if vocabulary.version ≠ 1 then
      throw ⟨.nonMonotonicVersion, "store.vocabulary_must_start_at_1:got=" ++
        toString vocabulary.version⟩
    else
      catalogAppend (.vocabularyVersion vocabulary)
  else
    match desk.store.vocabularyVersions.get? desk.store.currentVocabularyVersion with
    | none => throw ⟨.keyError, toString desk.store.currentVocabularyVersion⟩
    | some current =>
      if vocabulary.version ≠ current.version + 1 then
        throw ⟨.nonMonotonicVersion, "store.non_monotonic_vocabulary_version:expected=" ++
          toString (current.version + 1) ++ ":got=" ++ toString vocabulary.version⟩
      else if ¬ (supersetOf vocabulary.domains current.domains ∧
          supersetOf vocabulary.operations current.operations ∧
          supersetOf vocabulary.factNames current.factNames) then
        throw ⟨.vocabularyNotAdditive, "store.vocabulary_not_additive"⟩
      else
        catalogAppend (.vocabularyVersion vocabulary)

def appendDeprecation (provenance : Provenance) : StoreCall Unit := do
  let desk ← get
  if (desk.store.documentVersion did version).isNone then
    throw ⟨.unknownDocumentVersion, "store.unknown_document_version:" ++
      reprDocVersion did version⟩
  else
    catalogAppend (.deprecation
      { targetDocId := did, targetVersion := version, provenance := provenance })

/-- `append_manifest`: every document version it names is recorded. -/
def appendManifest (manifest : SnapshotManifest) : StoreCall Unit := do
  let desk ← get
  match manifest.documentRefs.find? fun ref ↦
      (desk.store.documentVersion ref.1 ref.2).isNone with
  | some ref =>
    throw ⟨.unknownDocumentVersion, "store.manifest_cites_unknown_document_version:" ++
      reprDocVersion ref.1 ref.2⟩
  | none => catalogAppend (.manifest manifest)

def appendActivation (fact : ActivationFact) : StoreCall Unit := catalogAppend (.activation fact)

end AbsoluteZero.Governance

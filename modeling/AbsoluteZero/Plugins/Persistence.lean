import AbsoluteZero.Foundations.Reading
import AbsoluteZero.Foundations.SortedSet
import AbsoluteZero.Plugins.Consistency
import Mathlib.Data.Prod.Lex
import Mathlib.Data.String.Basic

/-!
# The stored registry

The content of the current version is stored as one canonical text, its parts sorted by their names.
Loading replays the stored parts as additions to a new registry, which checks every one of them
again, and compares what came out with what was stored.
-/

namespace AbsoluteZero.Plugins

open Foundations Reading

def snapshotKey : String := "prt/registry/snapshot"

/-! ### Writing -/

def writeTexts (texts : List String) : Json := writeList Json.str texts

def writePointer (pointer : Option String) : Json := writeOptional Json.str pointer

def writeMapping (mapping : OrderedDict String Json) : Json := writeDict id mapping

/-- `_capability_dict`. -/
def CapabilityRecord.toDict (record : CapabilityRecord) : Json :=
  .obj [("id", .str record.id), ("description", .str record.description),
    ("category", .str record.category), ("facets", writeTexts record.facets),
    ("lifecycle", .str (ClosedVocabulary.text record.lifecycle)),
    ("aliases", writeTexts record.aliases),
    ("verification_expectations", writeTexts record.verificationExpectations),
    ("constraints", writeMapping record.constraints), ("entry_version", .int record.entryVersion),
    ("deprecation_pointer", writePointer record.deprecationPointer)]

/-- `_provider_dict`. -/
def ProviderRecord.toDict (record : ProviderRecord) : Json :=
  .obj [("id", .str record.id), ("version", .str record.version),
    ("declared_constraints", writeMapping record.declaredConstraints),
    ("load_policy", writeMapping record.loadPolicy),
    ("lifecycle", .str (ClosedVocabulary.text record.lifecycle))]

/-- `_binding_dict`. -/
def BindingRecord.toDict (record : BindingRecord) : Json :=
  .obj [("capability_id", .str record.capabilityId), ("provider_id", .str record.providerId),
    ("terms", writeMapping record.terms)]

/-- `_relationship_dict`. -/
def RelationshipEdge.toDict (edge : RelationshipEdge) : Json :=
  .obj [("kind", .str (ClosedVocabulary.text edge.kind)), ("src", .str edge.src),
    ("dst", .str edge.dst)]

def BindingRecord.sortKey (record : BindingRecord) : String ×ₗ String :=
  toLex (record.capabilityId, record.providerId)

def RelationshipEdge.sortKey (edge : RelationshipEdge) : String ×ₗ String ×ₗ String :=
  toLex (ClosedVocabulary.text edge.kind, toLex (edge.src, edge.dst))

/-- The parts of a content in the order in which they are stored. -/
structure Listing where
  capabilities : List CapabilityRecord
  providers : List ProviderRecord
  bindings : List BindingRecord
  relationships : List RelationshipEdge

def Content.listing (content : Content) : Listing where
  capabilities := sortedBy CapabilityRecord.id content.capabilities.values
  providers := sortedBy ProviderRecord.id content.providers.values
  bindings := sortedBy BindingRecord.sortKey content.bindings.values
  relationships := sortedBy RelationshipEdge.sortKey content.relationships

/-- `_content_no_version` of what is stored. -/
def Listing.fields (listing : Listing) : List (String × Json) :=
  [("capabilities", writeList CapabilityRecord.toDict listing.capabilities),
    ("providers", writeList ProviderRecord.toDict listing.providers),
    ("bindings", writeList BindingRecord.toDict listing.bindings),
    ("relationships", writeList RelationshipEdge.toDict listing.relationships)]

variable (registry : Registry)

/-- `_content`. -/
def contentOf : Json :=
  .obj (("version", .int registry.version) :: registry.current.listing.fields)

/-- `snapshot_bytes`. -/
def snapshotText : String := JsonText.dumps (contentOf registry)

def persistRegistry (storage : OrderedDict String String) :
    OrderedDict String String :=
  storage.insert snapshotKey (snapshotText registry)

def readTexts : Json → Option (List String) := list? text?

/-- `build_capability` of a stored part. -/
def readCapability (data : Json) : Option CapabilityRecord := do
  let id ← (← data.get? "id") |> text?
  let description ← (← data.get? "description") |> text?
  let category ← (← data.get? "category") |> text?
  let facets ← (← data.get? "facets") |> readTexts
  let lifecycle ← (← data.get? "lifecycle") |> word?
  let aliases ← (← data.get? "aliases") |> readTexts
  let verificationExpectations ← (← data.get? "verification_expectations") |> readTexts
  let constraints ← (← data.get? "constraints") |> dict? some
  let entryVersion ← (← data.get? "entry_version") |> int?
  let deprecationPointer ← (← data.get? "deprecation_pointer") |> optional? text?
  if hnonempty : verificationExpectations ≠ [] then
    some ⟨id, description, category, facets, lifecycle, aliases, verificationExpectations,
      constraints, entryVersion, deprecationPointer, hnonempty⟩
  else none

/-- `build_provider` of a stored part. -/
def readProvider (data : Json) : Option ProviderRecord := do
  let id ← (← data.get? "id") |> text?
  let version ← (← data.get? "version") |> text?
  let declaredConstraints ← (← data.get? "declared_constraints") |> dict? some
  let loadPolicy ← (← data.get? "load_policy") |> dict? some
  let lifecycle ← (← data.get? "lifecycle") |> word?
  some ⟨id, version, declaredConstraints, loadPolicy, lifecycle⟩

/-- `build_binding` of a stored part. -/
def readBinding (data : Json) : Option BindingRecord := do
  let capabilityId ← (← data.get? "capability_id") |> text?
  let providerId ← (← data.get? "provider_id") |> text?
  let terms ← (← data.get? "terms") |> dict? some
  some ⟨capabilityId, providerId, terms⟩

/-- `build_relationship` of a stored part. -/
def readRelationship (data : Json) : Option RelationshipEdge := do
  let kind ← (← data.get? "kind") |> word?
  let src ← (← data.get? "src") |> text?
  let dst ← (← data.get? "dst") |> text?
  some ⟨kind, src, dst⟩

/-- Why a stored registry is not loaded: it is missing, it is not one that was stored, one of its
parts is refused, or the replayed content is another. -/
inductive LoadFault
  | missing
  | malformed
  | refused (refusal : Refusal)
  | contentMismatch

/-- The stored parts, each rebuilt by the builder of its records. -/
def readListing (data : Json) : Option Listing := do
  let capabilities ← (← data.get? "capabilities") |> list? readCapability
  let providers ← (← data.get? "providers") |> list? readProvider
  let bindings ← (← data.get? "bindings") |> list? readBinding
  let relationships ← (← data.get? "relationships") |> list? readRelationship
  some ⟨capabilities, providers, bindings, relationships⟩

/-- The parts as mutations, in the order in which they are replayed. -/
def Listing.mutations (listing : Listing) : List Mutation :=
  listing.capabilities.map .addCapability ++ listing.providers.map .addProvider ++
    listing.bindings.map .addBinding ++ listing.relationships.map .addRelationship

/-- `registry.apply`, with the registry after it. -/
def applied (mutation : Mutation) : Except Refusal Registry :=
  match registry.apply Content.handle mutation with
  | (registry', .ok _) => .ok registry'
  | (_, .error refusal) => .error refusal

/-- `load_registry`: the registry with the stored version number. -/
def loadRegistry (reader : JsonText.FloatReader) (storage : OrderedDict String String) :
    Except LoadFault (Registry × Json) :=
  match storage.get? snapshotKey with
  | none => .error .missing
  | some text =>
    match JsonText.loads reader text with
    | none => .error .malformed
    | some data =>
      match data.get? "version", readListing data with
      | some version, some listing =>
        match listing.mutations.foldlM applied (Versioned.fresh Content.empty) with
        | .error refusal => .error (.refused refusal)
        | .ok registry =>
          let persisted := Json.obj ((data.fields?.getD []).filter fun field ↦ field.1 ≠ "version")
          if persisted.pyEq (.obj registry.current.listing.fields) then .ok (registry, version)
          else .error .contentMismatch
      | _, _ => .error .malformed

end AbsoluteZero.Plugins

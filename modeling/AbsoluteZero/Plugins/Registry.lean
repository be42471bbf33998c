import AbsoluteZero.Foundations.Lifecycle
import AbsoluteZero.Foundations.PythonValue
import AbsoluteZero.Foundations.Versioned

/-!
# The plugin registry

Capabilities, providers, bindings, aliases and relationships, changed by one admission operation
over eight kinds of mutations. A mutation is validated against a working copy by the handler of its
kind; the registry takes the copy over as its next version, or refuses. A bundle runs the handlers
of its parts on one copy.
-/

namespace AbsoluteZero.Plugins

open Foundations

/-- `RELATIONSHIP_KINDS`. -/
inductive RelationshipKind
  | dependency
  | composition
  | alternative
  | conflict
  deriving DecidableEq

instance : ClosedVocabulary RelationshipKind where
  all := [.dependency, .composition, .alternative, .conflict]
  text
    | .dependency => "dependency"
    | .composition => "composition"
    | .alternative => "alternative"
    | .conflict => "conflict"

structure CapabilityRecord where
  id : String
  description : String
  category : String
  facets : List String
  lifecycle : Lifecycle
  aliases : List String
  verificationExpectations : List String
  constraints : OrderedDict String Json
  entryVersion : Int
  deprecationPointer : Option String
  expectations_nonempty : verificationExpectations ≠ []
  deriving DecidableEq

structure ProviderRecord where
  id : String
  version : String
  declaredConstraints : OrderedDict String Json
  loadPolicy : OrderedDict String Json
  lifecycle : Lifecycle
  deriving DecidableEq

structure BindingRecord where
  capabilityId : String
  providerId : String
  terms : OrderedDict String Json
  deriving DecidableEq

structure RelationshipEdge where
  kind : RelationshipKind
  src : String
  dst : String

/-- The refusals of the admission, each with its class, and the `KeyError` of an alias whose target
is missing. -/
inductive RefusalKind
  | duplicateId
  | tombstoneReuse
  | aliasResolution
  | relationshipEndpoint
  | bindingConsistency
  | lifecycleTransition
  | aliasTargetRetirement
  | metadataIncomplete
  | notFound
  | unknownMutation
  | missingKey

/-- `PermanentRefusal`: no resubmission under the same id succeeds. -/
def RefusalKind.permanent : RefusalKind → Bool
  | .tombstoneReuse => true
  | _ => false

structure Refusal where
  kind : RefusalKind
  message : String

/-- What one version of the registry holds. A binding is kept under its capability and its
provider, an alias under its own text. -/
structure Content where
  capabilities : OrderedDict String CapabilityRecord
  providers : OrderedDict String ProviderRecord
  bindings : OrderedDict (String × String) BindingRecord
  aliases : OrderedDict String String
  relationships : List RelationshipEdge

/-- The registry before any mutation. -/
def Content.empty : Content := ⟨.empty, .empty, .empty, .empty, []⟩

/-- One candidacy's proposed records. -/
structure Bundle where
  capabilities : List CapabilityRecord
  provider : ProviderRecord
  bindings : List BindingRecord
  relationships : List RelationshipEdge

/-- A mutation. The entity and the target state of a transition are named by text; the last
constructor is a mutation of no known kind, without a kind when it is none. -/
inductive Mutation
  | addCapability (record : CapabilityRecord)
  | updateCapability (record : CapabilityRecord)
  | addProvider (record : ProviderRecord)
  | addBinding (record : BindingRecord)
  | removeBinding (capabilityId providerId : String)
  | addRelationship (record : RelationshipEdge)
  | lifecycleTransition (entity id toState : String)
  | admitBundle (bundle : Bundle)
  | unknown (kind : Option String)

/-- `_constraints_compatible`: shared keys agree. -/
def constraintsCompatible (capabilityConstraints providerConstraints : OrderedDict String Json) :
    Bool :=
  capabilityConstraints.items.all fun item ↦
    match providerConstraints.get? item.1 with
    | some declared => declared.pyEq item.2
    | none => true

/-- `_check_forward` with the refusal it raises. -/
def checkForward (old : Lifecycle) (toState subject : String) : Except Refusal Lifecycle :=
  match old.checkForward toState with
  | .error .unknownState =>
    .error ⟨.lifecycleTransition, "registry.unknown_lifecycle:" ++ subject ++ ":" ++ toState⟩
  | .error .backwardOrSame =>
    .error ⟨.lifecycleTransition, "registry.backward_or_same_transition:" ++ subject ++ ":" ++
      ClosedVocabulary.text old ++ "->" ++ toState⟩
  | .ok new => .ok new

namespace Content

/-- `resolve`: an alias to its target, an id to itself. -/
def resolve (content : Content) (capabilityId : String) : Option String :=
  match content.aliases.get? capabilityId with
  | some canonical => some canonical
  | none => if (content.capabilities.get? capabilityId).isSome then some capabilityId else none

/-- `get_capability`: the capability of an id or of an alias. -/
def getCapability (content : Content) (capabilityId : String) : Option CapabilityRecord :=
  match content.resolve capabilityId with
  | some canonical => content.capabilities.get? canonical
  | none => none

/-! ### Handlers -/

variable (working : Content)

/-- The first alias that is a capability's id or an alias already. -/
def aliasDefect (aliases : List String) : Option Refusal :=
  aliases.findSome? fun name ↦
    if (working.capabilities.get? name).isSome then
      some ⟨.aliasResolution, "registry.alias_collides_with_capability:" ++ name⟩
    else if (working.aliases.get? name).isSome then
      some ⟨.aliasResolution, "registry.alias_already_targeted:" ++ name⟩
    else none

def addCapability (record : CapabilityRecord) : Except Refusal Content :=
  match working.capabilities.get? record.id with
  | some existing =>
    if existing.lifecycle = .retired then
      .error ⟨.tombstoneReuse, "registry.tombstone_reuse:" ++ record.id⟩
    else .error ⟨.duplicateId, "registry.duplicate_id:" ++ record.id⟩
  | none =>
    if (working.aliases.get? record.id).isSome then
      .error ⟨.aliasResolution, "registry.id_already_an_alias:" ++ record.id⟩
    else if record.verificationExpectations = [] then
      .error ⟨.metadataIncomplete, "registry.missing_verification_expectation:" ++ record.id⟩
    else
      match working.aliasDefect record.aliases with
      | some refusal => .error refusal
      | none =>
        .ok { working with
          capabilities := working.capabilities.insert record.id record
          aliases := record.aliases.foldl (fun aliases name ↦ aliases.insert name record.id)
            working.aliases }

def updateCapability (record : CapabilityRecord) : Except Refusal Content :=
  match working.capabilities.get? record.id with
  | none => .error ⟨.notFound, "registry.capability_not_found:" ++ record.id⟩
  | some existing =>
    if existing.lifecycle = .retired then
      .error ⟨.tombstoneReuse, "registry.retired_capability_immutable:" ++ record.id⟩
    else if record.lifecycle ≠ existing.lifecycle then
      .error ⟨.lifecycleTransition, "registry.use_lifecycle_transition_mutation:" ++ record.id⟩
    else if record.category ≠ existing.category then
      .error ⟨.aliasResolution, "registry.category_change_needs_new_id:" ++ record.id⟩
    else if record.aliases ≠ existing.aliases then
      .error ⟨.aliasResolution, "registry.alias_change_not_supported_via_update:" ++ record.id⟩
    else if record.verificationExpectations = [] then
      .error ⟨.metadataIncomplete, "registry.missing_verification_expectation:" ++ record.id⟩
    else .ok { working with capabilities := working.capabilities.insert record.id record }

def addProvider (record : ProviderRecord) : Except Refusal Content :=
  match working.providers.get? record.id with
  | some existing =>
    if existing.lifecycle = .retired then
      .error ⟨.tombstoneReuse, "registry.tombstone_reuse:" ++ record.id⟩
    else .error ⟨.duplicateId, "registry.duplicate_id:" ++ record.id⟩
  | none => .ok { working with providers := working.providers.insert record.id record }

/-- `_handle_add_binding`: the binding is kept under the canonical id. -/
def addBinding (record : BindingRecord) : Except Refusal Content :=
  match working.resolve record.capabilityId with
  | none =>
    .error ⟨.bindingConsistency, "registry.binding_unknown_capability:" ++ record.capabilityId⟩
  | some canonical =>
    match working.capabilities.get? canonical with
    | none => .error ⟨.missingKey, canonical⟩
    | some capability =>
      if capability.lifecycle.matchable = false then
        .error ⟨.bindingConsistency, "registry.binding_target_not_matchable:" ++ canonical ++ ":" ++
          ClosedVocabulary.text capability.lifecycle⟩
      else
        match working.providers.get? record.providerId with
        | none =>
          .error ⟨.bindingConsistency,
            "registry.binding_unregistered_provider:" ++ record.providerId⟩
        | some provider =>
          if constraintsCompatible capability.constraints provider.declaredConstraints then
            .ok { working with
              bindings := working.bindings.insert (canonical, record.providerId)
                { record with capabilityId := canonical } }
          else
            .error ⟨.bindingConsistency,
              "registry.binding_constraint_conflict:" ++ canonical ++ ":" ++ record.providerId⟩

def removeBinding (capabilityId providerId : String) : Except Refusal Content :=
  let notFound : Except Refusal Content :=
    .error ⟨.notFound, "registry.binding_not_found:" ++ capabilityId ++ "," ++ providerId⟩
  match working.resolve capabilityId with
  | none => notFound
  | some canonical =>
    if (working.bindings.get? (canonical, providerId)).isNone then notFound
    else .ok { working with bindings := working.bindings.erase (canonical, providerId) }

def addRelationship (record : RelationshipEdge) : Except Refusal Content :=
  if (working.resolve record.src).isNone then
    .error ⟨.relationshipEndpoint, "registry.dangling_relationship_endpoint:" ++ record.src⟩
  else if (working.resolve record.dst).isNone then
    .error ⟨.relationshipEndpoint, "registry.dangling_relationship_endpoint:" ++ record.dst⟩
  else .ok { working with relationships := working.relationships ++ [record] }

/-- `_handle_lifecycle_transition` of a capability: an alias keeps its target from retiring. -/
def transitionCapability (id toState : String) : Except Refusal Content :=
  match working.capabilities.get? id with
  | none => .error ⟨.notFound, "registry.capability_not_found:" ++ id⟩
  | some existing =>
    match checkForward existing.lifecycle toState id with
    | .error refusal => .error refusal
    | .ok lifecycle =>
      if lifecycle = .retired ∧ id ∈ working.aliases.values then
        .error ⟨.aliasTargetRetirement,
          "registry.alias_still_targets_retiring_capability:" ++ id⟩
      else
        .ok { working with
          capabilities := working.capabilities.insert id { existing with lifecycle } }

/-- `_handle_lifecycle_transition` of a provider: its bindings are dropped when it retires. -/
def transitionProvider (id toState : String) : Except Refusal Content :=
  match working.providers.get? id with
  | none => .error ⟨.notFound, "registry.provider_not_found:" ++ id⟩
  | some existing =>
    match checkForward existing.lifecycle toState id with
    | .error refusal => .error refusal
    | .ok lifecycle =>
      .ok { working with
        providers := working.providers.insert id { existing with lifecycle }
        bindings :=
          if lifecycle = .retired then
            (working.bindings.keys.filter fun key ↦ key.2 = id).foldl OrderedDict.erase
              working.bindings
          else working.bindings }

def lifecycleTransition (entity id toState : String) : Except Refusal Content :=
  if entity = "capability" then working.transitionCapability id toState
  else if entity = "provider" then working.transitionProvider id toState
  else .error ⟨.unknownMutation, "registry.unknown_entity:" ++ entity⟩

def admitBundle (bundle : Bundle) : Except Refusal Content := do
  let described ← bundle.capabilities.foldlM addCapability working
  let provided ← described.addProvider bundle.provider
  let bound ← bundle.bindings.foldlM addBinding provided
  bundle.relationships.foldlM addRelationship bound

/-- `_validate`: the handler of the mutation's kind, run on the working copy. -/
def handle : Mutation → Except Refusal Content
  | .addCapability record => working.addCapability record
  | .updateCapability record => working.updateCapability record
  | .addProvider record => working.addProvider record
  | .addBinding record => working.addBinding record
  | .removeBinding capabilityId providerId => working.removeBinding capabilityId providerId
  | .addRelationship record => working.addRelationship record
  | .lifecycleTransition entity id toState => working.lifecycleTransition entity id toState
  | .admitBundle bundle => working.admitBundle bundle
  | .unknown none => .error ⟨.unknownMutation, "registry.malformed_mutation"⟩
  | .unknown (some kind) => .error ⟨.unknownMutation, "registry.unknown_mutation_kind:" ++ kind⟩

end Content

/-- `Registry`: the current content and every version before it. -/
abbrev Registry := Versioned Content

/-- The registry after a sequence of mutations offered to a new one. -/
def Registry.after (mutations : List Mutation) : Registry :=
  (Versioned.fresh Content.empty).offer Content.handle mutations

end AbsoluteZero.Plugins

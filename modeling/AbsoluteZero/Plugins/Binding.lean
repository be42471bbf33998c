import AbsoluteZero.Foundations.Reading
import AbsoluteZero.Foundations.SortedSet
import AbsoluteZero.Plugins.Consistency
import AbsoluteZero.Plugins.Health
import Mathlib.Data.Prod.Lex
import Mathlib.Data.String.Basic

/-!
# Late binding

A capability is resolved by the content of the registry at a version, a snapshot of the health of
the providers, and the declared policy. The first of the eligible providers by declared preference,
then by reliability, then by id is the provider of the contract. The bindings are iterated in the
order of a set (`SetOrder`).
-/

namespace AbsoluteZero.Plugins

open Foundations Reading

/-! ### Snapshots of health -/

/-- What a snapshot says of one provider. -/
structure HealthEntry where
  availability : String
  reliability : FloatNumber

def HealthEntry.toJson (entry : HealthEntry) : Json :=
  .obj [("availability", .str entry.availability), ("reliability", entry.reliability.toJson)]

/-- An entry of a stored snapshot; one without a text and a float in it is refused. -/
def HealthEntry.ofJson (value : Json) : Option HealthEntry :=
  match value.get? "availability", value.get? "reliability" with
  | some (.str availability), some (.float number text) => some ⟨availability, number, text⟩
  | _, _ => none

/-- The entry of a provider with its carry: three states are available. -/
def HealthEntry.ofCarry (carry : Carry) : HealthEntry where
  availability :=
    match carry.effective with
    | .shown .healthy | .shown .degraded | .shown .recovered => "available"
    | _ => "unavailable"
  reliability := carry.reliability

abbrev HealthSnapshot := OrderedDict String HealthEntry

def HealthSnapshot.toJson (snapshot : HealthSnapshot) : Json :=
  writeDict HealthEntry.toJson snapshot

/-- The canonical text of a snapshot: what its hash is taken of, and what is stored. -/
def HealthSnapshot.canonicalText (snapshot : HealthSnapshot) : String :=
  JsonText.dumps snapshot.toJson

/-- The declared policy with the load states of the moment. -/
structure LoadPolicyView where
  adminBarred : List String
  preferences : OrderedDict String (List String)
  loadState : String → LoadState

/-- `permits`: an absent key permits. -/
def Content.permits (content : Content) (providerId : String) : Bool :=
  match content.providers.get? providerId with
  | none => false
  | some provider => ((provider.loadPolicy.get? "loadable").getD (.bool true)).truthy

def LoadPolicyView.preference (policy : LoadPolicyView) (capabilityId : String) : List String :=
  (policy.preferences.get? capabilityId).getD []

/-- `RUNGS`. -/
inductive Rung
  | registered
  | loadable
  | available
  | operational
  | unavailable
  | retired
  deriving DecidableEq

instance : ClosedVocabulary Rung where
  all := [.registered, .loadable, .available, .operational, .unavailable, .retired]
  text
    | .registered => "REGISTERED"
    | .loadable => "LOADABLE"
    | .available => "AVAILABLE"
    | .operational => "OPERATIONAL"
    | .unavailable => "UNAVAILABLE"
    | .retired => "RETIRED"

/-- The rung of a provider that is registered, permitted and not barred. -/
def healthRung (policy : LoadPolicyView) (snapshot : HealthSnapshot) (providerId : String) : Rung :=
  match (snapshot.get? providerId).map HealthEntry.availability with
  | none => .loadable
  | some availability =>
    if availability = "unavailable" ∨ availability = "quarantined" then .unavailable
    else if availability ≠ "available" then .loadable
    else if policy.loadState providerId = .prepared ∨ policy.loadState providerId = .loaded then
      .operational
    else .available

def rungFor (content : Content) (policy : LoadPolicyView) (snapshot : HealthSnapshot)
    (providerId : String) : Rung :=
  match content.providers.get? providerId with
  | none => .retired
  | some provider =>
    if provider.lifecycle = .retired then .retired
    else if providerId ∈ policy.adminBarred then .unavailable
    else if content.permits providerId = false then .registered
    else healthRung policy snapshot providerId

/-- The rungs that can be bound. -/
def Rung.eligible (rung : Rung) : Bool := rung = .available ∨ rung = .operational

/-! ### Resolution -/

structure SetOrder where
  arrange : List String → List String
  perm : ∀ ids, (arrange ids).Perm ids

def Content.providersOf (content : Content) (canonical : String) : List String :=
  (content.bindings.keys.filter fun key ↦ key.1 = canonical).map Prod.snd

def Content.bindingsFor (content : Content) (order : SetOrder) (capabilityId : String) :
    List BindingRecord :=
  match content.resolve capabilityId with
  | none => []
  | some canonical =>
    (order.arrange (content.providersOf canonical)).filterMap fun providerId ↦
      content.bindings.get? (canonical, providerId)

structure BindingContract where
  providerId : String
  providerVersion : String
  capabilityId : String
  constraints : OrderedDict String Json
  loadPolicy : OrderedDict String Json
  registryVersion : Nat
  healthSnapshotHash : String
  contractId : String

structure BindingFailure where
  capabilityId : String
  registryVersion : Nat
  healthSnapshotHash : String
  reasons : List (String × String)
  unknownCapability : Bool

inductive Resolution
  | bound (contract : BindingContract)
  | failed (failure : BindingFailure)

/-- `_canonical_bytes`. -/
def contractText (provider : ProviderRecord) (capabilityId : String)
    (constraints : OrderedDict String Json) (registryVersion : Nat)
    (healthHash : String) : String :=
  JsonText.dumps (.obj [("provider_id", .str provider.id),
    ("provider_version", .str provider.version), ("capability_id", .str capabilityId),
    ("constraints", .obj constraints.items), ("load_policy", .obj provider.loadPolicy.items),
    ("registry_version", .int registryVersion), ("health_snapshot_hash", .str healthHash)])

/-- `pref_rank`: of an id that is listed twice the last place counts. -/
def prefRank (preference : List String) : OrderedDict String Nat :=
  preference.zipIdx.foldl (fun ranks item ↦ ranks.insert item.1 item.2) .empty

/-- The place of a provider among the preferences, after all of them when it is not listed. -/
def rank (preference : List String) (providerId : String) : Nat :=
  ((prefRank preference).get? providerId).getD preference.length

def HealthSnapshot.reliability (snapshot : HealthSnapshot) (providerId : String) : Rat :=
  ((snapshot.get? providerId).map fun entry ↦ entry.reliability.value).getD 0

def sortKey (preference : List String) (snapshot : HealthSnapshot) (providerId : String) :
    Nat ×ₗ Rat ×ₗ String :=
  toLex (rank preference providerId, toLex (-snapshot.reliability providerId, providerId))

/-- `resolve`, at a version with its content. -/
def resolve (digest : String → String) (content : Content) (version : Nat) (order : SetOrder)
    (policy : LoadPolicyView) (snapshot : HealthSnapshot) (capabilityId : String) : Resolution :=
  let healthHash := digest snapshot.canonicalText
  match content.resolve capabilityId with
  | none => .failed ⟨capabilityId, version, healthHash, [], true⟩
  | some canonical =>
    let candidates := content.bindingsFor order canonical
    let rungOf (entry : BindingRecord) := rungFor content policy snapshot entry.providerId
    let reasons := (candidates.filter fun entry ↦ !(rungOf entry).eligible).map fun entry ↦
      (entry.providerId, "ineligible:" ++ ClosedVocabulary.text (rungOf entry))
    let preference := policy.preference canonical
    match sortedBy (fun entry : BindingRecord ↦ sortKey preference snapshot entry.providerId)
        (candidates.filter fun entry ↦ (rungOf entry).eligible) with
    | [] => .failed ⟨canonical, version, healthHash, reasons, false⟩
    | winner :: _ =>
      match content.providers.get? winner.providerId with
      -- an eligible provider is registered
      | none => .failed ⟨canonical, version, healthHash, reasons, false⟩
      | some provider =>
        .bound
          { providerId := provider.id
            providerVersion := provider.version
            capabilityId := canonical
            constraints := winner.terms
            loadPolicy := provider.loadPolicy
            registryVersion := version
            healthSnapshotHash := healthHash
            contractId := digest (contractText provider canonical winner.terms version healthHash) }

end AbsoluteZero.Plugins

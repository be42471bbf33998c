import AbsoluteZero.Governance.Evaluator

/-!
# The grant ledger and the resolver

A record is scoped to one request, principal or project, and a revocation takes over the scope and
the signature of the grant it revokes. The resolver binds a request at admission, and reads what was
recorded up to then at any of its three scopes, and later at its own request scope only.
-/

namespace AbsoluteZero.Governance

open Foundations

/-- `SCOPE_KINDS`. -/
inductive ScopeKind
  | request
  | principal
  | project
  deriving DecidableEq

def ScopeKind.text : ScopeKind → String
  | .request => "request"
  | .principal => "principal"
  | .project => "project"

structure ScopeBinding where
  kind : ScopeKind
  subject : String
  deriving DecidableEq

structure GrantProvenance where
  grantor : String
  snapshotVersion : Nat
  grantSlicePosition : Nat
  evaluationRulesetVersion : Nat
  questionHash : String
  reason : String

structure LedgerRecord where
  recordId : String
  kind : RecordKind
  askSignature : String
  revokedGrantId : Option String
  scope : ScopeBinding
  bound : Option Condition
  provenance : GrantProvenance
  position : Nat

variable (record : LedgerRecord)

/-- `record_to_dict`. -/
def LedgerRecord.toJson : Json :=
  .obj [("record_id", .str record.recordId), ("kind", .str record.kind.text),
    ("ask_signature", .str record.askSignature),
    ("revoked_grant_id", match record.revokedGrantId with
      | some grantId => .str grantId
      | none => .null),
    ("scope", .obj [("kind", .str record.scope.kind.text), ("subject", .str record.scope.subject)]),
    ("bound", conditionToJson record.bound),
    ("provenance", .obj [("grantor", .str record.provenance.grantor),
      ("snapshot_version", .int record.provenance.snapshotVersion),
      ("grant_slice_position", .int record.provenance.grantSlicePosition),
      ("evaluation_ruleset_version", .int record.provenance.evaluationRulesetVersion),
      ("question_hash", .str record.provenance.questionHash),
      ("reason", .str record.provenance.reason)]),
    ("position", .int record.position)]

/-! ### The ledger -/

/-- A `GrantLedger`: its records in the order of their positions. -/
structure GrantLedger where
  records : List LedgerRecord

/-- `GrantLedger(storage)`: a ledger starts empty, whatever storage holds. -/
def GrantLedger.new : GrantLedger := ⟨[]⟩

namespace GrantLedger

variable (ledger : GrantLedger)

def position : Nat := ledger.records.length

/-- `record`: ids are unique, so the first record with the id is the one. -/
def record? (recordId : String) : Option LedgerRecord :=
  ledger.records.find? fun record ↦ record.recordId = recordId

def exportLog : List Json := ledger.records.map LedgerRecord.toJson

def recorded : GrantLedger :=
  ⟨ledger.records ++ [record]⟩

/-- `slice`: the records up to a position that name the request, the principal or the project. -/
def slice (requestId principal project : String) (position : Nat) :
    List LedgerRecord :=
  ledger.records.filter fun record ↦ record.position ≤ position ∧
    record.scope ∈ [⟨.request, requestId⟩, ⟨.principal, principal⟩, ⟨.project, project⟩]

end GrantLedger

/-- The record that `append_grant` makes at a position. -/
def grantRecord (position : Nat) (signature : String) (scope : ScopeBinding)
    (provenance : GrantProvenance) (bound : Option Condition) : LedgerRecord where
  recordId := "grant-" ++ toString position
  kind := .grant
  askSignature := signature
  revokedGrantId := none
  scope := scope
  bound := bound
  provenance := provenance
  position := position

/-- The record that `append_revocation` makes at a position. -/
def revocationRecord (position : Nat) (revoked : LedgerRecord) (provenance : GrantProvenance) :
    LedgerRecord where
  recordId := "revocation-" ++ toString position
  kind := .revocation
  askSignature := revoked.askSignature
  revokedGrantId := some revoked.recordId
  scope := revoked.scope
  bound := none
  provenance := provenance
  position := position

structure LedgerDesk where
  storage : Storage
  ledger : GrantLedger

abbrev LedgerCall := Call LedgerDesk Refusal

def ledgerKey (position : Nat) : String := "sgpe/ledger/" ++ toString position

/-- `_apply`: durable write first, then the position. -/
def applyRecord : LedgerCall LedgerRecord := do
  let desk ← get
  let storage := desk.storage.written (ledgerKey record.position) record.toJson
  match desk.storage.answer with
  | .rejected => do
    set ({ desk with storage := storage } : LedgerDesk)
    throw ⟨.ledgerAppendRejected, "ledger.append_rejected:" ++ toString record.position⟩
  | .committed => do
    set ({ storage := storage, ledger := desk.ledger.recorded record } : LedgerDesk)
    return record

def appendGrant (signature : String) (scope : ScopeBinding) (provenance : GrantProvenance)
    (bound : Option Condition) : LedgerCall LedgerRecord := do
  let desk ← get
  if signature = "" then
    throw ⟨.malformedGrantAppend, "ledger.bad_ask_signature:''"⟩
  else
    applyRecord (grantRecord (desk.ledger.position + 1) signature scope provenance bound)

/-- `append_revocation`: the record names a recorded grant, and takes over its signature and
scope. -/
def appendRevocation (revokedGrantId : String) (provenance : GrantProvenance) :
    LedgerCall LedgerRecord := do
  let desk ← get
  match (desk.ledger.record? revokedGrantId).filter fun record ↦ record.kind = .grant with
  | none =>
    throw ⟨.unknownGrantId, "ledger.revocation_names_unknown_grant:" ++
      Json.quoted revokedGrantId⟩
  | some revoked =>
    applyRecord (revocationRecord (desk.ledger.position + 1) revoked provenance)

/-- An effective policy: the snapshot and the ledger position that a request was admitted at. -/
structure EffectivePolicy where
  snapshotVersion : Nat
  admissionLedgerPosition : Nat
  requestId : String
  principal : String
  project : String
  deriving DecidableEq

/-- The first empty one among the names of a request. -/
def emptyName? (requestId principal project : String) : Option String :=
  ([("request_id", requestId), ("principal", principal), ("project", project)].find? fun part ↦
    part.2 = "").map Prod.fst

def checkBinding (policy : EffectivePolicy) : Option Refusal :=
  if policy.snapshotVersion < 1 then
    some ⟨.malformedAdmissionInput, "resolver.bad_snapshot_version:" ++
      toString policy.snapshotVersion⟩
  else
    (emptyName? policy.requestId policy.principal policy.project).map fun label ↦
      ⟨.malformedAdmissionInput, "resolver.bad_" ++ label ++ ":''"⟩

/-- `admit`: the active snapshot version and the current ledger position, or a refusal. -/
def resolverAdmit (active : Option Nat) (ledger : GrantLedger)
    (requestId principal project : String) : Except Refusal EffectivePolicy :=
  match emptyName? requestId principal project with
  | some label => .error ⟨.malformedAdmissionInput, "resolver.bad_" ++ label ++ ":''"⟩
  | none =>
    match active with
    | none => .error ⟨.admissionRefused, "resolver.admission_refused:no_active_snapshot:" ++
        "bootstrap: first activation precedes first admission"⟩
    | some version =>
      if version < 1 then
        .error ⟨.admissionRefused, "resolver.admission_refused:snapshot_fact_unreadable:" ++
          toString version⟩
      else
        .ok ⟨version, ledger.position, requestId, principal, project⟩

/-- `_project`: a revocation projects to the identity of the grant it revokes. -/
def projectRecord : GrantRecord where
  kind := record.kind
  grantId := match record.kind with
    | .grant => record.recordId
    | .revocation => record.revokedGrantId.getD ""
  askSignature := record.askSignature

/-- What of a slice a request sees: everything up to its admission, and afterwards only what is
scoped to a request. -/
def visible (policy : EffectivePolicy) (record : LedgerRecord) : Bool :=
  record.position ≤ policy.admissionLedgerPosition || record.scope.kind = .request

def consultationSlice (ledger : GrantLedger) (policy : EffectivePolicy) (position : Nat) :
    Except Refusal (List GrantRecord) :=
  match checkBinding policy with
  | some refusal => .error refusal
  | none =>
    if position < policy.admissionLedgerPosition then
      .error ⟨.malformedAdmissionInput, "resolver.consultation_precedes_admission:" ++
        toString position ++ "<" ++ toString policy.admissionLedgerPosition⟩
    else
      .ok (((ledger.slice policy.requestId policy.principal policy.project position).filter
        (visible policy)).map projectRecord)

end AbsoluteZero.Governance

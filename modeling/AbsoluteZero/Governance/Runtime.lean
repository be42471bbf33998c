import AbsoluteZero.Governance.GrantLedger

/-!
# The governance runtime

`GovernanceRuntime` carries the store, the grant ledger, the shared memo of the evaluator and the
registry of compiled snapshots. A view is the effective policy of a request, and it is consulted at
the current position of the ledger. Store and ledger write to one storage.
-/

namespace AbsoluteZero.Governance

open Foundations

/-- A `GovernanceRuntime`, with the storage of its store and its ledger. -/
structure GovernanceRuntime where
  storage : Storage
  store : PolicyStore
  ledger : GrantLedger
  memo : Memo
  snapshots : OrderedDict Nat CompiledSnapshot

abbrev RuntimeCall := Call GovernanceRuntime Refusal

/-- `GovernanceRuntime(store, ledger)`. -/
def GovernanceRuntime.new (storage : Storage) (store : PolicyStore) (ledger : GrantLedger) :
    GovernanceRuntime where
  storage := storage
  store := store
  ledger := ledger
  memo := .empty
  snapshots := .empty

def storePart : Call.Part GovernanceRuntime StoreDesk where
  read runtime := ⟨runtime.storage, runtime.store⟩
  replace desk runtime := { runtime with storage := desk.storage, store := desk.store }
  read_replace _ _ := rfl

def ledgerPart : Call.Part GovernanceRuntime LedgerDesk where
  read runtime := ⟨runtime.storage, runtime.ledger⟩
  replace desk runtime := { runtime with storage := desk.storage, ledger := desk.ledger }
  read_replace _ _ := rfl

def GovernanceRuntime.activeSnapshotVersion (runtime : GovernanceRuntime) : Option Nat :=
  runtime.store.activeSnapshotVersion

section Digest

variable (digest : Json → String)

/-- `snapshot_for`: the snapshot kept in the registry, or the first manifest of the version
regenerated and kept. -/
def snapshotFor (version : Nat) : RuntimeCall CompiledSnapshot := do
  let runtime ← get
  match runtime.snapshots.get? version with
  | some snapshot => return snapshot
  | none =>
    match runtime.store.manifests.find? fun recorded ↦ recorded.snapshotVersion = version with
    | none => throw ⟨.unknownSnapshotVersion, "runtime.unknown_snapshot_version:" ++
        toString version⟩
    | some recorded =>
      match regenerate digest runtime.store recorded with
      | .error refusal => throw refusal
      | .ok snapshot => do
        set ({ runtime with snapshots := runtime.snapshots.insert version snapshot } :
          GovernanceRuntime)
        return snapshot

/-- `admit`. -/
def admitRequest (requestId principal project : String) : RuntimeCall EffectivePolicy := do
  let runtime ← get
  match resolverAdmit runtime.activeSnapshotVersion runtime.ledger requestId principal project with
  | .error refusal => throw refusal
  | .ok policy => return policy

/-- `consult`: the question evaluated at the current position of the ledger, with the memo. -/
def consult (view : EffectivePolicy) (question : Question) : RuntimeCall Outcome := do
  let runtime ← get
  let position := runtime.ledger.position
  match consultationSlice runtime.ledger view position with
  | .error refusal => throw refusal
  | .ok slice => do
    let snapshot ← snapshotFor digest view.snapshotVersion
    let stamps : Stamps := ⟨view.snapshotVersion, position, currentEvaluationRulesetVersion⟩
    let warmed ← get
    let result := evaluate digest snapshot slice question stamps (some warmed.memo)
    set ({ warmed with memo := result.2.getD warmed.memo } : GovernanceRuntime)
    match result.1 with
    | .error refusal => throw refusal
    | .ok outcome => return outcome

/-- `replay`: the question evaluated at a recorded position, without a memo. -/
def replay (view : EffectivePolicy) (question : Question) (position rulesetVersion : Nat) :
    RuntimeCall Outcome := do
  let runtime ← get
  match consultationSlice runtime.ledger view position with
  | .error refusal => throw refusal
  | .ok slice => do
    let snapshot ← snapshotFor digest view.snapshotVersion
    match (evaluate digest snapshot slice question
      ⟨view.snapshotVersion, position, rulesetVersion⟩ none).1 with
    | .error refusal => throw refusal
    | .ok outcome => return outcome

end Digest

/-! ### The approval door -/

def checkRoutable (view : EffectivePolicy) (decision : Decision) : Option Refusal :=
  if decision.snapshotVersion ≠ view.snapshotVersion then
    some ⟨.approvalRouting, "runtime.decision_from_different_world:" ++
      toString decision.snapshotVersion⟩
  else none

/-- `_provenance_from_decision`: the provenance, unless one of its texts is empty. -/
def provenanceFromDecision (decision : Decision) (grantor reason : String) :
    Except Refusal GrantProvenance :=
  match [("grantor", grantor), ("question_hash", decision.questionHash), ("reason", reason)].find?
      fun part ↦ part.2 = "" with
  | some part => .error ⟨.malformedGrantAppend, "ledger.bad_" ++ part.1 ++ ":''"⟩
  | none => .ok {
      grantor := grantor
      snapshotVersion := decision.snapshotVersion
      grantSlicePosition := decision.grantSlicePosition
      evaluationRulesetVersion := decision.evaluationRulesetVersion
      questionHash := decision.questionHash
      reason := reason }

def routeApproval (view : EffectivePolicy) (decision : Decision) (grantor reason : String)
    (bound : Option Condition) : RuntimeCall LedgerRecord :=
  match checkRoutable view decision with
  | some refusal => throw refusal
  | none =>
    match decision.effect.kind, decision.askSignature with
    | .requireApproval, some signature =>
      if view.requestId = "" then throw ⟨.malformedGrantAppend, "ledger.bad_scope_subject:''"⟩
      else
        match provenanceFromDecision decision grantor reason with
        | .error refusal => throw refusal
        | .ok provenance =>
          (appendGrant signature ⟨.request, view.requestId⟩ provenance bound).on ledgerPart
    | _, _ => throw ⟨.approvalRouting, "runtime.not_an_approval_ask:" ++
        Json.quoted decision.effect.kind.text⟩

end AbsoluteZero.Governance

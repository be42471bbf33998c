import AbsoluteZero.Verification.Derivation
import AbsoluteZero.Verification.Judgment

/-!
# The verification engine

Intake answers a demand, an open judgment gathers evidence, and a complete one is closed, derived,
stored and announced, in this order. Storage and bus answer from outside, and an operation that
raises leaves what it did before.
-/

namespace AbsoluteZero.Verification

open Foundations

/-! ### Intake -/

/-- `events.CONSUMED`. -/
def consumed : List String :=
  ["verify.requested", "plan.created", "exec.completed", "reasoning.completed"]

/-- `events.PUBLISHED`. -/
def published : List String :=
  ["verify.passed", "verify.failed", "plan.validated", "plan.rejected", "fault.recorded"]

/-- `events._reject`. -/
def unknownEvent (eventName : String) : Refusal :=
  .unknownEvent ("events.unknown_event:" ++ eventName ++ ":VAE/05 §2 closed set")

/-- `ACTIONS` of the intake. -/
inductive IntakeAction
  | opened
  | alreadyOpen
  | answeredByExistingVerdict
  | deduped
  deriving DecidableEq

structure IntakeResult where
  action : IntakeAction
  artifactRef : String
  judgmentId : Option String
  verdictRef : Option String

/-- `Intake`: the event ids seen, the open judgments and the terminal verdicts by artifact. -/
structure Intake where
  seenEventIds : List String
  openJudgments : OrderedDict String String
  terminalVerdicts : OrderedDict String String

namespace Intake

def new : Intake := ⟨[], .empty, .empty⟩

variable (intake : Intake)

def receive (eventName eventId artifactRef judgmentId : String) :
    Except Refusal (IntakeResult × Intake) :=
  if eventName ∉ consumed then .error (unknownEvent eventName)
  else if eventId ∈ intake.seenEventIds then .ok (⟨.deduped, artifactRef, none, none⟩, intake)
  else
    let seen := { intake with seenEventIds := eventId :: intake.seenEventIds }
    match intake.terminalVerdicts.get? artifactRef with
    | some verdictRef => .ok (⟨.answeredByExistingVerdict, artifactRef, none, some
      verdictRef⟩, seen)
    | none =>
      match intake.openJudgments.get? artifactRef with
      | some held => .ok (⟨.alreadyOpen, artifactRef, some held, none⟩, seen)
      | none =>
        .ok (⟨.opened, artifactRef, some judgmentId, none⟩,
          { seen with openJudgments := intake.openJudgments.insert artifactRef judgmentId })

def markTerminal (artifactRef verdictRef : String) : Except Refusal Intake :=
  let marked : Intake := { intake with
    terminalVerdicts := intake.terminalVerdicts.insert artifactRef verdictRef
    openJudgments := intake.openJudgments.erase artifactRef }
  match intake.terminalVerdicts.get? artifactRef with
  | none => .ok marked
  | some existing =>
    if existing = verdictRef then .ok marked
    else .error (.terminalConflict ("intake.terminal_verdict_conflict:artifact_ref=" ++ artifactRef
      ++ ":existing=" ++ existing ++ ":new=" ++ verdictRef))

end Intake

structure Demand where
  eventName : String
  eventId : String
  artifactRef : String
  judgmentId : String
  artifactType : String
  rulesVersion : Int
  delegatedCheckLevels : OrderedDict String String
  staticCheckLevels : OrderedDict String String

/-- The judgment that a demand opens: its checks and their levels are the demand's, the deadlines
those of the rules it names. -/
def judgmentOf (rulesStore : RulesStore) (demand : Demand) : Except Refusal Judgment := do
  let artifactRules ← rulesStore.lookup demand.artifactType demand.rulesVersion
  let delegatedChecks ← demand.delegatedCheckLevels.comprehend fun check level ↦
    (artifactRules.deadline check).map fun deadline ↦ DelegatedSpec.mk deadline level
  openJudgment demand.judgmentId demand.artifactRef demand.rulesVersion delegatedChecks
    demand.staticCheckLevels

structure Envelope where
  eventName : String
  eventId : String
  subjectRef : Json
  payload : Json
  deriving DecidableEq

/-- `events.build_envelope`. Every payload below is a dict. -/
def buildEnvelope (eventName eventId : String) (subjectRef payload : Json) :
    Except Refusal Envelope :=
  if eventName ∈ published then .ok ⟨eventName, eventId, subjectRef, payload⟩
  else .error (unknownEvent eventName)

/-- The reason that an item of the body gives, if it failed or conflicts. -/
def itemReason (item : EvidenceItem) : Option Json :=
  if item.Missing then none
  else if item.Conflicting ∨ ¬ item.Passing then
    some (.obj [("rule", item.rule), ("level", item.level), ("result", item.result),
      ("contribution_kind", item.contributionKind)])
  else none

def statementReason (statement : Json) : Except Refusal Json := do
  let rule ← subscript statement "rule"
  let level ← subscript statement "level"
  let reason ← subscript statement "reason"
  return .obj [("rule", rule), ("level", level), ("reason", reason)]

def failureReasons (record : EvidenceRecord) (account : Json) : Except Refusal (List Json) := do
  let uncertainty ← subscript account "uncertainty"
  let statements ← iterated uncertainty
  let reasons ← statements.mapM statementReason
  return record.items.filterMap itemReason ++ reasons

/-- `build_verdict_envelope`: name, id and payload of the verdict event of a record. -/
def buildVerdictEnvelope (recordHash : String) (record : EvidenceRecord) :
    Except Refusal (String × String × Json) := do
  let account := record.derivationAccount
  let verdict ← subscript account "verdict"
  let assurance ← subscript account "assurance_level"
  let payload := [("verdict_id", .str recordHash), ("artifact_id", record.artifactRef),
    ("rules_version", record.rulesVersion),
    ("evidence_record_ref", .str ("storage:vae/ev/" ++ recordHash)), ("assurance_level", assurance)]
  if verdict = .str "passed" then
    return ("verify.passed", recordHash ++ ":passed", .obj payload)
  else
    let cause ← subscript account "failure_cause"
    let reasons ← failureReasons record account
    return ("verify.failed", recordHash ++ ":failed",
      .obj (payload ++ [("failure_cause", cause), ("reasons", .arr reasons)]))

def storageKey (recordHash : String) : String := "vae/ev/" ++ recordHash

/-! ### The engine -/

/-- What storage answers to a write. -/
inductive StorageAnswer
  | committed
  | rejected
  | other (answer : String)

/-- What becomes of a publication: the bus takes it, raises without it, or takes it and raises. -/
inductive PublishAnswer
  | taken
  | down
  | takenThenRaised

inductive EmissionOutcome
  | emitted
  | rejected
  deriving DecidableEq

structure EmissionResult where
  outcome : EmissionOutcome
  artifactRef : String
  storageKey : String
  event : Envelope
  evidenceRecordRef : Option String
  verdict : Option Json

/-- `Verification` with its storage and everything published so far, oldest first. -/
structure Engine where
  rulesStore : RulesStore
  intake : Intake
  judgments : OrderedDict String Judgment
  storage : OrderedDict String String
  bus : List Envelope

namespace Engine

/-- An engine that has seen nothing, over a storage that may hold something. -/
def new (storage : OrderedDict String String) : Engine := ⟨.new, .new, .empty, storage, []⟩

variable (engine : Engine)

/-- `rules_store.ingest`. -/
def ingest (version : Int) (specs : OrderedDict String RulesSpec) : Except Refusal Unit × Engine :=
  match engine.rulesStore.ingest version specs with
  | .error refusal => (.error refusal, engine)
  | .ok rulesStore => (.ok (), { engine with rulesStore := rulesStore })

def handleDemand (demand : Demand) : Except Refusal IntakeResult × Engine :=
  match engine.intake.receive demand.eventName demand.eventId demand.artifactRef
    demand.judgmentId with
  | .error refusal => (.error refusal, engine)
  | .ok (result, intake) =>
    if result.action = .opened then
      match judgmentOf engine.rulesStore demand with
      | .error refusal => (.error refusal, { engine with intake := intake })
      | .ok judgment =>
        (.ok result, { engine with
          intake := intake
          judgments := engine.judgments.insert demand.artifactRef judgment })
    else (.ok result, { engine with intake := intake })

/-- An operation on the open judgment of an artifact, which it replaces when it ends well. -/
def advance (artifactRef : String) (operation : Judgment → Except Refusal Judgment) :
    Except Refusal Judgment × Engine :=
  match engine.judgments.get? artifactRef with
  | none => (.error (.noOpenJudgment ("runtime.no_open_judgment:" ++ artifactRef)), engine)
  | some judgment =>
    match operation judgment with
    | .error refusal => (.error refusal, engine)
    | .ok next => (.ok next, { engine with judgments := engine.judgments.insert artifactRef next })

def dispatch (artifactRef check : String) (acknowledged : Bool) :
    Except Refusal Judgment × Engine :=
  engine.advance artifactRef fun judgment ↦ judgment.dispatchDelegation check acknowledged

/-- `resolve`, which looks the delegation up by itself before it resolves it. -/
def resolve (artifactRef check : String) (polled : Option String) (now : Rat) :
    Except Refusal Judgment × Engine :=
  engine.advance artifactRef fun judgment ↦
    if check ∈ judgment.delegations.keys then judgment.resolveDelegation check polled now
    else .error (.missingKey check)

/-- `judgment.record_late_result` on the open judgment. -/
def lateResult (artifactRef check : String) (polled : Option String) :
    Except Refusal Judgment × Engine :=
  engine.advance artifactRef fun judgment ↦ judgment.recordLateResult check polled

def runStatic (registry : StaticRegistry) (artifactRef check : String) (metadata : Json) :
    Except Refusal Judgment × Engine :=
  engine.advance artifactRef fun judgment ↦ judgment.runStaticCheck registry check metadata

/-- `bus.publish`. -/
def publish (envelope : Envelope) : PublishAnswer → Except Refusal Unit × Engine
  | .taken => (.ok (), { engine with bus := engine.bus ++ [envelope] })
  | .down => (.error (.unavailable "communication.unavailable"), engine)
  | .takenThenRaised =>
    (.error (.unavailable "communication.unavailable"),
      { engine with bus := engine.bus ++ [envelope] })

variable (digest : String → String) (quotient : Nat → Nat → Rat) (policy : DerivationPolicy)

def faultEnvelope (judgment : Judgment) (recordHash : String) : Envelope :=
  ⟨"fault.recorded", recordHash ++ ":fault", .str judgment.artifactRef,
    .obj [("artifact_id", .str judgment.artifactRef), ("rules_version", .int judgment.rulesVersion),
      ("reason", .str "storage_rejected"),
      ("attempted_ref", .str ("storage:" ++ storageKey recordHash))]⟩

/-- The part of `emit_verdict` after a committed write: publish, then mark the artifact terminal. -/
def announce (judgment : Judgment) (record : EvidenceRecord) (answer : PublishAnswer) :
    Except Refusal EmissionResult × Engine :=
  let recordHash := contentHash digest record
  match buildVerdictEnvelope recordHash record with
  | .error refusal => (.error refusal, engine)
  | .ok (eventName, eventId, payload) =>
    match buildEnvelope eventName eventId (.str judgment.artifactRef) payload with
    | .error refusal => (.error refusal, engine)
    | .ok envelope =>
      match engine.publish envelope answer with
      | (.error refusal, told) => (.error refusal, told)
      | (.ok (), told) =>
        let ref := "storage:" ++ storageKey recordHash
        match told.intake.markTerminal judgment.artifactRef ref with
        | .error refusal => (.error refusal, told)
        | .ok intake =>
          (.ok ⟨.emitted, judgment.artifactRef, storageKey recordHash, envelope, some ref,
            record.derivationAccount.get? "verdict"⟩, { told with intake := intake })

/-- `emit_verdict`: derive, store, and only then publish. -/
def emitVerdict (judgment : Judgment) (write : StorageAnswer) (answer : PublishAnswer) :
    Except Refusal EmissionResult × Engine :=
  if judgment.closed = false then
    (.error (.judgmentNotClosed ("emission.judgment_not_closed:" ++ judgment.judgmentId)), engine)
  else if (engine.intake.terminalVerdicts.get? judgment.artifactRef).isSome then
    (.error (.alreadyEmitted ("emission.already_emitted:" ++ judgment.artifactRef)), engine)
  else
    match attachDerivation quotient policy judgment.record with
    | .error refusal => (.error refusal, engine)
    | .ok record =>
      let recordHash := contentHash digest record
      match write with
      | .rejected =>
        let envelope := faultEnvelope judgment recordHash
        match engine.publish envelope answer with
        | (.error refusal, told) => (.error refusal, told)
        | (.ok (), told) =>
          (.ok ⟨.rejected, judgment.artifactRef, storageKey recordHash, envelope, none, none⟩, told)
      | .other text =>
        (.error (.emissionRefused ("emission.unknown_storage_outcome:" ++ Json.quoted
          text)), engine)
      | .committed =>
        let stored := { engine with
          storage := engine.storage.insert (storageKey recordHash) (canonical record) }
        stored.announce digest judgment record answer

/-- The artifact leaves the open judgments when a result was reached. -/
def retire (artifactRef : String) :
    Except Refusal EmissionResult × Engine → Except Refusal (Option EmissionResult) × Engine
  | (.error refusal, left) => (.error refusal, left)
  | (.ok result, left) =>
    (.ok (some result), { left with judgments := left.judgments.erase artifactRef })

def tryCloseAndEmit (artifactRef : String) (write : StorageAnswer) (answer : PublishAnswer) :
    Except Refusal (Option EmissionResult) × Engine :=
  match engine.judgments.get? artifactRef with
  | none => (.ok none, engine)
  | some judgment =>
    if judgment.Complete then
      match judgment.close with
      | .error refusal => (.error refusal, engine)
      | .ok closed =>
        retire artifactRef (engine.emitVerdict digest quotient policy closed write answer)
    else (.ok none, engine)

end Engine

/-- One call of the engine, with the answers that it gets from outside. -/
inductive Call
  | ingest (version : Int) (specs : OrderedDict String RulesSpec)
  | handleDemand (demand : Demand)
  | dispatch (artifactRef check : String) (acknowledged : Bool)
  | resolve (artifactRef check : String) (polled : Option String) (now : Rat)
  | lateResult (artifactRef check : String) (polled : Option String)
  | runStatic (artifactRef check : String) (metadata : Json)
  | tryCloseAndEmit (artifactRef : String) (write : StorageAnswer) (answer : PublishAnswer)

section Runs

variable (registry : StaticRegistry) (digest : String → String) (quotient : Nat → Nat → Rat)
  (policy : DerivationPolicy)

/-- The engine that a call leaves behind, whether or not it raised. -/
def Engine.after (engine : Engine) : Call → Engine
  | .ingest version specs => (engine.ingest version specs).2
  | .handleDemand demand => (engine.handleDemand demand).2
  | .dispatch artifactRef check acknowledged => (engine.dispatch artifactRef check acknowledged).2
  | .resolve artifactRef check polled now => (engine.resolve artifactRef check polled now).2
  | .lateResult artifactRef check polled => (engine.lateResult artifactRef check polled).2
  | .runStatic artifactRef check metadata => (engine.runStatic registry artifactRef
    check metadata).2
  | .tryCloseAndEmit artifactRef write answer =>
    (engine.tryCloseAndEmit digest quotient policy artifactRef write answer).2

def Engine.run (engine : Engine) (calls : List Call) : Engine :=
  calls.foldl (Engine.after registry digest quotient policy) engine

end Runs

end AbsoluteZero.Verification

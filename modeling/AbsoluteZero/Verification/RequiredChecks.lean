import AbsoluteZero.Verification.Openings

/-!
# What a passed verdict says

A passed event says that every item of the body is passing and none is missing or conflicting
(`verdict_of_attached`). The body holds evidence of exactly the checks that the demand named, and
nothing compares them with the rules: `passed_iff_named` gives the condition, `not_passed_complete`
a run.
-/

namespace AbsoluteZero.Verification

open Foundations Checked

variable {registry : StaticRegistry} {digest : String → String} {quotient : Nat → Nat → Rat}
  {policy : DerivationPolicy} {storage : OrderedDict String String}

/-! ### Verdict events -/

/-- The account of a record is filled once, by what `derive` answers for it. -/
theorem attachDerivation_eq_ok_iff {record attached : EvidenceRecord} :
    attachDerivation quotient policy record = .ok attached ↔
      ∃ account, derive quotient policy record = .ok account ∧ record.derivationAccount = .null ∧
        attached = { record with derivationAccount := account.toJson } := by
  unfold attachDerivation
  rw [bind_eq_ok_iff]
  refine exists_congr fun account ↦ and_congr_right fun _ ↦ ?_
  unfold withDerivationAccount
  have hmapping : account.toJson.fields?.isSome = true := rfl
  by_cases hnull : record.derivationAccount = .null
  · rw [if_neg (not_not_intro hnull), if_pos hmapping]
    simp [hnull, eq_comm]
  · simp [hnull]

variable {record : EvidenceRecord}

theorem verdict_of_derive {account : Account}
    (haccount : derive quotient policy record = .ok account) :
    account.verdict = (verdictAndCause record.items).1 := by
  obtain ⟨claims, -, hrest⟩ := bind_eq_ok_iff.mp haccount
  obtain ⟨statements, -, hanswer⟩ := bind_eq_ok_iff.mp hrest
  cases hanswer
  rfl

def verdictName : Verdict → String
  | .passed => "verify.passed"
  | .failed => "verify.failed"

/-- What the id of the event adds to the hash of the record. -/
def verdictSuffix : Verdict → String
  | .passed => ":passed"
  | .failed => ":failed"

/-- The reason that a statement of a derived account gives. -/
def reasonOf (statement : UncertaintyStatement) : Json :=
  .obj [("rule", statement.rule), ("level", worded statement.level),
    ("reason", .str "missing_evidence")]

theorem failureReasons_of_account (account : Account) : failureReasons record account.toJson =
      .ok (record.items.filterMap itemReason ++ account.uncertainty.map reasonOf) := by
  have hstatements : (account.uncertainty.map Account.statementJson).mapM statementReason =
      .ok (account.uncertainty.map reasonOf) := by
    rw [mapM_eq_ok_iff, List.forall₂_map_left_iff, List.forall₂_map_right_iff]
    exact List.forall₂_same.mpr fun _ _ ↦ rfl
  refine bind_eq_ok_iff.mpr ⟨.arr (account.uncertainty.map Account.statementJson), rfl, ?_⟩
  refine bind_eq_ok_iff.mpr ⟨account.uncertainty.map Account.statementJson, rfl, ?_⟩
  exact bind_eq_ok_iff.mpr ⟨_, hstatements, rfl⟩

def verdictPayload (recordHash : String) (record : EvidenceRecord) (account : Account) : Json :=
  .obj ([("verdict_id", .str recordHash), ("artifact_id", record.artifactRef),
    ("rules_version", record.rulesVersion),
    ("evidence_record_ref", .str ("storage:vae/ev/" ++ recordHash)),
    ("assurance_level", worded account.assuranceLevel)] ++
    if account.verdict = .passed then []
    else [("failure_cause", (account.failureCause.map worded).getD .null),
      ("reasons", .arr (record.items.filterMap itemReason ++ account.uncertainty.map reasonOf))])

theorem buildVerdictEnvelope_of_account (recordHash : String) (record : EvidenceRecord)
    (account : Account) (hrecord : record.derivationAccount = account.toJson) :
    buildVerdictEnvelope recordHash record =
      .ok (verdictName account.verdict, recordHash ++ verdictSuffix account.verdict,
        verdictPayload recordHash record account) := by
  unfold buildVerdictEnvelope verdictPayload
  rw [hrecord]
  refine bind_eq_ok_iff.mpr ⟨worded account.verdict, rfl,
    bind_eq_ok_iff.mpr ⟨worded account.assuranceLevel, rfl, ?_⟩⟩
  cases account.verdict with
  | passed => rfl
  | failed =>
    have hword : ¬ worded Verdict.failed = .str "passed" := by decide
    refine (if_neg hword).trans ?_
    exact bind_eq_ok_iff.mpr ⟨_, rfl,
      bind_eq_ok_iff.mpr ⟨_, failureReasons_of_account account, rfl⟩⟩

/-- The verdict event of an account-bearing record of a derivation. -/
def verdictEvent (recordHash artifactRef : String) (record : EvidenceRecord) (account : Account) :
    Envelope :=
  ⟨verdictName account.verdict, recordHash ++ verdictSuffix account.verdict, .str artifactRef,
    verdictPayload recordHash record account⟩

variable {artifactRef : String} {envelope : Envelope}

theorem verdictOf_iff {account : Account} (hrecord : record.derivationAccount = account.toJson) :
    VerdictOf digest artifactRef record envelope ↔
      envelope = verdictEvent (contentHash digest record) artifactRef record account := by
  unfold VerdictOf
  rw [buildVerdictEnvelope_of_account _ _ _ hrecord]
  constructor
  · rintro ⟨eventName, eventId, payload, hbuilt, rfl⟩
    cases hbuilt
    rfl
  · rintro rfl
    exact ⟨_, _, _, rfl, rfl⟩

/-- A record that is stored bears the account of the body of its judgment. -/
theorem verdict_of_attached {record attached : EvidenceRecord}
    (hattached : attachDerivation quotient policy record = .ok attached)
    (hverdict : VerdictOf digest artifactRef attached envelope)
    (hpassed : envelope.eventName = "verify.passed") : attached.items = record.items ∧
      ∀ item ∈ attached.items, item.Passing ∧ ¬ item.Missing ∧ ¬ item.Conflicting := by
  obtain ⟨account, haccount, -, rfl⟩ := attachDerivation_eq_ok_iff.mp hattached
  rw [verdictOf_iff rfl] at hverdict
  subst hverdict
  refine ⟨rfl, ?_⟩
  have hverdict : account.verdict = .passed := by
    cases hcase : account.verdict with
    | passed => rfl
    | failed =>
      change verdictName account.verdict = _ at hpassed
      rw [hcase] at hpassed
      exact absurd hpassed (by decide)
  rw [verdict_of_derive haccount] at hverdict
  exact (verdictAndCause_eq_passed_iff.mp hverdict).2

theorem faultEnvelope_ne {judgment : Judgment} {recordHash : String} :
    (Engine.faultEnvelope judgment recordHash).eventName ≠ "verify.passed" := by
  change "fault.recorded" ≠ _
  decide

theorem passed_of_found {calls : List Call} {engine : Engine} {judgment : Judgment}
    (hsound : engine.Sound registry digest quotient policy storage calls)
    (hfound : engine.judgments.get? artifactRef = some judgment) (hcomplete : judgment.Complete)
    (hrecord : attachDerivation quotient policy judgment.record = .ok record)
    (hverdict : VerdictOf digest judgment.artifactRef record envelope)
    (hpassed : envelope.eventName = "verify.passed") :
    ∃ demand rules, OpenedIn registry digest quotient policy storage calls demand ∧
      engine.rulesStore.lookup demand.artifactType demand.rulesVersion = .ok rules ∧
      envelope.subjectRef = .str demand.artifactRef ∧
      VerdictOf digest demand.artifactRef record envelope ∧
      (∀ item ∈ record.items, item.Passing ∧ ¬ item.Missing ∧ ¬ item.Conflicting) ∧
      ((∀ check ∈ rules.requiredChecks, ∃ item ∈ record.items, item.rule = ruleOf check) ↔
        ∀ check ∈ rules.requiredChecks, demand.Names check) := by
  obtain ⟨demand, hopened, -, haccounted, rules, hrules⟩ := hsound.opened artifactRef
    judgment hfound
  obtain ⟨hitems, hall⟩ := verdict_of_attached hrecord hverdict hpassed
  rw [haccounted.artifactRef] at hverdict
  refine ⟨demand, rules, hopened, hrules, ?_, hverdict, hall, ?_⟩
  · obtain ⟨eventName, eventId, payload, -, rfl⟩ := hverdict
    rfl
  · rw [hitems]
    exact forall₂_congr fun check _ ↦ haccounted.exists_item_iff hcomplete

/-- Assumes: a call of a run published a passed verdict. Its record is stored under the key it
names, every item of the body is passing and neither missing nor conflicting, and every check
required of the artifact under its pinned rules contributed exactly when the demand that opened the
judgment named every required check. -/
theorem passed_iff_named (calls : List Call) (call : Call) (envelope : Envelope)
    (hpublished : ((Engine.new storage).run registry digest quotient policy (calls ++ [call])).bus =
      ((Engine.new storage).run registry digest quotient policy calls).bus ++ [envelope])
    (hpassed : envelope.eventName = "verify.passed") :
    ∃ demand record rules, OpenedIn registry digest quotient policy storage calls demand ∧
      ((Engine.new storage).run registry digest quotient policy calls).rulesStore.lookup
        demand.artifactType demand.rulesVersion = .ok rules ∧
      envelope.subjectRef = .str demand.artifactRef ∧
      VerdictOf digest demand.artifactRef record envelope ∧
      ((Engine.new storage).run registry digest quotient policy (calls ++ [call])).storage.get?
        (storageKey (contentHash digest record)) = some (canonical record) ∧
      (∀ item ∈ record.items, item.Passing ∧ ¬ item.Missing ∧ ¬ item.Conflicting) ∧
      ((∀ check ∈ rules.requiredChecks, ∃ item ∈ record.items, item.rule = ruleOf check) ↔
        ∀ check ∈ rules.requiredChecks, demand.Names check) := by
  have hsound : ((Engine.new storage).run registry digest quotient policy calls).Sound registry
      digest quotient policy storage calls := sound_run calls
  rw [Engine.run_append] at hpublished ⊢
  generalize (Engine.new storage).run registry digest quotient policy calls = engine at *
  have hchange := @Engine.change_after registry digest quotient policy engine call
  generalize engine.after registry digest quotient policy call = next at *
  have hsilent : next.bus ≠ engine.bus := fun hsame ↦ by simp [hsame] at hpublished
  have htold : ∀ other, next.bus = engine.bus ++ [other] → other = envelope :=
    fun other hother ↦ by simpa [hother] using hpublished
  cases hchange with
  | unchanged | ingested | seen | stranded | opened | advanced | heard => exact (hsilent rfl).elim
  | faulted artifactRef judgment record | faultedRaising artifactRef judgment record =>
    have hsame := htold _ rfl
    rw [← hsame] at hpassed
    exact absurd hpassed faultEnvelope_ne
  | stored => exact (hsilent rfl).elim
  | toldRaising artifactRef judgment record other answer hanswer hfound hcomplete hrecord hverdict
  | emitted artifactRef judgment record other hfound hcomplete hnone hrecord hverdict =>
    obtain rfl := htold other rfl
    obtain ⟨demand, rules, hopened, hrules, hsubject, hevent, hitems, hchecks⟩ :=
      passed_of_found hsound hfound hcomplete hrecord hverdict hpassed
    refine ⟨demand, record, rules, hopened, hrules, hsubject, hevent, ?_, hitems, hchecks⟩
    change (engine.storage.insert _ _).get? _ = _
    rw [OrderedDict.get?_insert, if_pos rfl]

/-! ### A run without a required check -/

/-- Rules that require a delegated and a static check of a plugin output. -/
def pluginSpecs : OrderedDict String RulesSpec :=
  OrderedDict.empty.insert "plugin_output" ⟨["structural", "reference_wellformed"], "standard",
    (OrderedDict.empty.insert "structural" 10).insert "reference_wellformed" 5⟩

/-- A demand that names the static check only. -/
def partialDemand : Demand :=
  ⟨"verify.requested", "e1", "artifact:a1", "judgment:a1", "plugin_output", 1, .empty,
    OrderedDict.empty.insert "reference_wellformed" "system"⟩

theorem plainPolicy_version : (1 : Int) ≤ 1 := le_rfl

def plainPolicy : DerivationPolicy :=
  ⟨1, 1 / 2, 9 / 10, plainPolicy_version, by norm_num, by norm_num, by norm_num⟩

/-- A digest that forgets the text. -/
def plainDigest (_ : String) : String := "d"

def plainQuotient (established total : Nat) : Rat := established / total

def plainRun (calls : List Call) : Engine :=
  (Engine.new .empty).run builtInChecks plainDigest plainQuotient plainPolicy calls

/-- The rules are taken, the demand opens its judgment, and its static check is run. -/
def partialCalls : List Call :=
  [.ingest 1 pluginSpecs, .handleDemand partialDemand,
    .runStatic "artifact:a1" "reference_wellformed" .null]

/-- Close and emit, with a storage and a bus that take what they are given. -/
def plainEmission : Call := .tryCloseAndEmit "artifact:a1" .committed .taken

/-- The event that the emission publishes. -/
def partialVerdict : Envelope :=
  ⟨"verify.passed", "d:passed", .str "artifact:a1",
    .obj [("verdict_id", .str "d"), ("artifact_id", .str "artifact:a1"), ("rules_version", .int 1),
      ("evidence_record_ref", .str "storage:vae/ev/d"),
      ("assurance_level", .str "Verified — Low Assurance")]⟩

theorem passed_iff_named_partial : ∃ record : EvidenceRecord,
      (plainRun (partialCalls ++ [plainEmission])).storage.get? "vae/ev/d" =
        some (canonical record) ∧
      ∀ item ∈ record.items, item.Passing ∧ ¬ item.Missing ∧ ¬ item.Conflicting := by
  obtain ⟨-, record, -, -, -, -, -, hstored, hitems, -⟩ :=
    @passed_iff_named builtInChecks plainDigest plainQuotient plainPolicy .empty partialCalls
      plainEmission partialVerdict (by decide +kernel) rfl
  exact ⟨record, hstored, hitems⟩

/-- A passed verdict is published for an artifact of which the required structural check was never
heard. -/
theorem not_passed_complete :
    ¬ ∀ (calls : List Call) (call : Call) (envelope : Envelope) (artifactRef : String)
        (demand : Demand) (judgment : Judgment) (rules : ArtifactRules),
      OpenedIn builtInChecks plainDigest plainQuotient plainPolicy .empty calls demand →
      demand.artifactRef = artifactRef →
      (plainRun calls).judgments.get? artifactRef = some judgment →
      (plainRun (calls ++ [call])).bus = (plainRun calls).bus ++ [envelope] →
      envelope.eventName = "verify.passed" → envelope.subjectRef = .str artifactRef →
      (plainRun calls).rulesStore.lookup demand.artifactType demand.rulesVersion = .ok rules →
      ∀ check ∈ rules.requiredChecks, ∃ item ∈ judgment.record.items, item.rule = ruleOf check := by
  intro hlaw
  obtain ⟨judgment, hfound, hitems⟩ := Option.map_eq_some_iff.mp (show
    ((plainRun partialCalls).judgments.get? "artifact:a1").map
      (fun judgment ↦ judgment.record.items.map EvidenceItem.rule) =
        some [ruleOf "reference_wellformed"] by decide +kernel)
  obtain ⟨rules, hrules, hchecks⟩ := exists_of_toOption_map (show
    ((plainRun partialCalls).rulesStore.lookup "plugin_output" 1).toOption.map
      ArtifactRules.requiredChecks = some ["structural", "reference_wellformed"] by decide +kernel)
  have hopened : OpenedIn builtInChecks plainDigest plainQuotient plainPolicy .empty partialCalls
      partialDemand :=
    ⟨[.ingest 1 pluginSpecs], [.runStatic "artifact:a1" "reference_wellformed" .null], rfl,
      by decide, by decide, rfl, rfl⟩
  obtain ⟨item, hitem, hrule⟩ := hlaw partialCalls plainEmission partialVerdict "artifact:a1"
    partialDemand judgment rules hopened rfl hfound (by decide +kernel) rfl rfl hrules "structural"
    (by rw [hchecks]; exact List.mem_cons_self)
  have hmem : ruleOf "structural" ∈ judgment.record.items.map EvidenceItem.rule :=
    hrule ▸ List.mem_map_of_mem hitem
  rw [hitems] at hmem
  exact absurd hmem (by decide)

end AbsoluteZero.Verification

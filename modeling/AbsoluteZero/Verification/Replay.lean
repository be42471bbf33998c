import AbsoluteZero.Foundations.PythonEquality
import AbsoluteZero.Foundations.Reading
import AbsoluteZero.Verification.OneVerdict

/-!
# Replay of verdicts

`replay` reads a record back by its key, derives it again and rebuilds its verdict event. Every
emitted verdict replays from then on (`verdicts_replay`), and a replay that succeeds, on whatever is
stored, proves that the event is the envelope of a record under its own hash (`genuine_of_replay`).
-/

namespace AbsoluteZero.Verification

open Foundations JsonText Checked List

/-- A published event as the dict that the bus carries. -/
def Envelope.toJson (envelope : Envelope) : Json :=
  .obj [("event_name", .str envelope.eventName), ("event_id", .str envelope.eventId),
    ("subject_ref", envelope.subjectRef), ("payload", envelope.payload)]

/-- `Verification.replay`. Events are compared as data. -/
def replay (reader : FloatReader) (digest : String → String) (quotient : Nat → Nat → Rat)
    (policy : DerivationPolicy) (storage : OrderedDict String String) (key : String)
    (event : Json) :
    Except Refusal (EvidenceRecord × Account) :=
  match storage.get? key with
  | none => .error (.missingKey key)
  | some data => do
    let record ← fromCanonical reader data
    if storageKey (contentHash digest record) ≠ key then
      .error (.replayMismatch ("runtime.replay_key_mismatch:" ++ key))
    else
      let account ← derive quotient policy record
      if dumps account.toJson ≠ dumps record.derivationAccount then
        .error (.replayMismatch ("runtime.replay_account_mismatch:" ++ key))
      else
        let (eventName, eventId, payload) ← buildVerdictEnvelope (contentHash digest record) record
        let envelope ← buildEnvelope eventName eventId record.artifactRef payload
        if envelope.toJson.pyEq event then .ok (record, account)
        else .error (.replayMismatch ("runtime.replay_event_mismatch:" ++ key))

variable {reader : FloatReader} {registry : StaticRegistry} {digest : String → String}
  {quotient : Nat → Nat → Rat} {policy : DerivationPolicy} {storage : OrderedDict String String}

variable {record : EvidenceRecord} {account : Account} {key : String}

/-- A replay that succeeds, taken apart. -/
theorem replay_eq_ok_iff {event : Json} :
    replay reader digest quotient policy storage key event = .ok (record, account) ↔
      ∃ data envelope, storage.get? key = some data ∧ fromCanonical reader data = .ok record ∧
        storageKey (contentHash digest record) = key ∧ derive quotient policy record = .ok account ∧
        dumps account.toJson = dumps record.derivationAccount ∧
        (∃ eventName eventId payload, buildVerdictEnvelope (contentHash digest record) record =
            .ok (eventName, eventId, payload) ∧
          buildEnvelope eventName eventId record.artifactRef payload = .ok envelope) ∧
        envelope.toJson.pyEq event = true := by
  unfold replay
  cases storage.get? key with
  | none => simp
  | some data =>
    simp only [bind_eq_ok_iff]
    constructor
    · rintro ⟨read, hread, hrest⟩
      split at hrest
      · cases hrest
      next hkey =>
      obtain ⟨derived, hderived, hrest⟩ := bind_eq_ok_iff.mp hrest
      split at hrest
      · cases hrest
      next hsame =>
      obtain ⟨⟨eventName, eventId, payload⟩, hbuilt, hrest⟩ := bind_eq_ok_iff.mp hrest
      obtain ⟨envelope, henvelope, hrest⟩ := bind_eq_ok_iff.mp hrest
      obtain ⟨hevent, hrest⟩ := Checked.when_eq_ok_iff.mp hrest
      cases hrest
      exact ⟨data, envelope, rfl, hread, not_not.mp hkey, hderived, not_not.mp hsame,
        ⟨eventName, eventId, payload, hbuilt, henvelope⟩, hevent⟩
    · rintro ⟨other, envelope, hdata, hread, hkey, hderived, hsame,
        ⟨eventName, eventId, payload, hbuilt, henvelope⟩, hevent⟩
      cases hdata
      refine ⟨record, hread, ?_⟩
      rw [if_neg (not_not_intro hkey), bind_eq_ok_iff]
      refine ⟨account, hderived, ?_⟩
      rw [if_neg (not_not_intro hsame), bind_eq_ok_iff]
      refine ⟨_, hbuilt, bind_eq_ok_iff.mpr ⟨envelope, henvelope, ?_⟩⟩
      rw [if_pos hevent]

/-! ### Records of texts -/

/-- Every field of the item is a text. -/
def EvidenceItem.Plain (item : EvidenceItem) : Prop :=
  ∃ rule artifactRef source result kind level, item =
    ⟨.str rule, .str artifactRef, .str source, .str result, .str kind, .str level⟩

/-- The record of a judgment: texts, and a number for the version. -/
structure EvidenceRecord.Plain (record : EvidenceRecord) : Prop where
  artifactRef : ∃ text, record.artifactRef = .str text
  rulesVersion : ∃ version, record.rulesVersion = .int version
  items : ∀ item ∈ record.items, item.Plain

theorem Judgment.Accounted.plain {judgment : Judgment} {demand : Demand}
    (haccounted : judgment.Accounted demand) : judgment.record.Plain := by
  refine ⟨⟨_, haccounted.recordArtifact⟩, ⟨_, haccounted.recordVersion⟩, fun item hitem ↦ ?_⟩
  obtain ⟨check, source, result, kind, level, -, -, rfl⟩ := haccounted.items item hitem
  exact ⟨_, _, _, _, _, _, rfl⟩

variable {value : Json}

theorem subscript_canonical {fields : List (String × Json)}
    (hvalue : OrderedDict.find key fields = some value) :
    subscript (Json.obj fields).canonical key = .ok value.canonical := by
  rw [subscript_eq_ok_iff, Reading.get?_canonical, hvalue]
  rfl

variable {item : EvidenceItem}

theorem itemFromDict_canonical (hplain : item.Plain) :
    itemFromDict (itemToDict item).canonical = .ok item := by
  obtain ⟨rule, artifactRef, source, result, kind, level, rfl⟩ := hplain
  have hfield : ∀ key text, OrderedDict.find key [("rule", Json.str rule),
      ("artifact_ref", .str artifactRef), ("source", .str source), ("result", .str result),
      ("contribution_kind", .str kind), ("level", .str level)] = some (.str text) →
      subscript (itemToDict ⟨.str rule, .str artifactRef, .str source, .str result, .str kind,
        .str level⟩).canonical key = .ok (.str text) := by
    intro key text hfind
    exact (subscript_canonical hfind).trans (by rw [Reading.canonical_str])
  refine bind_eq_ok_iff.mpr ⟨_, hfield "rule" rule rfl, ?_⟩
  refine bind_eq_ok_iff.mpr ⟨_, hfield "artifact_ref" artifactRef rfl, ?_⟩
  refine bind_eq_ok_iff.mpr ⟨_, hfield "source" source rfl, ?_⟩
  refine bind_eq_ok_iff.mpr ⟨_, hfield "result" result rfl, ?_⟩
  refine bind_eq_ok_iff.mpr ⟨_, hfield "contribution_kind" kind rfl, ?_⟩
  exact bind_eq_ok_iff.mpr ⟨_, hfield "level" level rfl, rfl⟩

theorem canonical_arr (elements : List Json) :
    (Json.arr elements).canonical = .arr (elements.map Json.canonical) := by
  rw [Json.canonical, Reading.canonicalElements_eq_map]

/-- The record as it is read back: the keys of its account sorted. -/
def EvidenceRecord.readBack (record : EvidenceRecord) : EvidenceRecord :=
  { record with derivationAccount := record.derivationAccount.canonical }

theorem fromDict_canonical (hplain : record.Plain) :
    fromDict (toDict record).canonical = .ok record.readBack := by
  obtain ⟨artifactRef, hartifact⟩ := hplain.artifactRef
  obtain ⟨version, hversion⟩ := hplain.rulesVersion
  refine bind_eq_ok_iff.mpr ⟨_, subscript_canonical rfl, ?_⟩
  rw [canonical_arr, map_map]
  refine bind_eq_ok_iff.mpr ⟨_, rfl, ?_⟩
  refine bind_eq_ok_iff.mpr ⟨record.items, ?_, ?_⟩
  · rw [mapM_eq_ok_iff, forall₂_map_left_iff, forall₂_same]
    exact fun item hitem ↦ itemFromDict_canonical (hplain.items item hitem)
  · refine bind_eq_ok_iff.mpr ⟨_, subscript_canonical rfl, ?_⟩
    refine bind_eq_ok_iff.mpr ⟨_, subscript_canonical rfl, ?_⟩
    refine bind_eq_ok_iff.mpr ⟨_, subscript_canonical rfl, ?_⟩
    rw [hartifact, hversion, Reading.canonical_str, Reading.canonical_int]
    rw [← hartifact, ← hversion]
    rfl

theorem holdable_itemToDict (hplain : item.Plain) : Holdable reader (itemToDict item) := by
  obtain ⟨rule, artifactRef, source, result, kind, level, rfl⟩ := hplain
  simp [itemToDict, Holdable, HoldableFields]

theorem holdable_toDict (hplain : record.Plain)
    (haccount : Holdable reader record.derivationAccount) :
    Holdable reader (toDict record) := by
  obtain ⟨artifactRef, hartifact⟩ := hplain.artifactRef
  obtain ⟨version, hversion⟩ := hplain.rulesVersion
  have hitems : HoldableElements reader (record.items.map itemToDict) := by
    refine holdableElements_iff.mpr fun value hvalue ↦ ?_
    obtain ⟨item, hitem, rfl⟩ := mem_map.mp hvalue
    exact holdable_itemToDict (hplain.items item hitem)
  simp [toDict, Holdable, HoldableFields, hartifact, hversion, hitems, haccount]

theorem fromCanonical_canonical (hplain : record.Plain)
    (haccount : Holdable reader record.derivationAccount) :
    fromCanonical reader (canonical record) = .ok record.readBack := by
  unfold fromCanonical canonical
  rw [loads_dumps (holdable_toDict hplain haccount)]
  exact fromDict_canonical hplain

theorem canonical_readBack (record : EvidenceRecord) : canonical record.readBack =
    canonical record := by
  unfold canonical dumps toDict EvidenceRecord.readBack
  simp only [Json.canonical, Json.canonicalFields, canonical_canonical]

theorem exists_item_of_statement
    {statement : UncertaintyStatement} (haccount : derive quotient policy record = .ok account)
    (hstatement : statement ∈ account.uncertainty) :
    ∃ item ∈ record.items, statement.rule = item.rule := by
  obtain ⟨claims, hclaims, hrest⟩ := bind_eq_ok_iff.mp haccount
  obtain ⟨statements, hstatements, hanswer⟩ := bind_eq_ok_iff.mp hrest
  cases hanswer
  obtain ⟨sorted, hsorted, rfl⟩ := map_eq_ok_iff.mp hstatements
  obtain ⟨claim, hclaim, rfl⟩ := mem_map.mp hstatement
  unfold sortedClaims at hsorted
  split at hsorted
  · cases hsorted
    have hmem := (mergeSort_perm claims claimLe).mem_iff.mp (mem_of_mem_filter hclaim)
    exact exists_item_of_claim hclaims hmem
  · cases hsorted

theorem holdable_refs (refs : List Nat) : Holdable reader (refsJson refs) := by
  unfold refsJson
  refine holdableElements_iff.mpr fun value hvalue ↦ ?_
  obtain ⟨ref, -, rfl⟩ := mem_map.mp hvalue
  simp [Holdable]

theorem holdable_worded {Word : Type} [ClosedVocabulary Word] (word : Word) :
    Holdable reader (worded word) := by
  simp [worded, Holdable]

theorem rulesVersion_of_derive (haccount : derive quotient policy record = .ok account) :
    account.rulesVersion = record.rulesVersion := by
  obtain ⟨claims, -, hrest⟩ := bind_eq_ok_iff.mp haccount
  obtain ⟨statements, -, hanswer⟩ := bind_eq_ok_iff.mp hrest
  cases hanswer
  rfl

/-- Assumes: JSON text can hold the version and the rules of the record. It can hold the account. -/
theorem holdable_account (haccount : derive quotient policy record = .ok account)
    (hversion : Holdable reader record.rulesVersion)
    (hrules : ∀ item ∈ record.items, Holdable reader item.rule) :
    Holdable reader account.toJson := by
  have hstatements : HoldableElements reader
      (account.uncertainty.map Account.statementJson) := by
    refine holdableElements_iff.mpr fun value hvalue ↦ ?_
    obtain ⟨statement, hstatement, rfl⟩ := mem_map.mp hvalue
    obtain ⟨item, hitem, hrule⟩ := exists_item_of_statement haccount hstatement
    have hholds := hrules item hitem
    rw [← hrule] at hholds
    simp [Account.statementJson, Holdable, HoldableFields, holdable_refs, holdable_worded, hholds]
  have hconfidence : ∀ dimension, Holdable reader (account.confidenceJson dimension) := by
    intro dimension
    simp [Account.confidenceJson, Holdable, HoldableFields, holdable_refs, holdable_worded]
  have hcause : Holdable reader ((account.failureCause.map worded).getD .null) := by
    cases account.failureCause with
    | none => simp [Holdable]
    | some cause => exact holdable_worded cause
  rw [← rulesVersion_of_derive haccount] at hversion
  simp [Account.toJson, Account.coverageJson, Holdable, HoldableFields,
    holdable_refs, holdable_worded, hstatements, hconfidence, hcause, hversion,
      ClosedVocabulary.all,
    ClosedVocabulary.text]

/-! ### Emitted verdicts -/

theorem canonical_worded {Word : Type} [ClosedVocabulary Word] (word : Word) :
    (worded word).canonical = worded word := Reading.canonical_str _

theorem canonical_cause (cause : Option FailureCause) :
    ((cause.map worded).getD .null).canonical = (cause.map worded).getD .null := by
  cases cause with
  | none => exact Reading.canonical_null
  | some cause => exact canonical_worded cause

theorem statementReason_canonical {statement : UncertaintyStatement}
    (hrule : ∃ rule, statement.rule = .str rule) :
    statementReason (Account.statementJson statement).canonical = .ok (reasonOf statement) := by
  obtain ⟨rule, hrule⟩ := hrule
  refine bind_eq_ok_iff.mpr ⟨_, subscript_canonical rfl, ?_⟩
  refine bind_eq_ok_iff.mpr ⟨_, subscript_canonical rfl, ?_⟩
  refine bind_eq_ok_iff.mpr ⟨_, subscript_canonical rfl, ?_⟩
  rw [hrule, canonical_worded, Reading.canonical_str, Reading.canonical_str]
  unfold reasonOf
  rw [hrule]
  rfl

theorem buildVerdictEnvelope_readBack (recordHash : String)
    (hrecord : record.derivationAccount = account.toJson)
    (hrules : ∀ statement ∈ account.uncertainty, ∃ rule, statement.rule = .str rule) :
    buildVerdictEnvelope recordHash record.readBack =
      .ok (verdictName account.verdict, recordHash ++ verdictSuffix account.verdict,
        verdictPayload recordHash record account) := by
  unfold buildVerdictEnvelope verdictPayload EvidenceRecord.readBack
  rw [hrecord]
  refine bind_eq_ok_iff.mpr ⟨worded account.verdict,
    (subscript_canonical rfl).trans (by rw [canonical_worded]),
    bind_eq_ok_iff.mpr ⟨worded account.assuranceLevel,
      (subscript_canonical rfl).trans (by rw [canonical_worded]), ?_⟩⟩
  cases hverdict : account.verdict with
  | passed => rfl
  | failed =>
    have hword : ¬ worded Verdict.failed = .str "passed" := by decide
    have hfailed : ¬ Verdict.failed = .passed := by decide
    refine (if_neg hword).trans ?_
    refine bind_eq_ok_iff.mpr ⟨(account.failureCause.map worded).getD .null,
      (subscript_canonical rfl).trans (by rw [canonical_cause]), ?_⟩
    refine bind_eq_ok_iff.mpr ⟨record.items.filterMap itemReason ++
      account.uncertainty.map reasonOf, ?_, rfl⟩
    refine bind_eq_ok_iff.mpr ⟨_, subscript_canonical rfl, ?_⟩
    rw [canonical_arr]
    refine bind_eq_ok_iff.mpr ⟨_, rfl, ?_⟩
    refine bind_eq_ok_iff.mpr ⟨account.uncertainty.map reasonOf, ?_, rfl⟩
    rw [mapM_eq_ok_iff, map_map, forall₂_map_left_iff, forall₂_map_right_iff, forall₂_same]
    exact fun statement hstatement ↦ statementReason_canonical (hrules statement hstatement)

theorem holdable_event {artifactRef : String} (recordHash : String) (hplain : record.Plain)
    (hrules : ∀ statement ∈ account.uncertainty, ∃ rule, statement.rule = .str rule) :
    Holdable reader (verdictEvent recordHash artifactRef record account).toJson := by
  obtain ⟨artifact, hartifact⟩ := hplain.artifactRef
  obtain ⟨version, hversion⟩ := hplain.rulesVersion
  have hreasons : HoldableElements reader
      (record.items.filterMap itemReason ++ account.uncertainty.map reasonOf) := by
    refine holdableElements_iff.mpr fun value hvalue ↦ ?_
    rcases mem_append.mp hvalue with hitem | hstatement
    · obtain ⟨item, hitem, hreason⟩ := mem_filterMap.mp hitem
      obtain ⟨rule, artifactRef, source, result, kind, level, rfl⟩ := hplain.items item hitem
      unfold itemReason at hreason
      split at hreason
      · cases hreason
      split at hreason
      · cases hreason
        simp [Holdable, HoldableFields]
      · cases hreason
    · obtain ⟨statement, hmem, rfl⟩ := mem_map.mp hstatement
      obtain ⟨rule, hrule⟩ := hrules statement hmem
      simp [reasonOf, hrule, Holdable, HoldableFields, holdable_worded]
  have hcause : Holdable reader ((account.failureCause.map worded).getD .null) := by
    cases account.failureCause with
    | none => simp [Holdable]
    | some cause => exact holdable_worded cause
  have hpayload : Holdable reader (verdictPayload recordHash record account) := by
    unfold verdictPayload
    by_cases hpassed : account.verdict = .passed
    · simp [hpassed, hartifact, hversion, Holdable, HoldableFields, holdable_worded]
    · simp [hpassed, hartifact, hversion, Holdable, HoldableFields,
        holdable_worded, hcause, hreasons]
  simp [Envelope.toJson, verdictEvent, Holdable, HoldableFields, hpayload]

/-- Assumes: the record is one of texts, and the storage holds it with its account under its hash.
The event of its verdict replays. -/
theorem replay_of_stored {record attached : EvidenceRecord} {artifactRef : String}
    {envelope : Envelope} (hplain : record.Plain) (hartifact : record.artifactRef =
      .str artifactRef)
    (hattached : attachDerivation quotient policy record = .ok attached)
    (hverdict : VerdictOf digest artifactRef attached envelope)
    (hstored : storage.get? (storageKey (contentHash digest attached)) =
      some (canonical attached)) :
    ∃ account, replay reader digest quotient policy storage
      (storageKey (contentHash digest attached)) envelope.toJson = .ok
        (attached.readBack, account) := by
  obtain ⟨account, haccount, -, rfl⟩ := attachDerivation_eq_ok_iff.mp hattached
  rw [verdictOf_iff rfl] at hverdict
  subst hverdict
  have hrules : ∀ statement ∈ account.uncertainty, ∃ rule, statement.rule = .str rule := by
    intro statement hstatement
    obtain ⟨item, hitem, hrule⟩ := exists_item_of_statement haccount hstatement
    obtain ⟨rule, other, source, result, kind, level, rfl⟩ := hplain.items item hitem
    exact ⟨rule, hrule⟩
  have hattachedPlain : EvidenceRecord.Plain { record with derivationAccount := account.toJson } :=
    { hplain with }
  obtain ⟨version, hversion⟩ := hplain.rulesVersion
  have hholds : Holdable reader account.toJson := by
    refine holdable_account haccount (by rw [hversion]; simp [Holdable]) fun item hitem ↦ ?_
    obtain ⟨rule, other, source, result, kind, level, rfl⟩ := hplain.items item hitem
    simp [Holdable]
  have hhash : contentHash digest
      (EvidenceRecord.readBack { record with derivationAccount := account.toJson }) =
        contentHash digest { record with derivationAccount := account.toJson } :=
    congrArg digest (canonical_readBack _)
  have hname : verdictName account.verdict ∈ published := by
    cases account.verdict <;> decide
  have hbuilt := buildVerdictEnvelope_readBack
    (contentHash digest { record with derivationAccount := account.toJson })
    (show ({ record with derivationAccount := account.toJson } : EvidenceRecord).derivationAccount =
      account.toJson from rfl) hrules
  have henvelope : buildEnvelope (verdictName account.verdict)
      (contentHash digest { record with derivationAccount := account.toJson } ++
        verdictSuffix account.verdict) record.artifactRef
      (verdictPayload (contentHash digest { record with derivationAccount := account.toJson })
        { record with derivationAccount := account.toJson } account) =
      .ok (verdictEvent (contentHash digest { record with derivationAccount := account.toJson })
        artifactRef { record with derivationAccount := account.toJson } account) := by
    unfold buildEnvelope verdictEvent
    rw [if_pos hname, hartifact]
  refine ⟨account, replay_eq_ok_iff.mpr ⟨_, _, hstored, fromCanonical_canonical
    hattachedPlain hholds,
    by rw [hhash], haccount, (dumps_canonical _).symm, ⟨_, _, _, by rw [hhash]; exact hbuilt,
      henvelope⟩, ?_⟩⟩
  exact @pyEq_self reader _ (holdable_event _ hattachedPlain hrules)

theorem stored_of_emitted {engine next : Engine} {artifactRef : String} {write : StorageAnswer}
    {answer : PublishAnswer} {result : EmissionResult}
    (hemitted : engine.tryCloseAndEmit digest quotient policy artifactRef write answer =
      (.ok (some result), next)) (houtcome : result.outcome = .emitted) :
    ∃ judgment record, engine.judgments.get? artifactRef = some judgment ∧
      attachDerivation quotient policy judgment.record = .ok record ∧
      VerdictOf digest judgment.artifactRef record result.event ∧
      result.storageKey = storageKey (contentHash digest record) ∧
      next.storage.get? result.storageKey = some (canonical record) := by
  cases hfound : engine.judgments.get? artifactRef with
  | none =>
    simp only [Engine.tryCloseAndEmit, hfound] at hemitted
    cases hemitted
  | some judgment =>
    by_cases hcomplete : judgment.Complete
    swap
    · simp only [Engine.tryCloseAndEmit, hfound, if_neg hcomplete] at hemitted
      cases hemitted
    rw [Engine.tryCloseAndEmit_of_complete hfound hcomplete] at hemitted
    by_cases hnone : engine.intake.terminalVerdicts.get? judgment.artifactRef = none
    swap
    · rw [@Engine.emitVerdict_of_terminal _ _ _ _ (Engine.sealed judgment) _ _ rfl
        hnone] at hemitted
      cases hemitted
    rcases @Engine.emitVerdict_cases digest quotient policy engine (Engine.sealed judgment) write
      answer rfl hnone with ⟨refusal, hemit⟩ | ⟨record, hrecord, hemit⟩
    · rw [hemit] at hemitted
      cases hemitted
    rcases hemit with ⟨-, ⟨refusal, -, hemit⟩ | ⟨-, hemit⟩⟩ | ⟨-, hemit⟩
    · rw [hemit] at hemitted
      cases hemitted
    · rw [hemit] at hemitted
      cases hemitted
      cases houtcome
    · rw [hemit] at hemitted
      have hnone' : (engine.storing digest record).intake.terminalVerdicts.get?
          (Engine.sealed judgment).artifactRef = none := hnone
      rcases @Engine.announce_cases digest _ (Engine.sealed judgment) record answer hnone' with
        ⟨refusal, hannounce⟩ | ⟨envelope, hverdict, ⟨refusal, -, hannounce⟩ | ⟨-, hannounce⟩⟩
      · rw [hannounce] at hemitted
        cases hemitted
      · rw [hannounce] at hemitted
        cases hemitted
      · rw [hannounce] at hemitted
        cases hemitted
        refine ⟨judgment, record, rfl, hrecord, hverdict, rfl, ?_⟩
        change (engine.storage.insert _ _).get? _ = _
        rw [Engine.announced, OrderedDict.get?_insert, if_pos rfl]

/-- Assumes: the digest has no collisions. A record stays where it is stored. -/
theorem storage_kept (hdigest : Function.Injective digest) {engine next : Engine} {call : Call}
    (hstored : engine.storage.get? (storageKey (contentHash digest record)) = some
      (canonical record))
    (hchange : engine.Change digest quotient policy call next) :
    next.storage.get? (storageKey (contentHash digest record)) = some (canonical record) := by
  have hinsert : ∀ other : EvidenceRecord, (engine.storage.insert
      (storageKey (contentHash digest other)) (canonical other)).get?
        (storageKey (contentHash digest record)) = some (canonical record) := by
    intro other
    rw [OrderedDict.get?_insert]
    split
    · next hkey =>
      have hhash := (String.append_right_inj "vae/ev/").mp hkey
      rw [hdigest hhash]
    · exact hstored
  cases hchange with
  | stored artifactRef judgment other | toldRaising artifactRef judgment other
  | emitted artifactRef judgment other => exact hinsert other
  | _ => exact hstored

/-- A record stays where it is stored through a run. -/
theorem storage_kept_run (hdigest : Function.Injective digest) {engine : Engine} (calls : List Call)
    {record : EvidenceRecord}
    (hstored : engine.storage.get? (storageKey (contentHash digest record)) = some
      (canonical record)) :
    (engine.run registry digest quotient policy calls).storage.get?
      (storageKey (contentHash digest record)) = some (canonical record) := by
  induction calls generalizing engine with
  | nil => exact hstored
  | cons call rest ih =>
    exact ih (storage_kept hdigest hstored (@Engine.change_after registry _ _ _ _ call))

/-- The calls of an instance, with the checks it was built with and the policy it judges by. -/
structure Session where
  registry : StaticRegistry
  policy : DerivationPolicy
  engine : Engine
  calls : List Call

/-- The storage after later sessions, one after the other. -/
def storageAfter (digest : String → String) (quotient : Nat → Nat → Rat)
    (storage : OrderedDict String String) (sessions : List Session) : OrderedDict String String :=
  sessions.foldl (fun storage session ↦ (({ session.engine with storage := storage } : Engine).run
    session.registry digest quotient session.policy session.calls).storage) storage

/-- A record stays where it is stored through all later sessions. -/
theorem storage_kept_sessions (hdigest : Function.Injective digest)
    (sessions : List Session) {record : EvidenceRecord}
    (hstored : storage.get? (storageKey (contentHash digest record)) = some (canonical record)) :
    (storageAfter digest quotient storage sessions).get?
      (storageKey (contentHash digest record)) = some (canonical record) := by
  induction sessions generalizing storage with
  | nil => exact hstored
  | cons session rest ih =>
    exact ih (@storage_kept_run session.registry digest quotient session.policy hdigest
      { session.engine with storage := storage } session.calls _ hstored)

/-! ### Genuine verdicts -/

/-- JSON text can hold what a subscript finds in a value that it can hold. -/
theorem holdable_of_subscript {value found : Json}
    (hvalue : Holdable reader value) (hfound : subscript value key = .ok found) :
    Holdable reader found := by
  rw [subscript_eq_ok_iff] at hfound
  cases value with
  | obj fields =>
    exact holdableFields_iff.mp hvalue.2 (key, found) (OrderedDict.mem_of_find hfound)
  | _ => cases hfound

theorem holdable_of_iterated {entries : List Json}
    (hvalue : Holdable reader value) (hentries : iterated value = .ok entries) {entry : Json}
    (hentry : entry ∈ entries) : Holdable reader entry := by
  cases value with
  | arr elements =>
    cases hentries
    exact holdableElements_iff.mp hvalue entry hentry
  | str text =>
    cases hentries
    obtain ⟨char, -, rfl⟩ := mem_map.mp hentry
    simp [Holdable]
  | obj fields =>
    cases hentries
    obtain ⟨field, -, rfl⟩ := mem_map.mp hentry
    simp [Holdable]
  | _ => cases hentries

theorem rule_of_itemFromDict
    (hitem : itemFromDict value = .ok item) : subscript value "rule" = .ok item.rule := by
  obtain ⟨rule, hrule, hrest⟩ := bind_eq_ok_iff.mp hitem
  obtain ⟨artifactRef, -, hrest⟩ := bind_eq_ok_iff.mp hrest
  obtain ⟨source, -, hrest⟩ := bind_eq_ok_iff.mp hrest
  obtain ⟨result, -, hrest⟩ := bind_eq_ok_iff.mp hrest
  obtain ⟨kind, -, hrest⟩ := bind_eq_ok_iff.mp hrest
  obtain ⟨level, -, hanswer⟩ := bind_eq_ok_iff.mp hrest
  cases hanswer
  exact hrule

/-- JSON text can hold the version, the account and the rules of a record that was read from
text. -/
theorem holdable_of_fromCanonical {data : String} (hread : fromCanonical reader data = .ok record) :
    Holdable reader record.rulesVersion ∧
      Holdable reader record.derivationAccount ∧
      ∀ item ∈ record.items, Holdable reader item.rule := by
  unfold fromCanonical at hread
  split at hread
  swap
  · cases hread
  next value hvalue =>
  have hholds := holdable_loads hvalue
  obtain ⟨stored, hstored, hrest⟩ := bind_eq_ok_iff.mp hread
  obtain ⟨entries, hentries, hrest⟩ := bind_eq_ok_iff.mp hrest
  obtain ⟨items, hitems, hrest⟩ := bind_eq_ok_iff.mp hrest
  obtain ⟨artifactRef, -, hrest⟩ := bind_eq_ok_iff.mp hrest
  obtain ⟨rulesVersion, hversion, hrest⟩ := bind_eq_ok_iff.mp hrest
  obtain ⟨account, haccount, hanswer⟩ := bind_eq_ok_iff.mp hrest
  cases hanswer
  refine ⟨holdable_of_subscript hholds hversion, holdable_of_subscript hholds haccount, ?_⟩
  intro item hitem
  obtain ⟨entry, hentry, hmade⟩ := exists_of_mem_mapM hitems hitem
  exact holdable_of_subscript
    (holdable_of_iterated (holdable_of_subscript hholds hstored) hentries hentry)
    (rule_of_itemFromDict hmade)

theorem subscript_of_canonical_eq {fields : List (String × Json)} {key text : String}
    (hvalue : value.canonical = (Json.obj fields).canonical)
    (hfind : OrderedDict.find key fields = some (.str text)) :
    subscript value key = .ok (.str text) := by
  have hfound := subscript_canonical hfind
  rw [← hvalue, Reading.canonical_str, subscript_eq_ok_iff] at hfound
  cases value with
  | obj others =>
    rw [Reading.get?_canonical] at hfound
    obtain ⟨found, hother, hcanonical⟩ := Option.map_eq_some_iff.mp hfound
    rw [subscript_eq_ok_iff]
    exact hother.trans (congrArg some (Json.canonical_eq_str hcanonical))
  | _ => simp [Json.canonical] at hvalue

theorem verdict_of_built {recordHash eventName eventId : String} {payload : Json}
    (haccount : record.derivationAccount.canonical = account.toJson.canonical)
    (hbuilt : buildVerdictEnvelope recordHash record = .ok (eventName, eventId, payload)) :
    eventName = verdictName account.verdict ∧
      eventId = recordHash ++ verdictSuffix account.verdict := by
  have hverdict : subscript record.derivationAccount "verdict" = .ok (worded account.verdict) :=
    subscript_of_canonical_eq haccount rfl
  obtain ⟨verdict, hfound, hrest⟩ := bind_eq_ok_iff.mp hbuilt
  rw [hverdict] at hfound
  cases hfound
  obtain ⟨assurance, -, hrest⟩ := bind_eq_ok_iff.mp hrest
  cases hcase : account.verdict with
  | passed =>
    rw [hcase] at hrest
    cases (if_pos (rfl : worded Verdict.passed = .str "passed")).symm.trans hrest
    exact ⟨rfl, rfl⟩
  | failed =>
    rw [hcase] at hrest
    have hword : ¬ worded Verdict.failed = .str "passed" := by decide
    obtain ⟨cause, -, hrest⟩ := bind_eq_ok_iff.mp ((if_neg hword).symm.trans hrest)
    obtain ⟨reasons, -, hanswer⟩ := bind_eq_ok_iff.mp hrest
    cases hanswer
    exact ⟨rfl, rfl⟩

/-- A replay that succeeds read a record with its own hash as its key and the account of its own
items, and the event is the envelope of that record, with the name and the id of the derived
verdict. -/
theorem genuine_of_replay {event : Json}
    (hreplay : replay reader digest quotient policy storage key event = .ok (record, account)) :
    key = storageKey (contentHash digest record) ∧
      (∃ data, storage.get? key = some data ∧ fromCanonical reader data = .ok record) ∧
      derive quotient policy record = .ok account ∧
      record.derivationAccount.canonical = account.toJson.canonical ∧
      ∃ payload, buildVerdictEnvelope (contentHash digest record) record =
          .ok (verdictName account.verdict,
            contentHash digest record ++ verdictSuffix account.verdict, payload) ∧
        (Envelope.mk (verdictName account.verdict)
          (contentHash digest record ++ verdictSuffix account.verdict) record.artifactRef
          payload).toJson.pyEq event = true := by
  obtain ⟨data, envelope, hdata, hread, hkey, hderived, hsame,
    ⟨eventName, eventId, payload, hbuilt, henvelope⟩, hevent⟩ := replay_eq_ok_iff.mp hreplay
  obtain ⟨hversion, haccount, hrules⟩ := holdable_of_fromCanonical hread
  have hcanonical := (dumps_inj (holdable_account hderived hversion hrules) haccount).mp hsame
  obtain ⟨rfl, rfl⟩ := verdict_of_built hcanonical.symm hbuilt
  unfold buildEnvelope at henvelope
  split at henvelope
  · cases henvelope
    exact ⟨hkey.symm, ⟨data, hdata, hread⟩, hderived, hcanonical.symm, payload, hbuilt, hevent⟩
  · cases henvelope

/-- Assumes: the digest has no collisions. Every emitted result of a run replays after all later
sessions on its storage; and whatever is stored, a replay that succeeds proves that the event is the
envelope of a record that hashes to its key and bears the account of its own items. -/
theorem verdicts_replay (hdigest : Function.Injective digest) :
    (∀ (before : List Call) (artifactRef : String) (write : StorageAnswer) (answer : PublishAnswer)
        (result : EmissionResult) (next : Engine) (sessions : List Session),
      ((Engine.new storage).run registry digest quotient policy before).tryCloseAndEmit
        digest quotient
        policy artifactRef write answer = (.ok (some result), next) → result.outcome = .emitted →
      ∃ record account, replay reader digest quotient policy
        (storageAfter digest quotient next.storage sessions) result.storageKey
          result.event.toJson = .ok (record, account)) ∧
    ∀ (stored : OrderedDict String String) (key : String) (event : Json) (record : EvidenceRecord)
        (account : Account),
      replay reader digest quotient policy stored key event = .ok (record, account) →
      key = storageKey (contentHash digest record) ∧
        (∃ data, stored.get? key = some data ∧ fromCanonical reader data = .ok record) ∧
        derive quotient policy record = .ok account ∧
        record.derivationAccount.canonical = account.toJson.canonical ∧
        ∃ payload, buildVerdictEnvelope (contentHash digest record) record =
            .ok (verdictName account.verdict,
              contentHash digest record ++ verdictSuffix account.verdict, payload) ∧
          (Envelope.mk (verdictName account.verdict)
            (contentHash digest record ++ verdictSuffix account.verdict) record.artifactRef
            payload).toJson.pyEq event = true := by
  refine ⟨?_, fun stored key event record account hreplay ↦ genuine_of_replay hreplay⟩
  intro before artifactRef write answer result next sessions hemitted houtcome
  obtain ⟨judgment, record, hfound, hrecord, hverdict, hkey, hstored⟩ :=
    stored_of_emitted hemitted houtcome
  have hsound : ((Engine.new storage).run registry digest quotient policy before).Sound registry
    digest quotient policy storage before := sound_run before
  obtain ⟨demand, -, -, haccounted, -⟩ := hsound.opened artifactRef judgment hfound
  have hartifact : judgment.record.artifactRef = .str judgment.artifactRef := by
    rw [haccounted.recordArtifact, haccounted.artifactRef]
  rw [hkey] at hstored ⊢
  have hkept := @storage_kept_sessions digest quotient _ hdigest sessions _ hstored
  obtain ⟨account, hreplay⟩ := @replay_of_stored reader _ _ _ _ _ _ _ _ haccounted.plain hartifact
    hrecord hverdict hkept
  exact ⟨_, account, hreplay⟩

theorem exists_pair_of_fst {First Second : Type} {pair : First × Second} {first : First}
    (hfirst : pair.1 = first) : ∃ second, pair = (first, second) := ⟨pair.2, by rw [← hfirst]⟩

theorem verdicts_replay_partial : ∃ result next record account,
      ((Engine.new .empty).run builtInChecks id plainQuotient plainPolicy
        partialCalls).tryCloseAndEmit id plainQuotient plainPolicy "artifact:a1" .committed .taken =
          (.ok (some result), next) ∧ replay .integersOnly id plainQuotient plainPolicy
        (storageAfter id plainQuotient next.storage
          [⟨builtInChecks, plainPolicy, .new .empty, partialCalls ++ [plainEmission]⟩])
        result.storageKey result.event.toJson = .ok (record, account) := by
  obtain ⟨result, hresult, houtcome⟩ := exists_of_toOption_map (show
    ((((Engine.new .empty).run builtInChecks id plainQuotient plainPolicy
      partialCalls).tryCloseAndEmit id plainQuotient plainPolicy "artifact:a1" .committed
        .taken).1.toOption.map fun result ↦ result.map EmissionResult.outcome) =
          some (some .emitted) by decide +kernel)
  obtain ⟨emitted, rfl, hemitted⟩ := Option.map_eq_some_iff.mp houtcome
  obtain ⟨next, hcall⟩ := exists_pair_of_fst hresult
  obtain ⟨record, account, hreplay⟩ := (@verdicts_replay .integersOnly builtInChecks id
    plainQuotient
    plainPolicy .empty Function.injective_id).1 partialCalls "artifact:a1" .committed .taken emitted
    next [⟨builtInChecks, plainPolicy, .new .empty, partialCalls ++ [plainEmission]⟩] hcall hemitted
  exact ⟨emitted, next, record, account, hcall, hreplay⟩

end AbsoluteZero.Verification

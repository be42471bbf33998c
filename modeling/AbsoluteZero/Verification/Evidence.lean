import AbsoluteZero.Foundations.Checked
import AbsoluteZero.Foundations.JsonText
import AbsoluteZero.Foundations.PyDict

/-!
# Evidence records

The record of a judgment grows only by `appendItem`; its canonical text is what is stored, and the
hash of that text is its identity. `fromCanonical` checks no field, so the fields are values of any
type; it inverts `canonical` up to the order of the account's keys (`fromCanonical_canonical`).
-/

namespace AbsoluteZero.Verification

open Foundations

/-- The exceptions of the engine, each with its text. -/
inductive Refusal
  | unknownEvent (text : String)
  | malformedRules (text : String)
  | staleOrDuplicateVersion (text : String)
  | unknownVersion (text : String)
  | unknownArtifactType (text : String)
  | duplicateCheckName (text : String)
  | malformedDelegation (text : String)
  | reDispatchRefused (text : String)
  | illegalTransition (text : String)
  | unknownCheck (text : String)
  | unknownStaticCheck (text : String)
  | malformedCheckResult (text : String)
  | lateResultBeforeTerminal (text : String)
  | judgmentNotReady (text : String)
  | unknownContributionKind (text : String)
  | malformedEvidenceItem (text : String)
  | malformedEvidenceRecord (text : String)
  | accountRefused (text : String)
  | accountMalformed (text : String)
  | unknownVerificationLevel (text : String)
  | judgmentNotClosed (text : String)
  | alreadyEmitted (text : String)
  | emissionRefused (text : String)
  | terminalConflict (text : String)
  | noOpenJudgment (text : String)
  | replayMismatch (text : String)
  | unavailable (text : String)
  | missingKey (key : String)
  | raised (error : PyError)

/-- `value[key]`: a `KeyError` on a dict without the key, a `TypeError` on any other value. -/
def subscript (value : Json) (key : String) : Except Refusal Json :=
  match value.fields? with
  | some fields => (OrderedDict.find key fields).elim (.error (.missingKey key)) .ok
  | none => .error (.raised .typeError)

theorem subscript_obj (fields : List (String × Json)) (key : String) : subscript (.obj fields) key =
      (OrderedDict.find key fields).elim (.error (.missingKey key)) .ok := rfl

theorem subscript_eq_ok_iff {value found : Json} {key : String} :
    subscript value key = .ok found ↔ value.get? key = some found := by
  cases value with
  | obj fields =>
    rw [subscript_obj]
    change _ ↔ OrderedDict.find key fields = some found
    cases OrderedDict.find key fields with
    | none | some other => simp
  | _ => simp [subscript, Json.fields?, Json.get?]

def contributionKinds : List Json :=
  [.str "independent", .str "corroborating", .str "redundant", .str "conflicting", .str "missing"]

/-- One recorded observation: the rule it addresses, the artifact it bears on, where it comes from,
what was seen, how it contributes and at which verification level. -/
structure EvidenceItem where
  rule : Json
  artifactRef : Json
  source : Json
  result : Json
  contributionKind : Json
  level : Json

/-- `build_evidence_item`. An item that reports an absence names no source, every other item
does. -/
def buildEvidenceItem (rule artifactRef source result contributionKind level : Json) :
    Except Refusal EvidenceItem :=
  if contributionKind ∉ contributionKinds then
    .error (.unknownContributionKind
      ("evidence.unknown_contribution_kind:" ++ contributionKind.repr))
  else
    match [("rule", rule), ("artifact_ref", artifactRef), ("result", result),
      ("level", level)].find? fun field ↦ !field.2.nonemptyStr with
    | some (label, value) =>
      .error (.malformedEvidenceItem ("evidence.bad_" ++ label ++ ":" ++ value.repr))
    | none =>
      if contributionKind = .str "missing" then
        if source ≠ .null then
          .error (.malformedEvidenceItem
            ("evidence.missing_item_must_have_no_source:" ++ source.repr))
        else .ok ⟨rule, artifactRef, source, result, contributionKind, level⟩
      else if source.nonemptyStr then
        .ok ⟨rule, artifactRef, source, result, contributionKind, level⟩
      else .error (.malformedEvidenceItem ("evidence.bad_source:" ++ source.repr))

/-- What the items of a judgment are: every field a text, no absence. -/
theorem buildEvidenceItem_eq_ok_iff {rule artifactRef source result kind level : String}
    {item : EvidenceItem} (hkind : .str kind ∈ contributionKinds) (hmissing : kind ≠ "missing") :
    buildEvidenceItem (.str rule) (.str artifactRef) (.str source) (.str result) (.str kind)
        (.str level) = .ok item ↔
      (rule ≠ "" ∧ artifactRef ≠ "" ∧ result ≠ "" ∧ level ≠ "" ∧ source ≠ "") ∧
        item = ⟨.str rule, .str artifactRef, .str source, .str result, .str kind, .str level⟩ := by
  unfold buildEvidenceItem
  rw [if_neg (not_not_intro hkind)]
  by_cases hrule : rule = ""
  · simp [hrule, Json.nonemptyStr]
  by_cases hartifact : artifactRef = ""
  · simp [hrule, hartifact, Json.nonemptyStr]
  by_cases hresult : result = ""
  · simp [hrule, hartifact, hresult, Json.nonemptyStr]
  by_cases hlevel : level = ""
  · simp [hrule, hartifact, hresult, hlevel, Json.nonemptyStr]
  by_cases hsource : source = ""
  · simp [hrule, hartifact, hresult, hlevel, hsource, hmissing, Json.nonemptyStr]
  · simp [hrule, hartifact, hresult, hlevel, hsource, hmissing, Json.nonemptyStr, eq_comm]

/-- `EvidenceRecord`. The account is `None` until the record is derived. -/
structure EvidenceRecord where
  artifactRef : Json
  rulesVersion : Json
  items : List EvidenceItem
  derivationAccount : Json

/-- `build_evidence_record` with no items yet and no account, as a judgment opens one. -/
def buildEvidenceRecord (artifactRef rulesVersion : Json) : Except Refusal EvidenceRecord :=
  if artifactRef.nonemptyStr then
    match rulesVersion with
    | .int version =>
      if version < 1 then
        .error (.malformedEvidenceRecord ("evidence.bad_rules_version:" ++ rulesVersion.repr))
      else .ok ⟨artifactRef, rulesVersion, [], .null⟩
    | _ => .error (.malformedEvidenceRecord ("evidence.bad_rules_version:" ++ rulesVersion.repr))
  else .error (.malformedEvidenceRecord ("evidence.bad_artifact_ref:" ++ artifactRef.repr))

theorem buildEvidenceRecord_eq_ok_iff {artifactRef : String} {version : Int}
    {record : EvidenceRecord} : buildEvidenceRecord (.str artifactRef) (.int version) = .ok record ↔
      (artifactRef ≠ "" ∧ 1 ≤ version) ∧ record = ⟨.str artifactRef, .int version, [], .null⟩ := by
  unfold buildEvidenceRecord
  by_cases hartifact : artifactRef = ""
  · simp [hartifact, Json.nonemptyStr]
  by_cases hversion : version < 1
  · simp [hartifact, hversion, Json.nonemptyStr]
  · simp [hartifact, hversion, Json.nonemptyStr, Int.not_lt.mp hversion, eq_comm]

variable (record : EvidenceRecord)

/-- `append_item`: the only way in which a record grows. -/
def appendItem (item : EvidenceItem) : EvidenceRecord :=
  { record with items := record.items ++ [item], derivationAccount := .null }

/-- `with_derivation_account`: the account is filled once, by a mapping. -/
def withDerivationAccount (account : Json) :
    Except Refusal EvidenceRecord :=
  if record.derivationAccount ≠ .null then
    .error (.accountRefused ("evidence.derivation_account_already_set:" ++
      record.artifactRef.pyStr))
  else if account.fields?.isSome then .ok { record with derivationAccount := account }
  else .error (.accountMalformed ("evidence.derivation_account_not_a_mapping:" ++ account.repr))

/-! ### Text -/

def itemToDict (item : EvidenceItem) : Json :=
  .obj [("rule", item.rule), ("artifact_ref", item.artifactRef), ("source", item.source),
    ("result", item.result), ("contribution_kind", item.contributionKind), ("level", item.level)]

/-- `to_dict`. The items keep the order in which they were appended. -/
def toDict : Json :=
  .obj [("artifact_ref", record.artifactRef), ("rules_version", record.rulesVersion),
    ("items", .arr (record.items.map itemToDict)), ("derivation_account", record.derivationAccount)]

def canonical : String := JsonText.dumps (toDict record)

/-- `content_hash`, where the digest of a text is given. -/
def contentHash (digest : String → String) (record : EvidenceRecord) : String :=
  digest (canonical record)

/-- One item as `from_canonical` rebuilds it. -/
def itemFromDict (value : Json) : Except Refusal EvidenceItem := do
  let rule ← subscript value "rule"
  let artifactRef ← subscript value "artifact_ref"
  let source ← subscript value "source"
  let result ← subscript value "result"
  let contributionKind ← subscript value "contribution_kind"
  let level ← subscript value "level"
  return ⟨rule, artifactRef, source, result, contributionKind, level⟩

def iterated (value : Json) : Except Refusal (List Json) :=
  match value.iterate with
  | .ok values => .ok values
  | .error error => .error (.raised error)

def fromDict (value : Json) : Except Refusal EvidenceRecord := do
  let stored ← subscript value "items"
  let entries ← iterated stored
  let items ← entries.mapM itemFromDict
  let artifactRef ← subscript value "artifact_ref"
  let rulesVersion ← subscript value "rules_version"
  let account ← subscript value "derivation_account"
  return ⟨artifactRef, rulesVersion, items, account⟩

/-- `from_canonical`. A text that `json.loads` refuses raises a `ValueError`. -/
def fromCanonical (reader : JsonText.FloatReader) (data : String) : Except Refusal EvidenceRecord :=
  match JsonText.loads reader data with
  | some value => fromDict value
  | none => .error (.raised .valueError)

end AbsoluteZero.Verification

import AbsoluteZero.Foundations.ClosedVocabulary
import AbsoluteZero.Verification.Rules

/-!
# Judgments

A delegated check goes from required over dispatched to resulted or expired; a static check is run
once. A judgment is complete when every check is terminal. Every operation that ends well leaves a
judgment as it is or makes a `Judgment.Step`; a late result only adds evidence (`heard_of_late`).
-/

namespace AbsoluteZero.Verification

open Foundations Checked

/-! ### Delegations -/

/-- `STATES`. -/
inductive DelegationState
  | required
  | dispatched
  | resulted
  | expired
  deriving DecidableEq

instance : ClosedVocabulary DelegationState where
  all := [.required, .dispatched, .resulted, .expired]
  text
    | .required => "required"
    | .dispatched => "dispatched"
    | .resulted => "resulted"
    | .expired => "expired"

/-- `TERMINAL_STATES`. -/
def DelegationState.terminal : DelegationState → Bool
  | .resulted | .expired => true
  | .required | .dispatched => false

/-- `Delegation`. Of the result only the outcome is kept. -/
structure Delegation where
  key : String
  check : String
  artifactRef : String
  deadline : Rat
  state : DelegationState
  result : Option String

def buildDelegation (key check artifactRef : String) (deadline : Rat) : Except Refusal Delegation :=
  if key = "" then .error (.malformedDelegation "delegation.bad_key:''")
  else if check = "" then .error (.malformedDelegation "delegation.bad_check:''")
  else if artifactRef = "" then .error (.malformedDelegation "delegation.bad_artifact_ref:''")
  else .ok ⟨key, check, artifactRef, deadline, .required, none⟩

variable {delegation : Delegation}

theorem buildDelegation_eq_ok_iff {key check artifactRef : String} {deadline : Rat} :
    buildDelegation key check artifactRef deadline = .ok delegation ↔
      (key ≠ "" ∧ check ≠ "" ∧ artifactRef ≠ "") ∧
        delegation = ⟨key, check, artifactRef, deadline, .required, none⟩ := by
  unfold buildDelegation
  by_cases hkey : key = ""
  · simp [hkey]
  by_cases hcheck : check = ""
  · simp [hkey, hcheck]
  by_cases hartifact : artifactRef = ""
  · simp [hkey, hcheck, hartifact]
  · simp [hkey, hcheck, hartifact, eq_comm]

namespace Delegation

variable (delegation : Delegation)

/-- `dispatch`, where the execution boundary acknowledges the request or not. -/
def dispatch (acknowledged : Bool) : Except Refusal Delegation :=
  if delegation.state ≠ .required then
    .error (.reDispatchRefused ("delegation.redispatch_refused:key=" ++ delegation.key ++ ":state="
      ++ ClosedVocabulary.text delegation.state))
  else if acknowledged then .ok { delegation with state := .dispatched }
  else .ok delegation

/-- `resolve`, where the poll of the execution boundary at this time answers an outcome or not. -/
def resolve (polled : Option String) (now : Rat) : Except Refusal Delegation :=
  if delegation.state = .required then
    .error (.illegalTransition ("delegation.resolve_before_dispatch:key=" ++ delegation.key))
  else if delegation.state.terminal then .ok delegation
  else
    match polled with
    | some outcome => .ok { delegation with state := .resulted, result := some outcome }
    | none =>
      if delegation.deadline ≤ now then .ok { delegation with state := .expired, result := none }
      else .ok delegation

end Delegation

/-- A registry of static checks: each answers for an artifact reference and metadata, or raises. -/
abbrev StaticRegistry := String → Option (String → Json → Except Refusal Json)

/-- `_reference_wellformed`: a namespace and an identifier, both non-empty, around the first
colon. -/
def referenceWellformed (artifactRef : String) (_ : Json) : Except Refusal Json :=
  let ahead := artifactRef.toList.takeWhile fun char ↦ char ≠ ':'
  let behind := (artifactRef.toList.dropWhile fun char ↦ char ≠ ':').drop 1
  let outcome := if ahead ≠ [] ∧ behind ≠ [] then "pass" else "fail"
  .ok (.obj [("outcome", .str outcome), ("detail", .obj [("artifact_ref", .str artifactRef)])])

/-- `StaticCheckRegistry()`: the registry with its one built-in check. -/
def builtInChecks : StaticRegistry := fun name ↦
  if name = "reference_wellformed" then some referenceWellformed else none

/-- `StaticCheckRegistry.run`, down to the outcome of the result. -/
def runRegistered (registry : StaticRegistry) (name artifactRef : String) (metadata : Json) :
    Except Refusal String :=
  match registry name with
  | none => .error (.unknownStaticCheck ("static_checks.unknown_check:" ++ name))
  | some check =>
    match check artifactRef metadata with
    | .error refusal => .error refusal
    | .ok result =>
      if result.get? "outcome" = some (.str "pass") then .ok "pass"
      else if result.get? "outcome" = some (.str "fail") then .ok "fail"
      else .error (.malformedCheckResult ("static_checks.malformed_result:" ++ result.repr))

theorem runRegistered_eq_ok {registry : StaticRegistry} {name artifactRef : String}
    {metadata : Json}
    {outcome : String} (hrun : runRegistered registry name artifactRef metadata = .ok outcome) :
    outcome = "pass" ∨ outcome = "fail" := by
  unfold runRegistered at hrun
  split at hrun
  · cases hrun
  split at hrun
  · cases hrun
  split at hrun
  · cases hrun
    exact Or.inl rfl
  split at hrun
  · cases hrun
    exact Or.inr rfl
  · cases hrun

/-! ### Judgments -/

structure Judgment where
  judgmentId : String
  artifactRef : String
  rulesVersion : Int
  record : EvidenceRecord
  delegations : OrderedDict String Delegation
  staticPending : List String
  levels : OrderedDict String String
  closed : Bool

structure DelegatedSpec where
  deadline : Rat
  level : String

def checkLevels (delegatedChecks : OrderedDict String DelegatedSpec)
    (staticChecks : OrderedDict String String) : OrderedDict String String :=
  staticChecks.items.foldl (fun levels entry ↦ levels.insert entry.1 entry.2)
    (delegatedChecks.mapValues DelegatedSpec.level)

def declaredTwice (delegatedChecks : OrderedDict String DelegatedSpec)
    (staticChecks : OrderedDict String String) : List String :=
  delegatedChecks.keys.filter fun check ↦ check ∈ staticChecks.keys

def openJudgment (judgmentId artifactRef : String) (rulesVersion : Int)
    (delegatedChecks : OrderedDict String DelegatedSpec)
    (staticChecks : OrderedDict String String) :
    Except Refusal Judgment :=
  if declaredTwice delegatedChecks staticChecks ≠ [] then
    .error (.duplicateCheckName ("judgment.check_declared_both_delegated_and_static:" ++
      reprSorted (declaredTwice delegatedChecks staticChecks)))
  else do
    let delegations ← delegatedChecks.comprehend fun check spec ↦
      buildDelegation (judgmentId ++ ":" ++ check) check artifactRef spec.deadline
    let record ← buildEvidenceRecord (.str artifactRef) (.int rulesVersion)
    return {
      judgmentId := judgmentId
      artifactRef := artifactRef
      rulesVersion := rulesVersion
      record := record
      delegations := delegations
      staticPending := staticChecks.keys
      levels := checkLevels delegatedChecks staticChecks
      closed := false }

theorem openJudgment_eq_ok_iff {judgmentId artifactRef : String} {rulesVersion : Int}
    {delegatedChecks : OrderedDict String DelegatedSpec} {staticChecks : OrderedDict String String}
    {judgment : Judgment} :
    openJudgment judgmentId artifactRef rulesVersion delegatedChecks staticChecks = .ok judgment ↔
      declaredTwice delegatedChecks staticChecks = [] ∧ ∃ delegations record,
        delegatedChecks.comprehend (fun check spec ↦
          buildDelegation (judgmentId ++ ":" ++ check) check artifactRef spec.deadline) =
            .ok delegations ∧
        buildEvidenceRecord (.str artifactRef) (.int rulesVersion) = .ok record ∧
        judgment = ⟨judgmentId, artifactRef, rulesVersion, record, delegations, staticChecks.keys,
          checkLevels delegatedChecks staticChecks, false⟩ := by
  unfold openJudgment
  by_cases htwice : declaredTwice delegatedChecks staticChecks = []
  · rw [if_neg (not_not_intro htwice)]
    simp only [htwice, true_and, bind_eq_ok_iff]
    constructor
    · rintro ⟨delegations, hdelegations, record, hrecord, hjudgment⟩
      exact ⟨delegations, record, hdelegations, hrecord, (Except.ok.inj hjudgment).symm⟩
    · rintro ⟨delegations, record, hdelegations, hrecord, rfl⟩
      exact ⟨delegations, hdelegations, record, hrecord, rfl⟩
  · simp [htwice]

namespace Judgment

variable (judgment : Judgment)

variable (check : String)

def requireDelegation : Except Refusal Delegation :=
  (judgment.delegations.get? check).elim
    (.error (.unknownCheck ("judgment.unknown_delegated_check:" ++ check))) .ok

def withDelegation (delegation : Delegation) : Judgment :=
  { judgment with delegations := judgment.delegations.insert check delegation }

def observation (check source result kind level : String) : EvidenceItem :=
  ⟨.str ("rule." ++ check), .str judgment.artifactRef, .str source, .str result, .str
    kind, .str level⟩

def observe (check source result kind : String) : Except Refusal Judgment :=
  match judgment.levels.get? check with
  | none => .error (.missingKey check)
  | some level =>
    (buildEvidenceItem (.str ("rule." ++ check)) (.str judgment.artifactRef) (.str source)
      (.str result) (.str kind) (.str level)).map fun item ↦
        { judgment with record := appendItem judgment.record item }

def dispatchDelegation (acknowledged : Bool) : Except Refusal Judgment := do
  let delegation ← judgment.requireDelegation check
  let dispatched ← delegation.dispatch acknowledged
  return judgment.withDelegation check dispatched

/-- The evidence that the change of a delegation leaves: a result or an expiry, once. -/
def recordChange (before after : Delegation) : Except Refusal Judgment :=
  if after.state = before.state then .ok judgment
  else
    match after.state with
    | .resulted =>
      judgment.observe check ("execution:" ++ after.key) (after.result.getD "") "independent"
    | .expired => judgment.observe check ("execution:" ++ after.key) "execution_failure"
      "independent"
    | _ => .ok judgment

def resolveDelegation (polled : Option String) (now : Rat) :
    Except Refusal Judgment := do
  let delegation ← judgment.requireDelegation check
  let resolved ← delegation.resolve polled now
  (judgment.withDelegation check resolved).recordChange check delegation resolved

def recordLateResult (polled : Option String) : Except Refusal Judgment := do
  let delegation ← judgment.requireDelegation check
  if delegation.state.terminal then
    match polled with
    | none => .ok judgment
    | some outcome => judgment.observe check ("execution:" ++ delegation.key) outcome "redundant"
  else
    .error (.lateResultBeforeTerminal ("judgment.late_result_before_terminal:check=" ++ check ++
      ":state=" ++ ClosedVocabulary.text delegation.state))

def runStaticCheck (registry : StaticRegistry) (check : String) (metadata : Json) :
    Except Refusal Judgment :=
  if check ∉ judgment.staticPending then
    .error (.unknownCheck ("judgment.unknown_or_already_run_static_check:" ++ check))
  else do
    let outcome ← runRegistered registry check judgment.artifactRef metadata
    let observed ← judgment.observe check ("static:" ++ check) outcome "independent"
    return { observed with staticPending := judgment.staticPending.filter fun name ↦ name ≠ check }

/-- `is_closed`: every delegation is terminal and every static check was run. -/
def Complete : Prop :=
  judgment.staticPending = [] ∧
    ∀ delegation ∈ judgment.delegations.values, delegation.state.terminal = true

instance : Decidable judgment.Complete := inferInstanceAs (Decidable (_ ∧ _))

def close : Except Refusal Judgment :=
  if judgment.closed then .ok judgment
  else if judgment.Complete then .ok { judgment with closed := true }
  else .error (.judgmentNotReady ("judgment.not_ready:" ++ judgment.judgmentId))

/-! ### What an operation does -/

variable {judgment} {next : Judgment} {check : String}

def withItem (judgment : Judgment) (item : EvidenceItem) : Judgment :=
  { judgment with record := appendItem judgment.record item }

/-- What an operation can do to an incomplete judgment: a delegation is acknowledged, or settles
with a result or by its deadline; a static check is run. -/
inductive Step (judgment : Judgment) : Judgment → Prop
  | acknowledge (check : String) (delegation : Delegation)
      (hfound : judgment.delegations.get? check = some delegation)
      (hstate : delegation.state = .required) :
      Step judgment (judgment.withDelegation check { delegation with state := .dispatched })
  | settle (check : String) (delegation after : Delegation) (outcome level : String)
      (hfound : judgment.delegations.get? check = some delegation)
      (hstate : delegation.state = .dispatched) (hterminal : after.state.terminal = true)
      (hlevel : judgment.levels.get? check = some level) :
      Step judgment ((judgment.withDelegation check after).withItem
        (judgment.observation check ("execution:" ++ after.key) outcome "independent" level))
  | static (check outcome level : String) (hpending : check ∈ judgment.staticPending)
      (hlevel : judgment.levels.get? check = some level) :
      Step judgment { judgment.withItem
        (judgment.observation check ("static:" ++ check) outcome "independent" level) with
          staticPending := judgment.staticPending.filter fun name ↦ name ≠ check }

inductive Heard (judgment : Judgment) : Judgment → Prop
  | late (check : String) (delegation : Delegation) (outcome level : String)
      (hfound : judgment.delegations.get? check = some delegation)
      (hterminal : delegation.state.terminal = true)
      (hlevel : judgment.levels.get? check = some level) :
      Heard judgment (judgment.withItem
        (judgment.observation check ("execution:" ++ delegation.key) outcome "redundant" level))

theorem requireDelegation_eq_ok (hfound : judgment.requireDelegation check = .ok delegation) :
    judgment.delegations.get? check = some delegation := by
  unfold requireDelegation at hfound
  cases hget : judgment.delegations.get? check with
  | none =>
    rw [hget] at hfound
    cases hfound
  | some other =>
    rw [hget] at hfound
    cases hfound
    rfl

/-- Assumes: the kind is one of those a judgment assigns. An observation that is recorded appends
its item. -/
theorem observe_eq_ok {source result kind : String} (hkind : .str kind ∈ contributionKinds)
    (hmissing : kind ≠ "missing") (hnext : judgment.observe check source result kind = .ok next) :
    ∃ level, judgment.levels.get? check = some level ∧
      next = judgment.withItem (judgment.observation check source result kind level) := by
  unfold observe at hnext
  split at hnext
  · cases hnext
  next level hlevel =>
  obtain ⟨item, hitem, rfl⟩ := map_eq_ok_iff.mp hnext
  obtain ⟨-, rfl⟩ := (buildEvidenceItem_eq_ok_iff hkind hmissing).mp hitem
  exact ⟨level, hlevel, rfl⟩

theorem withDelegation_self (hfound : judgment.delegations.get? check = some delegation) :
    judgment.withDelegation check delegation = judgment := by
  unfold withDelegation
  rw [OrderedDict.insert_of_get? _ hfound]

theorem step_of_dispatch {acknowledged : Bool}
    (hnext : judgment.dispatchDelegation check acknowledged = .ok next) :
    next = judgment ∨ judgment.Step next := by
  obtain ⟨delegation, hfound, hrest⟩ := bind_eq_ok_iff.mp hnext
  obtain ⟨dispatched, hdispatched, hnext⟩ := bind_eq_ok_iff.mp hrest
  cases hnext
  have hfound := requireDelegation_eq_ok hfound
  unfold Delegation.dispatch at hdispatched
  split at hdispatched
  · cases hdispatched
  next hstate =>
  split at hdispatched
  · cases hdispatched
    exact Or.inr (Step.acknowledge check delegation hfound (not_not.mp hstate))
  · cases hdispatched
    exact Or.inl (withDelegation_self hfound)

variable {polled : Option String}

theorem resolve_eq_ok {delegation after : Delegation} {now : Rat}
    (hafter : delegation.resolve polled now = .ok after) :
    after = delegation ∨ delegation.state = .dispatched ∧ ((∃ outcome, polled = some outcome ∧
          after = { delegation with state := .resulted, result := some outcome }) ∨
        polled = none ∧ delegation.deadline ≤ now ∧
          after = { delegation with state := .expired, result := none }) := by
  unfold Delegation.resolve at hafter
  split at hafter
  · cases hafter
  next hrequired =>
  split at hafter
  · cases hafter
    exact Or.inl rfl
  next hterminal =>
  have hstate : delegation.state = .dispatched := by
    cases hcase : delegation.state with
    | required => exact absurd hcase hrequired
    | dispatched => rfl
    | resulted | expired => exact absurd (hcase ▸ rfl) hterminal
  split at hafter
  · next outcome =>
    cases hafter
    exact Or.inr ⟨hstate, Or.inl ⟨outcome, rfl, rfl⟩⟩
  split at hafter
  · next hdeadline =>
    cases hafter
    exact Or.inr ⟨hstate, Or.inr ⟨rfl, hdeadline, rfl⟩⟩
  · cases hafter
    exact Or.inl rfl

theorem step_of_resolve {now : Rat}
    (hnext : judgment.resolveDelegation check polled now = .ok next) :
    next = judgment ∨ judgment.Step next := by
  obtain ⟨delegation, hfound, hrest⟩ := bind_eq_ok_iff.mp hnext
  obtain ⟨after, hafter, hrecorded⟩ := bind_eq_ok_iff.mp hrest
  have hfound := requireDelegation_eq_ok hfound
  unfold recordChange at hrecorded
  rcases resolve_eq_ok hafter with rfl | ⟨hstate, ⟨outcome, -, rfl⟩ | ⟨-, -, rfl⟩⟩
  · rw [if_pos rfl, withDelegation_self hfound] at hrecorded
    exact Or.inl (Except.ok.inj hrecorded).symm
  · rw [if_neg (by rw [hstate]; simp)] at hrecorded
    obtain ⟨level, hlevel, rfl⟩ := observe_eq_ok (by decide) (by decide) hrecorded
    exact Or.inr (Step.settle check delegation _ outcome level hfound hstate rfl hlevel)
  · rw [if_neg (by rw [hstate]; simp)] at hrecorded
    obtain ⟨level, hlevel, rfl⟩ := observe_eq_ok (by decide) (by decide) hrecorded
    exact Or.inr (Step.settle check delegation _ "execution_failure" level hfound hstate rfl hlevel)

theorem heard_of_late (hnext : judgment.recordLateResult check polled = .ok next) :
    next = judgment ∨ judgment.Heard next := by
  obtain ⟨delegation, hfound, hrest⟩ := bind_eq_ok_iff.mp hnext
  have hfound := requireDelegation_eq_ok hfound
  split at hrest
  · next hterminal =>
    split at hrest
    · cases hrest
      exact Or.inl rfl
    · next outcome =>
      obtain ⟨level, hlevel, rfl⟩ := observe_eq_ok (by decide) (by decide) hrest
      exact Or.inr (Heard.late check delegation outcome level hfound hterminal hlevel)
  · cases hrest

theorem step_of_static {registry : StaticRegistry} {metadata : Json}
    (hnext : judgment.runStaticCheck registry check metadata = .ok next) : judgment.Step next := by
  unfold runStaticCheck at hnext
  split at hnext
  · cases hnext
  next hpending =>
  obtain ⟨outcome, -, hrest⟩ := bind_eq_ok_iff.mp hnext
  obtain ⟨observed, hobserved, hnext⟩ := bind_eq_ok_iff.mp hrest
  obtain ⟨level, hlevel, rfl⟩ := observe_eq_ok (by decide) (by decide) hobserved
  cases hnext
  exact Step.static check outcome level (not_not.mp hpending) hlevel

end Judgment

end AbsoluteZero.Verification

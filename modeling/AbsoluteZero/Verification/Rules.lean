import AbsoluteZero.Verification.Evidence

/-!
# Verification rules

Rules are data: for every artifact type the checks it requires and a deadline for each of them. A
`RulesStore` takes rules versions in strictly increasing order and answers every version it ever
took, for good (`RulesStore.lookup_ingest`).
-/

namespace AbsoluteZero.Verification

open Foundations OrderedDict

/-- `repr` of a tuple of names. -/
def reprTuple (names : List String) : String :=
  "(" ++ ", ".intercalate (names.map Json.quoted) ++ (if names.length = 1 then ",)" else ")")

/-- `repr(sorted(names))`. -/
def reprSorted (names : List String) : String :=
  (Json.arr ((names.mergeSort fun first second ↦ first ≤ second).map .str)).repr

/-- `ArtifactRules`, with what `build_artifact_rules` checks of it: the deadlines cover exactly the
required checks, and each is positive. -/
structure ArtifactRules where
  requiredChecks : List String
  depth : String
  deadlines : OrderedDict String Rat
  nonempty : requiredChecks ≠ []
  named : ∀ check ∈ requiredChecks, check ≠ ""
  nodup : requiredChecks.Nodup
  covered : ∀ check, check ∈ deadlines.keys ↔ check ∈ requiredChecks
  positive : ∀ deadline ∈ deadlines.values, 0 < deadline

def buildArtifactRules (requiredChecks : List String) (depth : String)
    (deadlines : OrderedDict String Rat) : Except Refusal ArtifactRules :=
  if hnonempty : requiredChecks = [] then
    .error (.malformedRules ("rules.empty_or_bad_required_checks:" ++ reprTuple requiredChecks))
  else if hnamed : ∃ check ∈ requiredChecks, check = "" then
    .error (.malformedRules "rules.bad_check_name:''")
  else if hnodup : ¬ requiredChecks.Nodup then
    .error (.malformedRules ("rules.duplicate_check_name:" ++ reprTuple requiredChecks))
  else if depth = "" then .error (.malformedRules "rules.bad_depth:''")
  else if hcovered : ¬ ((∀ check ∈ deadlines.keys, check ∈ requiredChecks) ∧
      ∀ check ∈ requiredChecks, check ∈ deadlines.keys) then
    .error (.malformedRules ("rules.deadlines_must_cover_exactly_required_checks:" ++
      reprSorted deadlines.keys ++ "!=" ++ reprSorted requiredChecks))
  else if hpositive : ∃ deadline ∈ deadlines.values, deadline ≤ 0 then
    .error (.malformedRules ("rules.bad_deadline:" ++
      ((deadlines.items.find? fun entry ↦ entry.2 ≤ 0).map Prod.fst).getD ""))
  else
    .ok {
      requiredChecks := requiredChecks
      depth := depth
      deadlines := deadlines
      nonempty := hnonempty
      named := fun check hcheck hempty ↦ hnamed ⟨check, hcheck, hempty⟩
      nodup := not_not.mp hnodup
      covered := fun check ↦ ⟨(not_not.mp hcovered).1 check, (not_not.mp hcovered).2 check⟩
      positive := fun deadline hdeadline ↦
        not_le.mp fun hle ↦ hpositive ⟨deadline, hdeadline, hle⟩ }

namespace ArtifactRules

variable (rules : ArtifactRules)

/-- `artifact_rules.deadlines[check]`. -/
def deadline (check : String) : Except Refusal Rat :=
  (rules.deadlines.get? check).elim (.error (.missingKey check)) .ok

theorem exists_deadline_iff {check : String} :
    (∃ deadline, rules.deadline check = .ok deadline) ↔ check ∈ rules.requiredChecks := by
  rw [← rules.covered check, ← exists_get?_iff]
  unfold deadline
  cases rules.deadlines.get? check with
  | none | some value => simp

end ArtifactRules

/-- A payload of `ingest`: the rules of each artifact type, not yet checked. -/
structure RulesSpec where
  requiredChecks : List String
  depth : String
  deadlines : OrderedDict String Rat

def buildRulesVersion (version : Int) (specs : OrderedDict String RulesSpec) :
    Except Refusal (OrderedDict String ArtifactRules) :=
  if version < 1 then .error (.malformedRules ("rules.bad_version:" ++ toString version))
  else if specs.items = [] then
    .error (.malformedRules "rules.empty_or_bad_artifact_rules:\x7b\x7d")
  else
    specs.items.foldlM (fun built entry ↦
      if entry.1 = "" then .error (.malformedRules "rules.bad_artifact_type:''")
      else (buildArtifactRules entry.2.requiredChecks entry.2.depth entry.2.deadlines).map
        fun rules ↦ built.insert entry.1 rules) .empty

structure RulesStore where
  history : OrderedDict Int (OrderedDict String ArtifactRules)
  currentVersion : Int

namespace RulesStore

/-- A store that has taken no version. -/
def new : RulesStore := ⟨.empty, 0⟩

variable (store : RulesStore)

def ingest (version : Int) (specs : OrderedDict String RulesSpec) : Except Refusal RulesStore :=
  match buildRulesVersion version specs with
  | .error refusal => .error refusal
  | .ok built =>
    if version ≤ store.currentVersion then
      .error (.staleOrDuplicateVersion ("rules.stale_or_duplicate_version:got=" ++
        toString version ++ ":current=" ++ toString store.currentVersion))
    else .ok ⟨store.history.insert version built, version⟩

def lookup (artifactType : String) (version : Int) : Except Refusal ArtifactRules :=
  match store.history.get? version with
  | none => .error (.unknownVersion ("rules.unknown_version:" ++ toString version))
  | some artifactRules =>
    (artifactRules.get? artifactType).elim
      (.error (.unknownArtifactType ("rules.unknown_artifact_type:" ++ artifactType ++ ":version="
        ++ toString version))) .ok

/-- Every version in the history is positive and at most the current one. -/
def Monotonic : Prop := ∀ version ∈ store.history.keys, 1 ≤ version ∧ version ≤ store.currentVersion

theorem monotonic_new : new.Monotonic := by
  intro version hversion
  cases hversion

variable {store}

variable {specs : OrderedDict String RulesSpec} {version : Int} {next : RulesStore}

/-- A payload that is taken is of a new version, above every one before it. -/
theorem ingest_eq_ok (hnext : store.ingest version specs = .ok next) :
    1 ≤ version ∧ store.currentVersion < version ∧
      ∃ built, next = ⟨store.history.insert version built, version⟩ := by
  unfold ingest at hnext
  split at hnext
  · cases hnext
  next built hbuilt =>
  split at hnext
  · cases hnext
  next hversion =>
  cases hnext
  refine ⟨?_, Int.not_le.mp hversion, built, rfl⟩
  unfold buildRulesVersion at hbuilt
  split at hbuilt
  · cases hbuilt
  next hpos => exact Int.not_lt.mp hpos

theorem Monotonic.ingest (hstore : store.Monotonic)
    (hnext : store.ingest version specs = .ok next) : next.Monotonic := by
  obtain ⟨hpos, hnew, built, rfl⟩ := ingest_eq_ok hnext
  intro other hother
  rcases (mem_keys_insert _).mp hother with rfl | hother
  · exact ⟨hpos, Int.le_refl _⟩
  · have hle := (hstore other hother).2
    exact ⟨(hstore other hother).1, hle.trans hnew.le⟩

/-- A version that was taken is answered the same ever after. -/
theorem lookup_ingest (hstore : store.Monotonic)
    (hnext : store.ingest version specs = .ok next) {artifactType : String} {pinned : Int}
    {rules : ArtifactRules} (hrules : store.lookup artifactType pinned = .ok rules) :
    next.lookup artifactType pinned = .ok rules := by
  obtain ⟨-, hnew, built, rfl⟩ := ingest_eq_ok hnext
  have hne : version ≠ pinned := by
    rintro rfl
    have hmem : version ∈ store.history.keys := by
      unfold lookup at hrules
      by_contra hmem
      rw [(get?_eq_none_iff _).mpr hmem] at hrules
      cases hrules
    exact absurd (hstore version hmem).2 (Int.not_le.mpr hnew)
  unfold lookup at hrules ⊢
  rw [get?_insert, if_neg hne]
  exact hrules

/-- A version that is answered is positive. -/
theorem Monotonic.pos_of_lookup (hstore : store.Monotonic) {artifactType : String}
    {rules : ArtifactRules} (hrules : store.lookup artifactType version = .ok rules) :
    1 ≤ version := by
  unfold lookup at hrules
  by_cases hmem : version ∈ store.history.keys
  · exact (hstore version hmem).1
  · rw [(get?_eq_none_iff _).mpr hmem] at hrules
    cases hrules

end RulesStore

end AbsoluteZero.Verification

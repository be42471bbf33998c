import AbsoluteZero.Verification.Findings
import AbsoluteZero.Verification.Pending

/-!
# Courses of a judgment

A judgment is dispatched, polled and checked at times of the caller's choice, and a crash throws it
back to what the demand events reopen. A late result is evidence for a caller who polls after its
arrival only, so the evidence is the same for all courses as long as no result is late
(`unaffected_iff`).
-/

namespace AbsoluteZero.Verification

open Foundations OrderedDict Checked List

/-- `RESULT_OUTCOMES`. -/
inductive RunOutcome
  | success
  | failure
  | timeout
  | crash
  deriving DecidableEq

instance : ClosedVocabulary RunOutcome where
  all := [.success, .failure, .timeout, .crash]
  text
    | .success => "success"
    | .failure => "failure"
    | .timeout => "timeout"
    | .crash => "crash"

/-- The results of the execution boundary: for the key of a delegation, when its result arrives and
what it is. -/
abbrev Script := String → Option (Rat × RunOutcome)

/-- `ExecutionDouble.poll`, down to the outcome. -/
def Script.poll (script : Script) (key : String) (now : Rat) : Option String :=
  match script key with
  | none => none
  | some (arrival, outcome) => if now < arrival then none else some (ClosedVocabulary.text outcome)

/-! ### Courses -/

/-- What all courses share: the rules, the demand events and the records that outlive a crash, the
static checks with their metadata, and the results of the delegated checks. -/
structure Setting where
  rulesStore : RulesStore
  monotonic : rulesStore.Monotonic
  demandEvents : List Demand
  persisted : OrderedDict String EvidenceRecord
  registry : StaticRegistry
  metadata : String → Json
  script : Script

/-- What can happen to the judgment: a delegation is dispatched and acknowledged or not, or polled
at some time; a static check is run; the process crashes and rebuilds. -/
inductive Move
  | dispatch (check : String) (acknowledged : Bool)
  | poll (check : String) (now : Rat)
  | runStatic (check : String)
  | crash
  deriving DecidableEq

def Move.time? : Move → Option Rat
  | .poll _ now => some now
  | _ => none

/-- The polls come at times that do not decrease. -/
def Ordered (moves : List Move) : Prop := (moves.filterMap Move.time?).Pairwise (· ≤ ·)

variable (judgment : Judgment)

/-- The judgment after an operation: as it was when the operation raises. -/
def Judgment.after : Except Refusal Judgment → Judgment
  | .ok next => next
  | .error _ => judgment

namespace Setting

variable (setting : Setting) (digest : String → String) (artifactRef : String)

def opening : Option Judgment :=
  ((restarted digest setting.persisted setting.rulesStore).handling
    setting.demandEvents).judgments.get? artifactRef

/-- The open judgment of the artifact after a crash: none when the rebuild raises. -/
def rebuilt : Option Judgment :=
  (rebuild digest setting.demandEvents setting.persisted setting.rulesStore).toOption.bind
    fun projection ↦ projection.judgments.get? artifactRef

def answer (check : String) (now : Rat) : Option String :=
  (judgment.delegations.get? check).bind fun delegation ↦ setting.script.poll delegation.key now

def advance : Move → Judgment
  | .dispatch check acknowledged =>
    judgment.after (judgment.dispatchDelegation check acknowledged)
  | .poll check now =>
    judgment.after (judgment.resolveDelegation check (setting.answer judgment check now) now)
  | .runStatic check =>
    judgment.after (judgment.runStaticCheck setting.registry check (setting.metadata check))
  | .crash => judgment

def move (held : Option Judgment) (move : Move) : Option Judgment :=
  if move = .crash then setting.rebuilt digest artifactRef
  else held.map fun judgment ↦ setting.advance judgment move

def course (moves : List Move) : Option Judgment :=
  moves.foldl (setting.move digest artifactRef) (setting.opening digest artifactRef)

/-- The judgment does not depend on when it is polled and on crashes: a crash reopens it, and any
two courses that complete it leave the same delegations and the same findings. -/
def Unaffected (quotient : Nat → Nat → Rat) (policy : DerivationPolicy) : Prop :=
  setting.rebuilt digest artifactRef = setting.opening digest artifactRef ∧
    ∀ first second : List Move, Ordered first → Ordered second → ∀ one other : Judgment,
      setting.course digest artifactRef first = some one → one.Complete →
      setting.course digest artifactRef second = some other → other.Complete →
      (∀ check, one.delegations.get? check = other.delegations.get? check) ∧
        findings quotient policy one.record = findings quotient policy other.record

/-- Every check of the judgment can become evidence: its level is not empty, and a static check
answers. -/
def Judgeable : Prop :=
  (∀ check ∈ judgment.delegations.keys, ∃ level, judgment.levels.get? check = some level ∧ level ≠
    "") ∧ ∀ check ∈ judgment.staticPending,
      (∃ level, judgment.levels.get? check = some level ∧ level ≠ "") ∧
        ∃ outcome, runRegistered setting.registry check judgment.artifactRef
          (setting.metadata check) = .ok outcome

def Punctual : Prop :=
  ∀ check delegation, judgment.delegations.get? check = some delegation →
    ∀ arrival outcome, setting.script delegation.key = some (arrival, outcome) →
      arrival ≤ delegation.deadline

end Setting

structure Judgment.Opened (judgment : Judgment) : Prop where
  artifactRef : judgment.artifactRef ≠ ""
  items : judgment.record.items = []
  required : ∀ check delegation, judgment.delegations.get? check = some delegation →
    delegation.state = .required ∧ delegation.result = none ∧ delegation.key ≠ ""
  disjoint : ∀ check ∈ judgment.staticPending, check ∉ judgment.delegations.keys

variable {judgment : Judgment}

theorem Judgment.opened_of_judgmentOf {store : RulesStore} {demand : Demand}
    (hjudgment : judgmentOf store demand = .ok judgment) : judgment.Opened := by
  obtain ⟨⟨other, -, -, hdisjoint, hartifact⟩, rules, -, hopened⟩ := judgmentOf_eq_ok hjudgment
  refine ⟨by rw [hopened.artifactRef]; exact hartifact, by rw [hopened.record], ?_, ?_⟩
  · intro check delegation hdelegation
    obtain ⟨deadline, -, rfl⟩ := hopened.required check delegation hdelegation
    exact ⟨rfl, rfl, append_colon_ne_empty _ _⟩
  · intro check hcheck hdelegated
    rw [hopened.pending] at hcheck
    rw [hopened.keys] at hdelegated
    exact hdisjoint check hdelegated hcheck

theorem Engine.held_of_handleDemand {engine : Engine} {demand : Demand} {artifactRef : String}
    (hfound : (engine.handleDemand demand).2.judgments.get? artifactRef = some judgment) :
    engine.judgments.get? artifactRef = some judgment ∨
      judgmentOf engine.rulesStore demand = .ok judgment := by
  unfold handleDemand at hfound
  split at hfound
  · exact Or.inl hfound
  split at hfound
  · split at hfound
    · exact Or.inl hfound
    · next opened hopened =>
      rw [get?_insert] at hfound
      split at hfound
      · cases hfound
        exact Or.inr hopened
      · exact Or.inl hfound
  · exact Or.inl hfound

theorem Engine.opened_of_handling {engine : Engine} (demands : List Demand)
    (hopened : ∀ artifactRef judgment, engine.judgments.get? artifactRef = some judgment →
      judgment.Opened) :
    ∀ artifactRef judgment, (engine.handling demands).judgments.get? artifactRef = some judgment →
      judgment.Opened := by
  induction demands generalizing engine with
  | nil => exact hopened
  | cons demand rest ih =>
    refine ih fun artifactRef judgment hfound ↦ ?_
    rcases held_of_handleDemand hfound with hheld | hmade
    · exact hopened artifactRef judgment hheld
    · exact Judgment.opened_of_judgmentOf hmade

/-- The delegation with what became of it: a result, or its expiry. -/
def Delegation.settled (delegation : Delegation) : Option String → Delegation
  | some outcome => { delegation with state := .resulted, result := some outcome }
  | none => { delegation with state := .expired, result := none }

section

variable (delegation : Delegation)

@[simp] theorem Delegation.key_settled (fate : Option String) :
    (delegation.settled fate).key = delegation.key := by
  cases fate <;> rfl

@[simp] theorem Delegation.result_settled (fate : Option String) :
    (delegation.settled fate).result = fate := by
  cases fate <;> rfl

@[simp] theorem Delegation.terminal_settled (fate : Option String) :
    (delegation.settled fate).state.terminal = true := by
  cases fate <;> rfl

end

variable {now : Rat}

/-- A poll of a dispatched delegation settles it when a result is there or the deadline has
passed. -/
theorem Delegation.resolve_of_dispatched {delegation : Delegation} {polled : Option String}
    (hstate : delegation.state = .dispatched) (hdue : polled = none → delegation.deadline ≤ now) :
    delegation.resolve polled now = .ok (delegation.settled polled) := by
  unfold resolve
  rw [if_neg (by rw [hstate]; decide), if_neg (by rw [hstate]; decide)]
  cases polled with
  | some outcome => rfl
  | none => exact if_pos (hdue rfl)

namespace Judgment

variable {judgment next : Judgment} {check : String}

/-- An observation is recorded exactly when its texts are not empty. -/
theorem observe_eq_ok_iff {source result kind : String} (hkind : .str kind ∈ contributionKinds)
    (hmissing : kind ≠ "missing") (hartifact : judgment.artifactRef ≠ "") (hsource : source ≠ "")
    (hresult : result ≠ "") : judgment.observe check source result kind = .ok next ↔
      ∃ level, judgment.levels.get? check = some level ∧ level ≠ "" ∧
        next = judgment.withItem (judgment.observation check source result kind level) := by
  have hrule : "rule." ++ check ≠ "" := by
    intro hempty
    have hlist := congrArg String.toList hempty
    simp at hlist
  unfold observe
  cases hlevel : judgment.levels.get? check with
  | none => simp
  | some level =>
    simp only [map_eq_ok_iff, buildEvidenceItem_eq_ok_iff hkind hmissing]
    constructor
    · rintro ⟨item, ⟨⟨-, -, -, hnonempty, -⟩, rfl⟩, rfl⟩
      exact ⟨level, rfl, hnonempty, rfl⟩
    · rintro ⟨other, hother, hnonempty, rfl⟩
      cases hother
      exact ⟨_, ⟨⟨hrule, hartifact, hresult, hnonempty, hsource⟩, rfl⟩, rfl⟩

/-- The judgment in which a delegation is settled and its evidence appended. -/
def settling (check : String) (delegation : Delegation)
    (fate : Option String) (level : String) : Judgment :=
  (judgment.withDelegation check (delegation.settled fate)).withItem
    (judgment.observation check ("execution:" ++ delegation.key)
      (fate.getD "execution_failure") "independent" level)

/-- Assumes: the delegation is dispatched and due, and its texts are not empty. Then the poll
settles the check exactly when its level is not empty. -/
theorem resolveDelegation_of_due {delegation : Delegation} {polled : Option String}
    (hfound : judgment.delegations.get? check = some delegation)
    (hstate : delegation.state = .dispatched) (hdue : polled = none → delegation.deadline ≤ now)
    (hartifact : judgment.artifactRef ≠ "") (hpolled : polled ≠ some "") :
    judgment.resolveDelegation check polled now = .ok next ↔
      ∃ level, judgment.levels.get? check = some level ∧ level ≠ "" ∧
        next = judgment.settling check delegation polled level := by
  have hsource : "execution:" ++ delegation.key ≠ "" := by
    intro hempty
    have hlist := congrArg String.toList hempty
    simp at hlist
  have hresult : polled.getD "execution_failure" ≠ "" := by
    cases polled with
    | none => decide
    | some outcome => exact fun hempty ↦ hpolled (congrArg some hempty)
  have hrecorded : (judgment.withDelegation check (delegation.settled polled)).recordChange check
      delegation (delegation.settled polled) =
      (judgment.withDelegation check (delegation.settled polled)).observe check
        ("execution:" ++ delegation.key) (polled.getD "execution_failure") "independent" := by
    unfold recordChange
    cases polled with
    | none | some outcome => rw [if_neg (by rw [hstate]; simp [Delegation.settled])]; rfl
  unfold resolveDelegation requireDelegation
  rw [hfound]
  change (do
    let resolved ← delegation.resolve polled now
    (judgment.withDelegation check resolved).recordChange check delegation resolved) = _ ↔ _
  rw [Delegation.resolve_of_dispatched hstate hdue]
  exact (congrArg (· = Except.ok next) hrecorded).to_iff.trans
    (observe_eq_ok_iff (by decide) (by decide) hartifact hsource hresult)

end Judgment

theorem Script.poll_ne_empty (script : Script) (key : String) (now : Rat) :
    script.poll key now ≠ some "" := by
  unfold poll
  split
  · simp
  · next arrival outcome hscript =>
    split
    · simp
    · cases outcome <;> simp [ClosedVocabulary.text]

/-- What can have become of a planned delegation: a result that the script has, or an expiry when
its result, if there is one, comes too late. -/
inductive Fate (script : Script) (planned : Delegation) : Delegation → Prop
  | required : Fate script planned planned
  | dispatched : Fate script planned { planned with state := .dispatched }
  | resulted (arrival : Rat) (outcome : RunOutcome)
      (hscript : script planned.key = some (arrival, outcome)) :
      Fate script planned (planned.settled (some (ClosedVocabulary.text outcome)))
  | expired (hlate : ∀ arrival outcome, script planned.key = some (arrival, outcome) →
      planned.deadline < arrival) : Fate script planned (planned.settled none)

/-- A due poll gives a dispatched delegation one of its fates. -/
theorem Fate.of_poll {script : Script} {planned : Delegation}
    (hdue : script.poll planned.key now = none → planned.deadline ≤ now) :
    Fate script planned (planned.settled (script.poll planned.key now)) := by
  cases hpolled : script.poll planned.key now with
  | some text =>
    unfold Script.poll at hpolled
    split at hpolled
    · cases hpolled
    next arrival outcome hscript =>
    split at hpolled
    · cases hpolled
    · cases hpolled
      exact Fate.resulted arrival outcome hscript
  | none =>
    refine Fate.expired fun arrival outcome hscript ↦ ?_
    unfold Script.poll at hpolled
    rw [hscript] at hpolled
    by_cases harrival : now < arrival
    · exact (hdue (by unfold Script.poll; rw [hscript]; exact if_pos harrival)).trans_lt harrival
    · cases (if_neg harrival).symm.trans hpolled

def Judgment.SettledSince (opening judgment : Judgment) (check : String) : Prop :=
  (∃ delegation, judgment.delegations.get? check = some delegation ∧
      delegation.state.terminal = true) ∨
    check ∈ opening.staticPending ∧ check ∉ judgment.staticPending

namespace Setting

variable {setting : Setting}

/-- The outcome of a static check, empty where it raises. -/
def staticOutcome (setting : Setting) (judgment : Judgment) (check : String) : String :=
  match runRegistered setting.registry check judgment.artifactRef (setting.metadata check) with
  | .ok outcome => outcome
  | .error _ => ""

def evidence (setting : Setting) (judgment : Judgment) (check : String) : EvidenceItem :=
  let level := (judgment.levels.get? check).getD ""
  match judgment.delegations.get? check with
  | some delegation =>
    judgment.observation check ("execution:" ++ delegation.key)
      (delegation.result.getD "execution_failure") "independent" level
  | none =>
    judgment.observation check ("static:" ++ check) (setting.staticOutcome judgment check)
      "independent" level

theorem evidence_congr {judgment next : Judgment} {check : String}
    (hartifact : next.artifactRef = judgment.artifactRef) (hlevels : next.levels = judgment.levels)
    (hsame : next.delegations.get? check = judgment.delegations.get? check) :
    setting.evidence next check = setting.evidence judgment check := by
  unfold evidence staticOutcome Judgment.observation
  rw [hartifact, hlevels, hsame]

/-- What holds of a judgment that was reached from its opening: each delegation has one of its
fates, and the evidence is one item for each settled check. -/
structure Reached (setting : Setting) (opening judgment : Judgment) : Prop where
  artifactRef : judgment.artifactRef = opening.artifactRef
  levels : judgment.levels = opening.levels
  keys : judgment.delegations.keys = opening.delegations.keys
  fates : ∀ check planned, opening.delegations.get? check = some planned →
    ∃ delegation, judgment.delegations.get? check = some delegation ∧
      Fate setting.script planned delegation
  pending : ∀ check ∈ judgment.staticPending, check ∈ opening.staticPending
  items : ∃ checks : List String, checks.Nodup ∧
    (∀ check, check ∈ checks ↔ opening.SettledSince judgment check) ∧
    judgment.record.items = checks.map (setting.evidence judgment)
  levelled : ∀ check, opening.SettledSince judgment check →
    ∃ level, opening.levels.get? check = some level ∧ level ≠ ""
  ran : ∀ check ∈ opening.staticPending, check ∉ judgment.staticPending →
    ∃ outcome, runRegistered setting.registry check opening.artifactRef
      (setting.metadata check) = .ok outcome

theorem Reached.refl {opening : Judgment} (hopened : opening.Opened) :
    setting.Reached opening opening := by
  have hnone : ∀ check, ¬ opening.SettledSince opening check := by
    rintro check (⟨delegation, hfound, hterminal⟩ | ⟨hmem, hnot⟩)
    · rw [(hopened.required check delegation hfound).1] at hterminal
      cases hterminal
    · exact hnot hmem
  refine ⟨rfl, rfl, rfl, fun check planned hplanned ↦ ⟨planned, hplanned, Fate.required⟩,
    fun check hcheck ↦ hcheck, ⟨[], nodup_nil, ?_, hopened.items⟩, ?_, ?_⟩
  · exact fun check ↦ ⟨fun hmem ↦ absurd hmem not_mem_nil, fun hsettled ↦
      absurd hsettled (hnone check)⟩
  · exact fun check hsettled ↦ absurd hsettled (hnone check)
  · exact fun check hmem hnot ↦ absurd hmem hnot

variable {check : String}

theorem Reached.settle {opening judgment next : Judgment}
    (hreached : setting.Reached opening judgment) (hnew : ¬ opening.SettledSince judgment check)
    (hartifact : next.artifactRef = judgment.artifactRef) (hlevels : next.levels = judgment.levels)
    (hkeys : next.delegations.keys = judgment.delegations.keys) (hothers : ∀ other, other ≠ check →
      next.delegations.get? other = judgment.delegations.get? other)
    (hfate : ∀ planned, opening.delegations.get? check = some planned →
      ∃ delegation, next.delegations.get? check = some delegation ∧
        Fate setting.script planned delegation)
    (hpending : ∀ other, other ∈ next.staticPending → other ∈ judgment.staticPending)
    (hsettled : ∀ other, opening.SettledSince next other ↔
      opening.SettledSince judgment other ∨ other = check)
    (hlevel : ∃ level, judgment.levels.get? check = some level ∧ level ≠ "")
    (hran : ∀ other ∈ opening.staticPending, other ∉ next.staticPending →
      ∃ outcome, runRegistered setting.registry other opening.artifactRef
        (setting.metadata other) = .ok outcome)
    (hitems : next.record.items = judgment.record.items ++ [setting.evidence next check]) :
    setting.Reached opening next := by
  obtain ⟨checks, hnodup, hmem, hbefore⟩ := hreached.items
  have hfresh : check ∉ checks := fun hcheck ↦ hnew ((hmem check).mp hcheck)
  refine ⟨hartifact.trans hreached.artifactRef, hlevels.trans hreached.levels,
    hkeys.trans hreached.keys, ?_, fun other hother ↦ hreached.pending other
      (hpending other hother),
    ⟨checks ++ [check], ?_, ?_, ?_⟩, ?_, hran⟩
  · intro other planned hplanned
    by_cases hsame : other = check
    · subst hsame
      exact hfate planned hplanned
    · rw [hothers other hsame]
      exact hreached.fates other planned hplanned
  · refine List.nodup_append.mpr ⟨hnodup, nodup_singleton _, ?_⟩
    intro first hfirst second hsecond hsame
    rw [mem_singleton] at hsecond
    exact hfresh (hsecond ▸ hsame ▸ hfirst)
  · intro other
    rw [mem_append, mem_singleton, hmem, hsettled]
  · rw [hitems, hbefore, map_append, map_singleton]
    congr 1
    refine map_congr_left fun other hother ↦ ?_
    have hne : other ≠ check := fun hsame ↦ hfresh (hsame ▸ hother)
    exact (evidence_congr hartifact hlevels (hothers other hne)).symm
  · intro other hother
    rw [← hreached.levels]
    rcases (hsettled other).mp hother with hbefore | rfl
    · rw [hreached.levels]
      exact hreached.levelled other hbefore
    · exact hlevel

/-! ### Moves -/

section

variable (judgment : Judgment)

theorem advance_dispatch_eq (check : String) (acknowledged : Bool) :
    setting.advance judgment (.dispatch check acknowledged) =
      judgment.after (judgment.dispatchDelegation check acknowledged) := rfl

theorem advance_poll_eq (check : String) (now : Rat) :
    setting.advance judgment (.poll check now) = judgment.after
      (judgment.resolveDelegation check (setting.answer judgment check now) now) := rfl

theorem advance_static_eq (check : String) :
    setting.advance judgment (.runStatic check) = judgment.after
      (judgment.runStaticCheck setting.registry check (setting.metadata check)) := rfl

theorem advance_dispatch (check : String) (acknowledged : Bool) :
    setting.advance judgment (.dispatch check acknowledged) = judgment ∨
      ∃ delegation, judgment.delegations.get? check = some delegation ∧
        delegation.state = .required ∧ setting.advance judgment (.dispatch check acknowledged) =
          judgment.withDelegation check { delegation with state := .dispatched } := by
  rw [advance_dispatch_eq]
  cases hnext : judgment.dispatchDelegation check acknowledged with
  | error refusal => exact Or.inl rfl
  | ok next =>
    obtain ⟨delegation, hfound, hrest⟩ := bind_eq_ok_iff.mp hnext
    obtain ⟨dispatched, hdispatched, hlast⟩ := bind_eq_ok_iff.mp hrest
    cases hlast
    have hfound := Judgment.requireDelegation_eq_ok hfound
    unfold Delegation.dispatch at hdispatched
    split at hdispatched
    · cases hdispatched
    next hstate =>
    split at hdispatched
    · cases hdispatched
      exact Or.inr ⟨delegation, hfound, not_not.mp hstate, rfl⟩
    · cases hdispatched
      exact Or.inl (Judgment.withDelegation_self hfound)

end

theorem advance_poll (hartifact : judgment.artifactRef ≠ "") (check : String)
    (now : Rat) : setting.advance judgment (.poll check now) = judgment ∨
      ∃ delegation level, judgment.delegations.get? check = some delegation ∧
        delegation.state = .dispatched ∧ judgment.levels.get? check = some level ∧ level ≠ "" ∧
        (setting.script.poll delegation.key now = none → delegation.deadline ≤ now) ∧
        setting.advance judgment (.poll check now) =
          judgment.settling check delegation (setting.script.poll delegation.key now) level := by
  rw [advance_poll_eq]
  unfold answer
  cases hfound : judgment.delegations.get? check with
  | none =>
    refine Or.inl ?_
    unfold Judgment.resolveDelegation Judgment.requireDelegation
    rw [hfound]
    rfl
  | some delegation =>
    rw [Option.bind_some]
    generalize hpolled : setting.script.poll delegation.key now = polled
    by_cases hdue : delegation.state = .dispatched ∧ (polled = none → delegation.deadline ≤ now)
    · cases hnext : judgment.resolveDelegation check polled now with
      | error refusal => exact Or.inl rfl
      | ok next =>
        have hempty : polled ≠ some "" := hpolled ▸ setting.script.poll_ne_empty delegation.key now
        obtain ⟨level, hlevel, hnonempty, rfl⟩ :=
          (Judgment.resolveDelegation_of_due hfound hdue.1 hdue.2 hartifact hempty).mp hnext
        refine Or.inr ⟨delegation, level, rfl, hdue.1, hlevel, hnonempty, ?_, ?_⟩
        · rw [hpolled]
          exact hdue.2
        · rw [hpolled]
          rfl
    · refine Or.inl ?_
      cases hnext : judgment.resolveDelegation check polled now with
      | error refusal => rfl
      | ok next =>
        obtain ⟨other, hother, hrest⟩ := bind_eq_ok_iff.mp hnext
        obtain ⟨after, hafter, hrecorded⟩ := bind_eq_ok_iff.mp hrest
        rw [Judgment.requireDelegation_eq_ok hother, Option.some.injEq] at hfound
        subst hfound
        have hsame : after = other := by
          rcases Judgment.resolve_eq_ok hafter with hsame | ⟨hstate, hsettled⟩
          · exact hsame
          · refine absurd ⟨hstate, ?_⟩ hdue
            rcases hsettled with ⟨outcome, rfl, -⟩ | ⟨-, hdeadline, -⟩
            · exact fun hnone ↦ absurd hnone (by simp)
            · exact fun _ ↦ hdeadline
        subst hsame
        unfold Judgment.recordChange at hrecorded
        rw [if_pos rfl, Judgment.withDelegation_self (Judgment.requireDelegation_eq_ok hother)]
          at hrecorded
        exact (Except.ok.inj hrecorded).symm

/-- What running a static check does: nothing, or its evidence is appended. -/
theorem advance_static {judgment : Judgment} (hartifact : judgment.artifactRef ≠ "")
    (check : String) : setting.advance judgment (.runStatic check) = judgment ∨
      ∃ outcome level, check ∈ judgment.staticPending ∧ judgment.levels.get? check = some level ∧
        level ≠ "" ∧ runRegistered setting.registry check judgment.artifactRef
          (setting.metadata check) = .ok outcome ∧
        setting.advance judgment (.runStatic check) = { judgment.withItem
          (judgment.observation check ("static:" ++ check) outcome "independent" level) with
            staticPending := judgment.staticPending.filter fun name ↦ name ≠ check } := by
  rw [advance_static_eq]
  cases hnext : judgment.runStaticCheck setting.registry check (setting.metadata check) with
  | error refusal => exact Or.inl rfl
  | ok next =>
    unfold Judgment.runStaticCheck at hnext
    split at hnext
    · cases hnext
    next hpending =>
    obtain ⟨outcome, hrun, hrest⟩ := bind_eq_ok_iff.mp hnext
    obtain ⟨observed, hobserved, hlast⟩ := bind_eq_ok_iff.mp hrest
    cases hlast
    have hsource : "static:" ++ check ≠ "" := by
      intro hempty
      have hlist := congrArg String.toList hempty
      simp at hlist
    have houtcome : outcome ≠ "" := by
      rcases runRegistered_eq_ok hrun with rfl | rfl
      · decide
      · decide
    obtain ⟨level, hlevel, hnonempty, rfl⟩ :=
      (Judgment.observe_eq_ok_iff (by decide) (by decide) hartifact hsource houtcome).mp hobserved
    exact Or.inr ⟨outcome, level, not_not.mp hpending, hlevel, hnonempty, hrun, rfl⟩

variable {delegation : Delegation}

/-- The delegations after one of them is replaced. -/
theorem get?_withDelegation {check other : String} :
    (judgment.withDelegation check delegation).delegations.get? other =
      if check = other then some delegation else judgment.delegations.get? other :=
  get?_insert ..

variable {opening judgment : Judgment}

/-- A required or dispatched delegation did not become evidence. -/
theorem Reached.not_settled (hreached : setting.Reached opening judgment) (hopened : opening.Opened)
    (hfound : judgment.delegations.get? check = some delegation)
    (hstate : delegation.state.terminal = false) : ¬ opening.SettledSince judgment check := by
  rintro (⟨other, hother, hterminal⟩ | ⟨hstatic, -⟩)
  · rw [hfound] at hother
    cases hother
    rw [hstate] at hterminal
    cases hterminal
  · refine hopened.disjoint check hstatic ?_
    rw [← hreached.keys]
    exact (exists_get?_iff _).mp ⟨delegation, hfound⟩

theorem Reached.exists_planned (hreached : setting.Reached opening judgment)
    (hfound : judgment.delegations.get? check = some delegation) :
    ∃ planned, opening.delegations.get? check = some planned ∧
      Fate setting.script planned delegation := by
  have hmem : check ∈ opening.delegations.keys := by
    rw [← hreached.keys]
    exact (exists_get?_iff _).mp ⟨delegation, hfound⟩
  obtain ⟨planned, hplanned⟩ := (exists_get?_iff _).mpr hmem
  obtain ⟨other, hother, hfate⟩ := hreached.fates check planned hplanned
  rw [hfound] at hother
  cases hother
  exact ⟨planned, hplanned, hfate⟩

/-- The plan of a delegation in transit: it differs from it in the state at most. -/
theorem Fate.planned_of_transit {script : Script} {planned delegation : Delegation}
    (hfate : Fate script planned delegation) (hstate : delegation.state.terminal = false) :
    delegation.key = planned.key ∧ delegation.deadline = planned.deadline ∧
      (∀ fate, delegation.settled fate = planned.settled fate) ∧
      { delegation with state := .dispatched } = { planned with state := .dispatched } := by
  cases hfate with
  | required => exact ⟨rfl, rfl, fun _ ↦ rfl, rfl⟩
  | dispatched =>
    refine ⟨rfl, rfl, fun fate ↦ ?_, rfl⟩
    cases fate <;> rfl
  | resulted | expired =>
    cases hstate

theorem Reached.dispatch (hreached : setting.Reached opening judgment) (hopened : opening.Opened)
    (hfound : judgment.delegations.get? check = some delegation)
    (hstate : delegation.state = .required) : setting.Reached opening
      (judgment.withDelegation check { delegation with state := .dispatched }) := by
  have hterminal : delegation.state.terminal = false := by rw [hstate]; rfl
  have hnew := hreached.not_settled hopened hfound hterminal
  have hsettled : ∀ other, opening.SettledSince
      (judgment.withDelegation check { delegation with state := .dispatched }) other ↔
        opening.SettledSince judgment other := by
    intro other
    refine or_congr ?_ Iff.rfl
    rw [get?_withDelegation]
    split
    · next hsame =>
      subst hsame
      rw [hfound]
      simp [hstate, DelegationState.terminal]
    · rfl
  obtain ⟨checks, hnodup, hmem, hitems⟩ := hreached.items
  refine { hreached with
    keys := (Judgment.keys_withDelegation hfound).trans hreached.keys
    fates := ?_
    items := ⟨checks, hnodup, fun other ↦ (hmem other).trans (hsettled other).symm, ?_⟩
    levelled := fun other hother ↦ hreached.levelled other ((hsettled other).mp hother) }
  · intro other planned hplanned
    rw [get?_withDelegation]
    split
    · next hsame =>
      subst hsame
      obtain ⟨found, hother, hfate⟩ := hreached.fates check planned hplanned
      rw [hfound] at hother
      cases hother
      rw [(Fate.planned_of_transit hfate hterminal).2.2.2]
      exact ⟨_, rfl, Fate.dispatched⟩
    · exact hreached.fates other planned hplanned
  · refine hitems.trans (map_congr_left fun other hother ↦ ?_)
    have hne : check ≠ other := fun hsame ↦ hnew (hsame ▸ (hmem other).mp hother)
    refine (@evidence_congr setting judgment (judgment.withDelegation check
      { delegation with state := .dispatched }) other rfl rfl ?_).symm
    rw [get?_withDelegation, if_neg hne]

theorem Reached.settling {check level : String} (hreached : setting.Reached opening judgment)
    (hopened : opening.Opened) (hfound : judgment.delegations.get? check = some delegation)
    (hstate : delegation.state = .dispatched) (hlevel : judgment.levels.get? check = some level)
    (hnonempty : level ≠ "")
    (hdue : setting.script.poll delegation.key now = none → delegation.deadline ≤ now) :
    setting.Reached opening
      (judgment.settling check delegation (setting.script.poll delegation.key now) level) := by
  have hterminal : delegation.state.terminal = false := by rw [hstate]; rfl
  have hself : ∀ fate : Option String, (judgment.settling check delegation fate
      level).delegations.get? check = some (delegation.settled fate) := by
    intro fate
    exact get?_withDelegation.trans (if_pos rfl)
  have hother : ∀ (fate : Option String) other, other ≠ check →
      (judgment.settling check delegation fate level).delegations.get? other =
        judgment.delegations.get? other := by
    intro fate other hne
    exact get?_withDelegation.trans (if_neg hne.symm)
  refine hreached.settle (hreached.not_settled hopened hfound hterminal) rfl rfl
    (Judgment.keys_withDelegation hfound) (hother _) ?_ (fun _ h ↦ h) ?_ ⟨level, hlevel, hnonempty⟩
    hreached.ran ?_
  · intro planned hplanned
    obtain ⟨found, hcheck, hfate⟩ := hreached.fates check planned hplanned
    rw [hfound] at hcheck
    cases hcheck
    obtain ⟨hkey, hdeadline, hsettled, -⟩ := Fate.planned_of_transit hfate hterminal
    refine ⟨_, hself _, ?_⟩
    rw [hsettled, hkey]
    rw [hkey, hdeadline] at hdue
    exact Fate.of_poll hdue
  · intro other
    by_cases hsame : other = check
    · subst hsame
      refine iff_of_true (Or.inl ⟨_, hself _, Delegation.terminal_settled ..⟩) (Or.inr rfl)
    · unfold Judgment.SettledSince
      rw [hother _ other hsame, or_iff_left hsame]
      rfl
  · change judgment.record.items ++ [_] = judgment.record.items ++ [_]
    congr 2
    unfold evidence
    rw [hself]
    change _ = judgment.observation check ("execution:" ++ (delegation.settled _).key) _
      "independent" ((judgment.levels.get? check).getD "")
    rw [Delegation.key_settled, Delegation.result_settled, hlevel]
    rfl

theorem Reached.static {check level outcome : String}
    (hreached : setting.Reached opening judgment) (hopened : opening.Opened)
    (hpending : check ∈ judgment.staticPending) (hlevel : judgment.levels.get? check = some level)
    (hnonempty : level ≠ "")
    (hrun : runRegistered setting.registry check judgment.artifactRef (setting.metadata check) =
      .ok outcome) : setting.Reached opening { judgment.withItem
      (judgment.observation check ("static:" ++ check) outcome "independent" level) with
        staticPending := judgment.staticPending.filter fun name ↦ name ≠ check } := by
  have hplanned := hreached.pending check hpending
  have hnone : judgment.delegations.get? check = none := by
    rw [get?_eq_none_iff, hreached.keys]
    exact hopened.disjoint check hplanned
  have hkept : ∀ other, other ∈ (judgment.staticPending.filter fun name ↦ name ≠ check) ↔
      other ∈ judgment.staticPending ∧ other ≠ check := by
    intro other
    rw [mem_filter, decide_eq_true_eq]
  refine hreached.settle ?_ rfl rfl rfl (fun _ _ ↦ rfl) (fun planned h ↦ ?_)
    (fun other hother ↦ ((hkept other).mp hother).1) ?_ ⟨level, hlevel, hnonempty⟩ ?_ ?_
  · rintro (⟨delegation, hfound, -⟩ | ⟨-, hnot⟩)
    · rw [hnone] at hfound
      cases hfound
    · exact hnot hpending
  · exact hreached.fates check planned h
  · intro other
    change (_ ∨ other ∈ opening.staticPending ∧
      other ∉ (judgment.staticPending.filter fun name ↦ name ≠ check)) ↔ _
    rw [hkept, not_and_or, not_not, and_or_left, ← or_assoc]
    refine or_congr Iff.rfl ⟨fun h ↦ h.2, ?_⟩
    rintro rfl
    exact ⟨hplanned, rfl⟩
  · intro other hother hnot
    by_cases hsame : other = check
    · subst hsame
      rw [← hreached.artifactRef]
      exact ⟨outcome, hrun⟩
    · exact hreached.ran other hother fun hmem ↦ hnot ((hkept other).mpr ⟨hmem, hsame⟩)
  · change judgment.record.items ++ [_] = judgment.record.items ++ [_]
    congr 2
    have houtcome : setting.staticOutcome judgment check = outcome := by
      unfold staticOutcome
      rw [hrun]
    refine Eq.trans ?_ (@evidence_congr setting judgment _ check rfl rfl rfl).symm
    unfold evidence
    rw [hnone, houtcome, hlevel]
    rfl

/-- Every move within a process keeps what was reached. -/
theorem Reached.advance {opening judgment : Judgment} (hreached : setting.Reached opening judgment)
    (hopened : opening.Opened) (move : Move) :
    setting.Reached opening (setting.advance judgment move) := by
  have hartifact : judgment.artifactRef ≠ "" := hreached.artifactRef ▸ hopened.artifactRef
  cases move with
  | dispatch check acknowledged =>
    rcases advance_dispatch judgment check acknowledged with hsame |
      ⟨delegation, hfound, hstate, hnext⟩
    · rw [hsame]
      exact hreached
    · rw [hnext]
      exact hreached.dispatch hopened hfound hstate
  | poll check now =>
    rcases advance_poll hartifact check now with hsame |
      ⟨delegation, level, hfound, hstate, hlevel, hnonempty, hdue, hnext⟩
    · rw [hsame]
      exact hreached
    · rw [hnext]
      exact hreached.settling hopened hfound hstate hlevel hnonempty hdue
  | runStatic check =>
    rcases advance_static hartifact check with hsame |
      ⟨outcome, level, hpending, hlevel, hnonempty, hrun, hnext⟩
    · rw [hsame]
      exact hreached
    · rw [hnext]
      exact hreached.static hopened hpending hlevel hnonempty hrun
  | crash => exact hreached

theorem reached_of_course {digest : String → String} {artifactRef : String} {opening : Judgment}
    (hopened : opening.Opened) (hopening : setting.opening digest artifactRef = some opening)
    (hrebuilt : setting.rebuilt digest artifactRef = some opening) {moves : List Move}
    (hcourse : setting.course digest artifactRef moves = some judgment) :
    setting.Reached opening judgment := by
  have hfold : ∀ moves : List Move, ∀ held : Option Judgment,
      (∀ judgment, held = some judgment → setting.Reached opening judgment) →
      ∀ judgment, moves.foldl (setting.move digest artifactRef) held = some judgment →
        setting.Reached opening judgment := by
    intro moves
    induction moves with
    | nil => exact fun held hheld ↦ hheld
    | cons move rest ih =>
      refine fun held hheld ↦ ih _ fun judgment hjudgment ↦ ?_
      unfold Setting.move at hjudgment
      split at hjudgment
      · rw [hrebuilt, Option.some.injEq] at hjudgment
        exact hjudgment ▸ Reached.refl hopened
      · obtain ⟨before, hbefore, rfl⟩ := Option.map_eq_some_iff.mp hjudgment
        exact (hheld before hbefore).advance hopened move
  refine hfold moves _ (fun other hother ↦ ?_) judgment hcourse
  rw [hopening, Option.some.injEq] at hother
  exact hother ▸ Reached.refl hopened

end Setting

end AbsoluteZero.Verification

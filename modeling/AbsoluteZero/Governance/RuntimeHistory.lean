import AbsoluteZero.Foundations.Checked
import AbsoluteZero.Governance.Evaluation
import AbsoluteZero.Governance.GrantHistory
import AbsoluteZero.Governance.Runtime

/-!
# Histories of a governance runtime

Appends, admissions and consultations in any order, with the decisions that the consultations
returned. The ledger only grows and a snapshot of the registry stays (`GovernanceRuntime.Grows`),
and every decision in the memo was decided at an earlier consultation under its key
(`RuntimeHistory.traced_run`).
-/

namespace AbsoluteZero.Governance

open Foundations Call

variable {digest : Json → String}

section Evaluations

variable {snapshot : CompiledSnapshot} {slice : List GrantRecord} {question : Question}
  {stamps : Stamps}

variable {decision : Decision}

theorem exists_of_decideQuestion
    (hdecided : decideQuestion digest snapshot slice question stamps = .ok decision) :
    ∃ winner matched fallback constraints, decision = assembleDecision digest question stamps
      winner matched fallback (grantOverlay digest slice question winner) constraints := by
  obtain ⟨⟨winner, matched, fallback⟩, hwon, -⟩ := Checked.bind_eq_ok_iff.mp hdecided
  rw [decideQuestion_of_won digest slice hwon] at hdecided
  obtain ⟨constraints, -, rfl⟩ := Checked.map_eq_ok_iff.mp hdecided
  exact ⟨winner, matched, fallback, constraints, rfl⟩

theorem stamps_of_decideQuestion
    (hdecided : decideQuestion digest snapshot slice question stamps = .ok decision) :
    decision.snapshotVersion = stamps.snapshotVersion ∧
      decision.grantSlicePosition = stamps.grantSlicePosition ∧
      decision.evaluationRulesetVersion = stamps.evaluationRulesetVersion ∧
      decision.questionHash = questionHash digest question := by
  obtain ⟨winner, matched, fallback, constraints, rfl⟩ := exists_of_decideQuestion hdecided
  exact ⟨rfl, rfl, rfl, rfl⟩

theorem conclude_eq_decision {result : Except Interruption Decision} :
    conclude stamps result = .ok (.decision decision) ↔ result = .ok decision := by
  cases result with
  | ok other => simp [conclude]
  | error interruption => cases interruption <;> simp [conclude]

theorem decided_of_evaluate (houtcome : (evaluate digest snapshot slice question stamps none).1 =
      .ok (.decision decision)) :
    decideQuestion digest snapshot slice question stamps = .ok decision := by
  cases hinputs : checkInputs stamps with
  | some refusal => simp [evaluate, hinputs] at houtcome
  | none =>
    cases hdefect : questionDefect snapshot question stamps with
    | some verdict => simp [evaluate, hinputs, hdefect] at houtcome
    | none =>
      rw [evaluate_of_wellFormed digest slice hinputs hdefect] at houtcome
      exact conclude_eq_decision.mp houtcome

/-- An evaluation with a memo that returns a decision takes it from the memo, or decides the
question and notes the decision. -/
theorem evaluate_eq_decision {memo : Memo}
    (houtcome : (evaluate digest snapshot slice question stamps (some memo)).1 =
      .ok (.decision decision)) :
    checkInputs stamps = none ∧ questionDefect snapshot question stamps = none ∧
      (memo.get? ⟨stamps, questionHash digest question⟩ = some decision ∧
          (evaluate digest snapshot slice question stamps (some memo)).2 = some memo ∨
        decideQuestion digest snapshot slice question stamps = .ok decision ∧
          (evaluate digest snapshot slice question stamps (some memo)).2 =
            some (memo.insert ⟨stamps, questionHash digest question⟩ decision)) := by
  unfold evaluate at houtcome ⊢
  cases hinputs : checkInputs stamps with
  | some refusal => simp [hinputs] at houtcome
  | none =>
    cases hdefect : questionDefect snapshot question stamps with
    | some verdict => simp [hinputs, hdefect] at houtcome
    | none =>
      simp only [hinputs, hdefect, Option.bind_some] at houtcome ⊢
      refine ⟨trivial, trivial, ?_⟩
      cases hmemo : memo.get? ⟨stamps, questionHash digest question⟩ with
      | some noted =>
        rw [hmemo] at houtcome
        exact .inl ⟨congrArg some (Outcome.decision.inj (Except.ok.inj houtcome)), rfl⟩
      | none =>
        rw [hmemo] at houtcome
        have hdecided := conclude_eq_decision.mp houtcome
        exact .inr ⟨hdecided, by simp [hdecided]⟩

theorem memo_evaluate_of_ne {memo : Memo}
    (houtcome : ∀ decision, (evaluate digest snapshot slice question stamps (some memo)).1 ≠
      .ok (.decision decision)) :
    (evaluate digest snapshot slice question stamps (some memo)).2 = some memo := by
  unfold evaluate at houtcome ⊢
  cases hinputs : checkInputs stamps with
  | some refusal => rfl
  | none =>
    cases hdefect : questionDefect snapshot question stamps with
    | some verdict => rfl
    | none =>
      simp only [hinputs, hdefect, Option.bind_some] at houtcome ⊢
      cases hmemo : memo.get? ⟨stamps, questionHash digest question⟩ with
      | some noted => rfl
      | none =>
        rw [hmemo] at houtcome
        cases hdecided : decideQuestion digest snapshot slice question stamps with
        | error interruption => rfl
        | ok decision => exact absurd (by rw [hdecided]; rfl) (houtcome decision)

end Evaluations

/-- The later runtime has the records of the ledger and the snapshots of the registry. -/
structure GovernanceRuntime.Grows (runtime later : GovernanceRuntime) : Prop where
  ledger : runtime.ledger.Reaches later.ledger
  snapshots : ∀ version snapshot, runtime.snapshots.get? version = some snapshot →
    later.snapshots.get? version = some snapshot

namespace GovernanceRuntime.Grows

variable {runtime later last : GovernanceRuntime}

theorem refl (runtime : GovernanceRuntime) : runtime.Grows runtime := ⟨.refl, fun _ _ ↦ id⟩

theorem trans (hfirst : runtime.Grows later) (hsecond : later.Grows last) : runtime.Grows last where
  ledger := hfirst.ledger.trans hsecond.ledger
  snapshots := fun version snapshot hkept ↦
    hsecond.snapshots version snapshot (hfirst.snapshots version snapshot hkept)

end GovernanceRuntime.Grows

section Calls

variable (digest) (runtime : GovernanceRuntime)

/-- A snapshot of the registry is what `snapshot_for` returns. -/
theorem snapshotFor_of_kept {version : Nat} {snapshot : CompiledSnapshot}
    (hkept : runtime.snapshots.get? version = some snapshot) :
    (snapshotFor digest version).outcome runtime = .ok snapshot ∧
      (snapshotFor digest version).after runtime = runtime := by
  unfold snapshotFor
  rw [outcome_get_bind, after_get_bind]
  simp only [hkept]
  exact ⟨rfl, rfl⟩

/-- `snapshot_for` is refused and changes nothing, or keeps the snapshot that it returns. -/
theorem snapshotFor_cases (version : Nat) :
    (∃ refusal, (snapshotFor digest version).outcome runtime = .error refusal ∧
      (snapshotFor digest version).after runtime = runtime) ∨
    ∃ snapshot snapshots, (snapshotFor digest version).outcome runtime = .ok snapshot ∧
      (snapshotFor digest version).after runtime = { runtime with snapshots := snapshots } ∧
      snapshots.get? version = some snapshot ∧
      ∀ other kept, runtime.snapshots.get? other = some kept → snapshots.get? other =
        some kept := by
  cases hkept : runtime.snapshots.get? version with
  | some snapshot =>
    obtain ⟨houtcome, hafter⟩ := snapshotFor_of_kept digest runtime hkept
    exact .inr ⟨snapshot, runtime.snapshots, houtcome, hafter, hkept, fun _ _ ↦ id⟩
  | none =>
    unfold snapshotFor
    rw [outcome_get_bind, after_get_bind]
    simp only [hkept]
    cases runtime.store.manifests.find? fun recorded ↦ recorded.snapshotVersion = version with
    | none => exact .inl ⟨_, rfl, rfl⟩
    | some recorded =>
      cases hregenerated : regenerate digest runtime.store recorded with
      | error refusal => exact .inl ⟨refusal, by simp [hregenerated], by simp [hregenerated]⟩
      | ok snapshot =>
        refine .inr ⟨snapshot, runtime.snapshots.insert version snapshot, ?_, ?_, by simp, ?_⟩
        · simp only [hregenerated]
          rfl
        · simp only [hregenerated]
          rfl
        · intro other kept hother
          have hne : version ≠ other := fun heq ↦ by
            rw [← heq, hkept] at hother
            cases hother
          rw [OrderedDict.get?_insert, if_neg hne, hother]

theorem after_admitRequest (requestId principal project : String) :
    (admitRequest requestId principal project).after runtime = runtime := by
  unfold admitRequest
  rw [after_get_bind]
  split <;> rfl

/-- A consultation is refused and changes nothing, or evaluates the question over the slice of the
view at the current position, with the snapshot of its version and the memo. -/
theorem consult_cases (view : EffectivePolicy) (question : Question) :
    (∃ refusal, (consult digest view question).outcome runtime = .error refusal ∧
      (consult digest view question).after runtime = runtime) ∨ ∃ slice snapshot snapshots,
      consultationSlice runtime.ledger view runtime.ledger.position = .ok slice ∧
      snapshots.get? view.snapshotVersion = some snapshot ∧
      (∀ other kept, runtime.snapshots.get? other = some kept → snapshots.get? other = some kept) ∧
      (consult digest view question).outcome runtime =
        (evaluate digest snapshot slice question ⟨view.snapshotVersion, runtime.ledger.position,
          currentEvaluationRulesetVersion⟩ (some runtime.memo)).1 ∧
      (consult digest view question).after runtime = { runtime with
          snapshots := snapshots
          memo := (evaluate digest snapshot slice question ⟨view.snapshotVersion,
            runtime.ledger.position, currentEvaluationRulesetVersion⟩
            (some runtime.memo)).2.getD runtime.memo } := by
  unfold consult
  rw [outcome_get_bind, after_get_bind]
  dsimp only
  cases hslice : consultationSlice runtime.ledger view runtime.ledger.position with
  | error refusal => exact .inl ⟨refusal, rfl, rfl⟩
  | ok slice =>
    simp only [outcome_bind, after_bind]
    rcases snapshotFor_cases digest runtime view.snapshotVersion with
      ⟨refusal, houtcome, hafter⟩ | ⟨snapshot, snapshots, houtcome, hafter, hkept, hkeeps⟩
    · exact .inl ⟨refusal, by simp [houtcome], by simp [houtcome, hafter]⟩
    · refine .inr ⟨slice, snapshot, snapshots, rfl, hkept, hkeeps, ?_, ?_⟩
      · simp only [houtcome, hafter, outcome_get, after_get, outcome_set, after_set]
        split <;> next heq => exact heq.symm
      · simp only [houtcome, hafter, outcome_get, after_get, outcome_set, after_set]
        split <;> rfl

end Calls

structure Consultation where
  view : EffectivePolicy
  question : Question
  decision : Decision

namespace Consultation

def stamps (consultation : Consultation) : Stamps where
  snapshotVersion := consultation.view.snapshotVersion
  grantSlicePosition := consultation.decision.grantSlicePosition
  evaluationRulesetVersion := currentEvaluationRulesetVersion

def key (digest : Json → String) (consultation : Consultation) : MemoKey where
  stamps := consultation.stamps
  questionHash := questionHash digest consultation.question

end Consultation

/-- The decision is the one on the question over the slice of the view at the position that it is
stamped with. -/
def Decided (digest : Json → String) (runtime : GovernanceRuntime) (consultation : Consultation) :
    Prop :=
  ∃ snapshot slice, runtime.snapshots.get? consultation.view.snapshotVersion = some snapshot ∧
    consultation.decision.grantSlicePosition ≤ runtime.ledger.position ∧
    consultationSlice runtime.ledger consultation.view consultation.decision.grantSlicePosition =
      .ok slice ∧
    checkInputs consultation.stamps = none ∧
    questionDefect snapshot consultation.question consultation.stamps = none ∧
    decideQuestion digest snapshot slice consultation.question consultation.stamps =
      .ok consultation.decision

theorem Decided.grows {runtime later : GovernanceRuntime} {consultation : Consultation}
    (hdecided : Decided digest runtime consultation) (hgrows : runtime.Grows later) :
    Decided digest later consultation := by
  obtain ⟨snapshot, slice, hkept, hposition, hslice, hinputs, hdefect, hdecision⟩ := hdecided
  refine ⟨snapshot, slice, hgrows.snapshots _ _ hkept,
    hposition.trans hgrows.ledger.position_le, ?_, hinputs, hdefect, hdecision⟩
  rw [hgrows.ledger.consultationSlice _ hposition, hslice]

/-- A consultation returns a decision of the memo, or decides the question and notes the decision.
-/
theorem consult_eq_decision {runtime : GovernanceRuntime} {view : EffectivePolicy}
    {question : Question} {decision : Decision}
    (houtcome : (consult digest view question).outcome runtime = .ok (.decision decision)) :
    ∃ snapshots slice snapshot stamps,
      stamps = Stamps.mk view.snapshotVersion runtime.ledger.position
        currentEvaluationRulesetVersion ∧ (∀ other kept, runtime.snapshots.get? other = some kept →
        snapshots.get? other = some kept) ∧ snapshots.get? view.snapshotVersion = some snapshot ∧
      consultationSlice runtime.ledger view runtime.ledger.position = .ok slice ∧
      checkInputs stamps = none ∧ questionDefect snapshot question stamps = none ∧
      (runtime.memo.get? ⟨stamps, questionHash digest question⟩ = some decision ∧
          (consult digest view question).after runtime = { runtime with snapshots := snapshots } ∨
        decideQuestion digest snapshot slice question stamps = .ok decision ∧
          (consult digest view question).after runtime =
            { runtime with
              snapshots := snapshots
              memo := runtime.memo.insert ⟨stamps, questionHash digest question⟩ decision }) := by
  rcases consult_cases digest runtime view question with
    ⟨refusal, hrefused, -⟩ | ⟨slice, snapshot, snapshots, hslice, hkept, hkeeps, hresult, hafter⟩
  · rw [houtcome] at hrefused
    cases hrefused
  · obtain ⟨hinputs, hdefect, hmemo⟩ := evaluate_eq_decision (hresult.symm.trans houtcome)
    refine ⟨snapshots, slice, snapshot, _, rfl, hkeeps, hkept, hslice, hinputs, hdefect, ?_⟩
    rw [hafter]
    rcases hmemo with ⟨hnoted, hsame⟩ | ⟨hdecided, hinsert⟩
    · exact .inl ⟨hnoted, by rw [hsame]; rfl⟩
    · exact .inr ⟨hdecided, by rw [hinsert]; rfl⟩

/-- A consultation that returns no decision leaves memo and ledger as they are. -/
theorem after_consult_of_ne {runtime : GovernanceRuntime} {view : EffectivePolicy}
    {question : Question} (houtcome : ∀ decision,
      (consult digest view question).outcome runtime ≠ .ok (.decision decision)) :
    runtime.Grows ((consult digest view question).after runtime) ∧
      ((consult digest view question).after runtime).memo = runtime.memo := by
  rcases consult_cases digest runtime view question with
    ⟨refusal, -, hafter⟩ | ⟨slice, snapshot, snapshots, hslice, hkept, hkeeps, hresult, hafter⟩
  · rw [hafter]
    exact ⟨.refl runtime, rfl⟩
  · rw [hresult] at houtcome
    rw [hafter, memo_evaluate_of_ne houtcome]
    exact ⟨⟨.refl, hkeeps⟩, rfl⟩

/-! ### Histories -/

/-- What happens to a runtime: an append to its store, an admission, an append to its ledger, or a
consultation through a view. -/
inductive RuntimeAction
  | author (append : Append)
  | admission (requestId principal project : String)
  | record (append : LedgerAppend)
  | consultation (view : EffectivePolicy) (question : Question)

/-- A runtime, with the consultations so far that returned a decision. -/
structure RuntimeHistory where
  runtime : GovernanceRuntime
  consultations : List Consultation

def answered (view : EffectivePolicy) (question : Question) :
    Except Refusal Outcome → List Consultation
  | .ok (.decision decision) => [⟨view, question, decision⟩]
  | _ => []

namespace RuntimeHistory

def start (storage : Storage) (store : PolicyStore) (ledger : GrantLedger) : RuntimeHistory where
  runtime := .new storage store ledger
  consultations := []

def performed (digest : Json → String) (history : RuntimeHistory) : RuntimeAction → RuntimeHistory
  | .author append =>
    { history with runtime := (append.call.on storePart).after history.runtime }
  | .admission requestId principal project =>
    { history with runtime := (admitRequest requestId principal project).after history.runtime }
  | .record append =>
    { history with runtime := (append.call.on ledgerPart).after history.runtime }
  | .consultation view question =>
    { runtime := (consult digest view question).after history.runtime
      consultations := history.consultations ++
        answered view question ((consult digest view question).outcome history.runtime) }

def run (digest : Json → String) (history : RuntimeHistory) (actions : List RuntimeAction) :
    RuntimeHistory :=
  actions.foldl (performed digest) history

def Traced (digest : Json → String) (history : RuntimeHistory) : Prop :=
  ∀ key decision, history.runtime.memo.get? key = some decision →
    ∃ consultation ∈ history.consultations, consultation.decision = decision ∧
      consultation.key digest = key ∧ Decided digest history.runtime consultation

theorem grows_performed (digest : Json → String) (history : RuntimeHistory) (action : RuntimeAction)
    : history.runtime.Grows (history.performed digest action).runtime := by
  cases action with
  | author append => exact ⟨.refl, fun _ _ ↦ id⟩
  | admission requestId principal project =>
    rw [performed, after_admitRequest]
    exact .refl _
  | record append =>
    exact ⟨.single ⟨history.runtime.storage, append, rfl⟩, fun _ _ ↦ id⟩
  | consultation view question =>
    rcases consult_cases digest history.runtime view question with
      ⟨-, -, hafter⟩ | ⟨slice, snapshot, snapshots, -, -, hkeeps, -, hafter⟩
    · rw [performed, hafter]
      exact .refl _
    · rw [performed, hafter]
      exact ⟨.refl, hkeeps⟩

theorem grows_run (digest : Json → String) (history : RuntimeHistory) (actions : List RuntimeAction)
    : history.runtime.Grows (history.run digest actions).runtime := by
  induction actions generalizing history with
  | nil => exact .refl _
  | cons action rest ih =>
    exact (history.grows_performed digest action).trans (ih (history.performed digest action))

theorem Traced.of_same {history next : RuntimeHistory} (htraced : history.Traced digest)
    (hgrows : history.runtime.Grows next.runtime) (hmemo : next.runtime.memo = history.runtime.memo)
    (hconsultations : ∀ consultation ∈ history.consultations,
      consultation ∈ next.consultations) : next.Traced digest := by
  intro key decision hnoted
  rw [hmemo] at hnoted
  obtain ⟨consultation, hconsultation, hdecision, hkey, hdecided⟩ := htraced key decision hnoted
  exact ⟨consultation, hconsultations _ hconsultation, hdecision, hkey, hdecided.grows hgrows⟩

theorem Traced.performed {history : RuntimeHistory} (htraced : history.Traced digest)
    (action : RuntimeAction) : (history.performed digest action).Traced digest := by
  have hgrows := history.grows_performed digest action
  cases action with
  | author append => exact htraced.of_same hgrows rfl fun _ ↦ id
  | admission requestId principal project =>
    refine htraced.of_same hgrows ?_ fun _ ↦ id
    rw [RuntimeHistory.performed, after_admitRequest]
  | record append => exact htraced.of_same hgrows rfl fun _ ↦ id
  | consultation view question =>
    by_cases houtcome : ∃ decision,
        (consult digest view question).outcome history.runtime = .ok (.decision decision)
    · obtain ⟨decision, houtcome⟩ := houtcome
      obtain ⟨snapshots, slice, snapshot, stamps, rfl, hkeeps, hkept, hslice, hinputs, hdefect,
        hmemo⟩ := consult_eq_decision houtcome
      rcases hmemo with ⟨-, hafter⟩ | ⟨hdecided, hafter⟩
      · refine htraced.of_same hgrows ?_ fun _ ↦ List.mem_append_left _
        rw [RuntimeHistory.performed, hafter]
      · -- the decision on a missed key is noted with its consultation
        intro key noted hnoted
        simp only [RuntimeHistory.performed, hafter, OrderedDict.get?_insert] at hnoted
        obtain ⟨-, hposition, -, -⟩ := stamps_of_decideQuestion hdecided
        split at hnoted
        · next hkey =>
          cases hnoted
          refine ⟨⟨view, question, decision⟩, ?_, rfl, ?_, snapshot, slice, ?_, ?_, ?_, ?_⟩
          · simp [RuntimeHistory.performed, houtcome, answered]
          · rw [← hkey]
            simp [Consultation.key, Consultation.stamps, hposition]
          · simpa [RuntimeHistory.performed, hafter] using hkept
          · simp [RuntimeHistory.performed, hafter, hposition]
          · simpa [RuntimeHistory.performed, hafter, hposition] using hslice
          · simpa [Consultation.stamps, hposition] using ⟨hinputs, hdefect, hdecided⟩
        · obtain ⟨consultation, hconsultation, hdecision, hkey, hold⟩ := htraced key noted hnoted
          exact ⟨consultation, List.mem_append_left _ hconsultation, hdecision, hkey,
            hold.grows hgrows⟩
    · obtain ⟨-, hmemo⟩ := after_consult_of_ne (not_exists.mp houtcome)
      exact htraced.of_same hgrows hmemo fun _ ↦ List.mem_append_left _

theorem Traced.start (storage : Storage) (store : PolicyStore) (ledger : GrantLedger) :
    (start storage store ledger).Traced digest := fun key decision hnoted ↦ by
  simp [RuntimeHistory.start, GovernanceRuntime.new] at hnoted

theorem traced_run {history : RuntimeHistory} (htraced : history.Traced digest)
    (actions : List RuntimeAction) : (history.run digest actions).Traced digest := by
  induction actions generalizing history with
  | nil => exact htraced
  | cons action rest ih => exact ih (htraced.performed action)

end RuntimeHistory

end AbsoluteZero.Governance

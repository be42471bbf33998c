import AbsoluteZero.Governance.FinalRules
import AbsoluteZero.Governance.RuntimeHistory

/-!
# The memo and replay

All views of a runtime share one memo, whose key does not hold the slice of the view. A decision of
the memo is the view's own one if the consultation that it was made at saw the same covering grant
(`decideQuestion_congr`); a request that was admitted again after a grant meets another one.
-/

namespace AbsoluteZero.Governance

open Foundations

variable {digest : Json → String}

def OpenAsk (snapshot : CompiledSnapshot) (question : Question) : Prop :=
  ∃ winner matched fallback, matchAndWin snapshot question.domain question.operation
      question.resource (factDict question.facts) = .ok (winner, matched, fallback) ∧
    winner.final = false ∧ winner.effect.kind = .requireApproval

variable {question : Question}

/-- A decision reads nothing of a slice but the covering grant of an open approval requirement. -/
theorem decideQuestion_congr {snapshot : CompiledSnapshot}
    {first second : List GrantRecord} (hgrant : OpenAsk snapshot question →
      coveringGrant first (askSignature digest question) =
        coveringGrant second (askSignature digest question)) (stamps : Stamps) :
    decideQuestion digest snapshot first question stamps =
      decideQuestion digest snapshot second question stamps := by
  cases hwon : matchAndWin snapshot question.domain question.operation question.resource
      (factDict question.facts) with
  | error interruption =>
    rw [decideQuestion, decideQuestion, hwon]
    rfl
  | ok won =>
    obtain ⟨winner, matched, fallback⟩ := won
    have hoverlay : grantOverlay digest first question winner =
        grantOverlay digest second question winner := by
      unfold grantOverlay
      by_cases hopen : winner.final = false ∧ winner.effect.kind = .requireApproval
      · rw [if_pos hopen, if_pos hopen, hgrant ⟨winner, matched, fallback, hwon, hopen⟩]
      · rw [if_neg hopen, if_neg hopen]
    rw [decideQuestion_of_won digest first hwon, decideQuestion_of_won digest second hwon, hoverlay]

/-- The view replays the decision from the stamps that it carries. -/
def Replays (digest : Json → String) (runtime : GovernanceRuntime) (consultation : Consultation) :
    Prop :=
  (replay digest consultation.view consultation.question consultation.decision.grantSlicePosition
    consultation.decision.evaluationRulesetVersion).outcome runtime =
      .ok (.decision consultation.decision)

variable {view : EffectivePolicy}

theorem outcome_replay {runtime : GovernanceRuntime} {position : Nat}
    {slice : List GrantRecord} {snapshot : CompiledSnapshot}
    (hslice : consultationSlice runtime.ledger view position = .ok slice)
    (hsnapshot : (snapshotFor digest view.snapshotVersion).outcome runtime = .ok snapshot)
    (question : Question) (rulesetVersion : Nat) :
    (replay digest view question position rulesetVersion).outcome runtime =
      (evaluate digest snapshot slice question ⟨view.snapshotVersion, position, rulesetVersion⟩
        none).1 := by
  unfold replay
  rw [Call.outcome_get_bind]
  simp only [hslice]
  rw [Call.outcome_bind]
  simp only [hsnapshot]
  split <;> next heq => exact heq.symm

theorem Decided.replays {runtime : GovernanceRuntime} {consultation : Consultation}
    (hdecided : Decided digest runtime consultation) : Replays digest runtime consultation := by
  obtain ⟨snapshot, slice, hkept, -, hslice, hinputs, hdefect, hdecision⟩ := hdecided
  obtain ⟨-, -, hruleset, -⟩ := stamps_of_decideQuestion hdecision
  unfold Replays
  rw [outcome_replay hslice (snapshotFor_of_kept digest runtime hkept).1, hruleset]
  exact (evaluate_of_wellFormed digest slice hinputs hdefect).trans
    (conclude_eq_decision.mpr hdecision)

def sampleProvenance (question : Question) : GrantProvenance where
  grantor := "bob"
  snapshotVersion := 1
  grantSlicePosition := 0
  evaluationRulesetVersion := 1
  questionHash := questionHash Json.repr question
  reason := "routine"

namespace RuntimeHistory

/-- Both views see the same covering grant for the question at the position. -/
def SameGrant (digest : Json → String) (ledger : GrantLedger) (position : Nat)
    (question : Question) (first second : EffectivePolicy) : Prop :=
  ∀ slice slice', consultationSlice ledger first position = .ok slice →
    consultationSlice ledger second position = .ok slice' →
      coveringGrant slice (askSignature digest question) =
        coveringGrant slice' (askSignature digest question)

/-- Earlier consultations under the key of this one were of the same question, and if it is an open
approval requirement they saw the same covering grant. -/
def Agrees (digest : Json → String) (history : RuntimeHistory) : RuntimeAction → Prop
  | .consultation view question =>
    ∀ earlier ∈ history.consultations,
      earlier.key digest = ⟨⟨view.snapshotVersion, history.runtime.ledger.position,
          currentEvaluationRulesetVersion⟩, questionHash digest question⟩ →
        earlier.question = question ∧
          ∀ snapshot, history.runtime.snapshots.get? view.snapshotVersion = some snapshot →
            OpenAsk snapshot question →
              SameGrant digest history.runtime.ledger history.runtime.ledger.position question
                earlier.view view
  | _ => True

variable {history : RuntimeHistory}

theorem agrees_of_unseen (hunseen : ∀ earlier ∈ history.consultations,
      earlier.key digest ≠ ⟨⟨view.snapshotVersion, history.runtime.ledger.position,
        currentEvaluationRulesetVersion⟩, questionHash digest question⟩) :
    history.Agrees digest (.consultation view question) :=
  fun earlier hearlier hkey ↦ absurd hkey (hunseen earlier hearlier)

/-- The memo comes from the consultations, and each of them is decided over the slice of its
view. -/
structure Replayable (digest : Json → String) (history : RuntimeHistory) : Prop where
  traced : history.Traced digest
  decided : ∀ consultation ∈ history.consultations, Decided digest history.runtime consultation

/-- A decision that a consultation returns is decided over the slice of its view, if the earlier
consultations agree. -/
theorem Replayable.decided_answer (hreplayable : history.Replayable digest)
    (hagrees : history.Agrees digest (.consultation view question)) {decision : Decision}
    (houtcome : (consult digest view question).outcome history.runtime = .ok (.decision decision)) :
    Decided digest ((consult digest view question).after history.runtime)
      ⟨view, question, decision⟩ := by
  obtain ⟨snapshots, slice, snapshot, stamps, rfl, hkeeps, hkept, hslice, hinputs, hdefect,
    hmemo⟩ := consult_eq_decision houtcome
  rcases hmemo with ⟨hnoted, hafter⟩ | ⟨hdecided, hafter⟩
  · obtain ⟨earlier, hearlier, rfl, hkey, hdecided⟩ := hreplayable.traced _ _ hnoted
    obtain ⟨rfl, hgrant⟩ := hagrees earlier hearlier hkey
    obtain ⟨snapshot', slice', hkept', -, hslice', -, -, hdecision⟩ := hdecided
    have hstamps : earlier.stamps = ⟨view.snapshotVersion, history.runtime.ledger.position,
      currentEvaluationRulesetVersion⟩ := congrArg MemoKey.stamps hkey
    have hversion : earlier.view.snapshotVersion = view.snapshotVersion :=
      congrArg Stamps.snapshotVersion hstamps
    have hposition : earlier.decision.grantSlicePosition = history.runtime.ledger.position :=
      congrArg Stamps.grantSlicePosition hstamps
    rw [hversion] at hkept'
    rw [hposition] at hslice'
    have hsame : snapshot' = snapshot :=
      Option.some.inj ((hkeeps _ _ hkept').symm.trans hkept)
    subst hsame
    have hsame : OpenAsk snapshot' earlier.question →
        coveringGrant slice' (askSignature digest earlier.question) =
          coveringGrant slice (askSignature digest earlier.question) := fun hopen ↦
      hgrant snapshot' hkept' hopen slice' slice hslice' hslice
    rw [decideQuestion_congr hsame, hstamps] at hdecision
    refine ⟨snapshot', slice, by rw [hafter]; exact hkept, ?_, ?_, ?_⟩
    · rw [hafter]
      exact hposition.le
    · rw [hafter, hposition]
      exact hslice
    · simpa only [Consultation.stamps, hposition] using ⟨hinputs, hdefect, hdecision⟩
  · obtain ⟨-, hposition, -, -⟩ := stamps_of_decideQuestion hdecided
    refine ⟨snapshot, slice, by rw [hafter]; exact hkept, ?_, ?_, ?_⟩
    · rw [hafter]
      exact hposition.le
    · rw [hafter, hposition]
      exact hslice
    · simpa only [Consultation.stamps, hposition] using ⟨hinputs, hdefect, hdecided⟩

theorem Replayable.performed (hreplayable : history.Replayable digest)
    {action : RuntimeAction} (hagrees : history.Agrees digest action) :
    (history.performed digest action).Replayable digest where
  traced := hreplayable.traced.performed action
  decided := by
    have hgrows := history.grows_performed digest action
    cases action with
    | consultation view question =>
      intro consultation hconsultation
      rcases List.mem_append.mp hconsultation with hold | hnew
      · exact (hreplayable.decided consultation hold).grows hgrows
      · cases houtcome : (consult digest view question).outcome history.runtime with
        | error refusal => simp [houtcome, answered] at hnew
        | ok outcome =>
          cases outcome with
          | illPosed verdict => simp [houtcome, answered] at hnew
          | decision decision =>
            simp only [houtcome, answered, List.mem_singleton] at hnew
            subst hnew
            exact hreplayable.decided_answer hagrees houtcome
    | _ => exact fun consultation hold ↦ (hreplayable.decided consultation hold).grows hgrows

/-- Assumes: at every consultation of the history the earlier ones under its key were of the same
question, and saw the same covering grant if the question is an open approval requirement. Then
every decision that a consultation returned replays, at the time and ever after. -/
theorem consultations_replay (digest : Json → String) (storage : Storage) (store : PolicyStore)
    (ledger : GrantLedger) (actions : List RuntimeAction)
    (hplan : IsPlan (performed digest) (Agrees digest) (start storage store ledger) actions) :
    ∀ consultation ∈ ((start storage store ledger).run digest actions).consultations,
      Replays digest ((start storage store ledger).run digest actions).runtime consultation := by
  have hreplayable := hplan.keeps (Replayable digest)
    (fun history action hagrees hhistory ↦ hhistory.performed hagrees)
    ⟨.start storage store ledger, nofun⟩
  exact fun consultation hconsultation ↦ (hreplayable.decided consultation hconsultation).replays

/-- A runtime whose policy asks for approval on every resource. -/
def askingStart : RuntimeHistory :=
  let desk := (activate (askingResult false false)).after (askingDesk false false)
  start desk.storage desk.store .new

def principalGrant (question : Question) : LedgerAppend :=
  .grant (askSignature Json.repr question) ⟨.principal, question.principal⟩
    (sampleProvenance question) none

def viewAt (position : Nat) : EffectivePolicy where
  snapshotVersion := 1
  admissionLedgerPosition := position
  requestId := "r1"
  principal := "alice"
  project := "core"

/-- The request consults, and consults again after a grant and a second admission. -/
def renewedActions : List RuntimeAction :=
  [.admission "r1" "alice" "core", .consultation (viewAt 0) (runQuestion "db" []),
    .record (principalGrant (runQuestion "db" [])), .admission "r1" "alice" "core",
    .consultation (viewAt 1) (runQuestion "db" [])]

theorem consultations_replay_sample :
    (askingStart.run Json.repr renewedActions).consultations.length = 2 ∧
      ∀ consultation ∈ (askingStart.run Json.repr renewedActions).consultations,
        Replays Json.repr (askingStart.run Json.repr renewedActions).runtime consultation := by
  refine ⟨by decide +kernel, consultations_replay Json.repr _ _ _ renewedActions
    ⟨trivial, ?_, trivial, trivial, ?_, trivial⟩⟩
  · exact agrees_of_unseen (by decide +kernel)
  · exact agrees_of_unseen (by decide +kernel)

/-- The two views of the request consult at one position. -/
def crossedActions : List RuntimeAction :=
  [.admission "r1" "alice" "core", .record (principalGrant (runQuestion "db" [])),
    .admission "r1" "alice" "core", .consultation (viewAt 0) (runQuestion "db" []),
    .consultation (viewAt 1) (runQuestion "db" [])]

/-- The first admission precedes the grant and the second follows it. Both views consult, the older
one first: the newer one is answered from the memo that approval is required, and its replay
allows. -/
theorem readmitted_view_misses_grant :
    ((admitRequest "r1" "alice" "core").outcome askingStart.runtime).toOption = some (viewAt 0) ∧
      ((admitRequest "r1" "alice" "core").outcome
        (askingStart.run Json.repr (crossedActions.take 2)).runtime).toOption = some (viewAt 1) ∧
      ((askingStart.run Json.repr crossedActions).consultations.map fun consultation ↦
        (consultation.view, consultation.decision.effect, effectOf ((replay Json.repr
          consultation.view consultation.question consultation.decision.grantSlicePosition
          consultation.decision.evaluationRulesetVersion).outcome
            (askingStart.run Json.repr crossedActions).runtime))) =
        [(viewAt 0, .requireApproval, some .requireApproval),
          (viewAt 1, .requireApproval, some .allow)] ∧
      ¬ ∀ consultation ∈ (askingStart.run Json.repr crossedActions).consultations,
        Replays Json.repr (askingStart.run Json.repr crossedActions).runtime consultation := by
  have heffects : ((askingStart.run Json.repr crossedActions).consultations.map
      fun consultation ↦ (consultation.view, consultation.decision.effect, effectOf ((replay
        Json.repr consultation.view consultation.question consultation.decision.grantSlicePosition
        consultation.decision.evaluationRulesetVersion).outcome
          (askingStart.run Json.repr crossedActions).runtime))) =
      [(viewAt 0, .requireApproval, some .requireApproval),
        (viewAt 1, .requireApproval, some .allow)] := by decide +kernel
  refine ⟨by decide +kernel, by decide +kernel, heffects, fun hreplays ↦ ?_⟩
  obtain ⟨consultation, hconsultation, heffect⟩ := List.mem_map.mp (heffects ▸
    List.mem_cons_of_mem _ (List.mem_singleton_self (viewAt 1, Effect.requireApproval,
      some Effect.allow)))
  have hreplay := hreplays consultation hconsultation
  rw [Replays] at hreplay
  rw [hreplay, effectOf] at heffect
  obtain ⟨-, hask, hallow⟩ := by simpa using heffect
  rw [hask] at hallow
  cases hallow

end RuntimeHistory

end AbsoluteZero.Governance

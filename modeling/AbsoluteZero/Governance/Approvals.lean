import AbsoluteZero.Governance.MemoReplay

/-!
# The approval door

`route_approval` appends a grant that is scoped to the request of the view and has the signature
that the decision asks for. Of the stamps of the decision it compares the snapshot version with the
view and no other, so a request is also granted what another one asked for under the same snapshot.
-/

namespace AbsoluteZero.Governance

open Foundations List

variable {digest : Json → String}

namespace RuntimeHistory

/-- The signature that a decision asks for is that of a question of the history, with the hash of
the question that it was returned on. -/
def Signed (digest : Json → String) (history : RuntimeHistory) : Prop :=
  ∀ consultation ∈ history.consultations, ∃ origin ∈ history.consultations,
    questionHash digest origin.question = questionHash digest consultation.question ∧
      ∀ signature ∈ consultation.decision.askSignature,
        signature = askSignature digest origin.question

theorem signature_of_decideQuestion {snapshot : CompiledSnapshot} {slice : List GrantRecord}
    {question : Question} {stamps : Stamps} {decision : Decision}
    (hdecided : decideQuestion digest snapshot slice question stamps = .ok decision) :
    ∀ signature ∈ decision.askSignature, signature = askSignature digest question := by
  obtain ⟨winner, matched, fallback, constraints, rfl⟩ := exists_of_decideQuestion hdecided
  intro signature hsignature
  unfold assembleDecision at hsignature
  split at hsignature
  · exact (Option.mem_some.mp hsignature).symm
  · cases hsignature

theorem Signed.performed {history : RuntimeHistory} (hsigned : history.Signed digest)
    (htraced : history.Traced digest) (action : RuntimeAction) :
    (history.performed digest action).Signed digest := by
  cases action with
  | consultation view question =>
    intro consultation hconsultation
    rcases mem_append.mp hconsultation with hold | hnew
    · obtain ⟨origin, horigin, hsame⟩ := hsigned consultation hold
      exact ⟨origin, mem_append_left _ horigin, hsame⟩
    · cases houtcome : (consult digest view question).outcome history.runtime with
      | error refusal => simp [houtcome, answered] at hnew
      | ok outcome =>
        cases outcome with
        | illPosed verdict => simp [houtcome, answered] at hnew
        | decision decision =>
          obtain ⟨snapshots, slice, snapshot, stamps, -, -, -, -, -, -, hmemo⟩ :=
            consult_eq_decision houtcome
          rw [houtcome] at hnew
          rcases hmemo with ⟨hnoted, -⟩ | ⟨hdecided, -⟩
          · obtain ⟨origin, horigin, hdecision, hkey, _, _, -, -, -, -, -, hdecided⟩ :=
              htraced _ _ hnoted
            obtain rfl := mem_singleton.mp hnew
            refine ⟨origin, mem_append_left _ horigin, congrArg MemoKey.questionHash hkey, ?_⟩
            exact hdecision ▸ signature_of_decideQuestion hdecided
          · refine ⟨consultation, hconsultation, rfl, ?_⟩
            obtain rfl := mem_singleton.mp hnew
            exact signature_of_decideQuestion hdecided
  | _ => exact hsigned

theorem signed_run {history : RuntimeHistory} (hsigned : history.Signed digest)
    (htraced : history.Traced digest) (actions : List RuntimeAction) :
    (history.run digest actions).Signed digest := by
  induction actions generalizing history with
  | nil => exact hsigned
  | cons action rest ih => exact ih (hsigned.performed htraced action) (htraced.performed action)

/-- A consultation through a view of the request returned the decision. -/
def Asked (history : RuntimeHistory) (requestId : String) (decision : Decision) : Prop :=
  ∃ consultation ∈ history.consultations,
    consultation.view.requestId = requestId ∧ consultation.decision = decision

end RuntimeHistory

/-! ### Routing -/

def Asks (view : EffectivePolicy) (decision : Decision) : Prop :=
  decision.snapshotVersion = view.snapshotVersion ∧ decision.effect.kind = .requireApproval ∧
    decision.askSignature.isSome

variable {view : EffectivePolicy} {decision : Decision} {grantor reason : String}
  {bound : Option Condition}

theorem routeApproval_of_not_asks (hasks : ¬ Asks view decision) :
    ∃ text, routeApproval view decision grantor reason bound = throw ⟨.approvalRouting, text⟩ := by
  unfold routeApproval checkRoutable
  by_cases hversion : decision.snapshotVersion = view.snapshotVersion
  · rw [if_neg (not_not_intro hversion)]
    simp only
    split
    · next signature hkind hsignature =>
      exact absurd ⟨hversion, hkind, Option.isSome_of_eq_some hsignature⟩ hasks
    · exact ⟨_, rfl⟩
  · rw [if_pos hversion]
    exact ⟨_, rfl⟩

theorem routeApproval_of_asks (hasks : Asks view decision) (runtime : GovernanceRuntime) :
    (∃ kind text, kind ≠ .approvalRouting ∧
      (routeApproval view decision grantor reason bound).outcome runtime = .error ⟨kind, text⟩) ∨
    ∃ record, (routeApproval view decision grantor reason bound).outcome runtime = .ok record ∧
      record.scope = ⟨.request, view.requestId⟩ ∧ decision.askSignature = some record.askSignature ∧
      ((routeApproval view decision grantor reason bound).after runtime).ledger.records =
        runtime.ledger.records ++ [record] := by
  obtain ⟨hversion, hkind, hsome⟩ := hasks
  obtain ⟨signature, hsignature⟩ := Option.isSome_iff_exists.mp hsome
  unfold routeApproval checkRoutable
  rw [if_neg (not_not_intro hversion), hkind, hsignature]
  simp only
  by_cases hempty : view.requestId = ""
  · rw [if_pos hempty]
    exact .inl ⟨.malformedGrantAppend, _, nofun, rfl⟩
  rw [if_neg hempty]
  cases hprovenance : provenanceFromDecision decision grantor reason with
  | error refusal =>
    unfold provenanceFromDecision at hprovenance
    split at hprovenance
    · cases hprovenance
      exact .inl ⟨.malformedGrantAppend, _, nofun, rfl⟩
    · cases hprovenance
  | ok provenance =>
    simp only [Call.after_on, Call.outcome_on, after_appendGrant]
    unfold appendGrant
    rw [Call.outcome_get_bind]
    by_cases hsigned : signature = ""
    · rw [if_pos hsigned]
      exact .inl ⟨.malformedGrantAppend, _, nofun, rfl⟩
    · rw [if_neg hsigned, if_neg hsigned, outcome_applyRecord]
      unfold LedgerDesk.recorded
      cases hanswer : (ledgerPart.read runtime).storage.answer with
      | rejected => exact .inl ⟨.ledgerAppendRejected, _, nofun, rfl⟩
      | committed => exact .inr ⟨_, rfl, rfl, rfl, rfl⟩

/-- What an approval may do: it grants the request of the view what a consultation of that request
asked, and without such a consultation it is refused. -/
structure RoutesOwn (digest : Json → String) (history : RuntimeHistory) (view : EffectivePolicy)
    (decision : Decision) (route : RuntimeCall LedgerRecord) : Prop where
  own : ∀ record, route.outcome history.runtime = .ok record →
    ∃ consultation ∈ history.consultations, consultation.view.requestId = view.requestId ∧
      consultation.decision = decision ∧ record.scope = ⟨.request, view.requestId⟩ ∧
      record.askSignature = askSignature digest consultation.question ∧
      (route.after history.runtime).ledger.records = history.runtime.ledger.records ++ [record]
  foreign : ¬ history.Asked view.requestId decision →
    (∃ text, route.outcome history.runtime = .error ⟨.approvalRouting, text⟩) ∧
      route.after history.runtime = history.runtime

/-- No two questions of the history have one hash and different signatures. -/
def RuntimeHistory.CollisionFree (digest : Json → String) (history : RuntimeHistory) : Prop :=
  ∀ first ∈ history.consultations, ∀ second ∈ history.consultations,
    questionHash digest first.question = questionHash digest second.question →
      askSignature digest first.question = askSignature digest second.question

/-- Assumes: the question hashes of the history do not collide. A decision is routed to the request
that asked, or refused, exactly if it does not ask under the snapshot of the view or a consultation
of the request returned it. -/
theorem routes_own_iff (storage : Storage) (store : PolicyStore) (ledger : GrantLedger)
    (actions : List RuntimeAction) (view : EffectivePolicy) (decision : Decision)
    (grantor reason : String) (bound : Option Condition) :
    let history := (RuntimeHistory.start storage store ledger).run digest actions
    history.CollisionFree digest →
      (RoutesOwn digest history view decision (routeApproval view decision grantor reason bound) ↔
        (Asks view decision → history.Asked view.requestId decision)) := by
  intro history hfree
  have hsigned : history.Signed digest :=
    RuntimeHistory.signed_run (fun _ hmem ↦ absurd hmem not_mem_nil)
      (.start storage store ledger) actions
  constructor
  · intro hroutes hasks
    by_contra hnot
    obtain ⟨⟨text, hrefused⟩, -⟩ := hroutes.foreign hnot
    rcases routeApproval_of_asks hasks history.runtime with
      ⟨kind, text, hkind, herror⟩ | ⟨_, hrecord, -⟩
    · rw [hrefused] at herror
      cases herror
      exact hkind rfl
    · rw [hrefused] at hrecord
      cases hrecord
  · intro hasked
    refine ⟨fun record hrecord ↦ ?_, fun hnot ↦ ?_⟩
    · have hasks : Asks view decision := by
        by_contra hnot
        obtain ⟨text, hroute⟩ := routeApproval_of_not_asks hnot
        rw [hroute] at hrecord
        cases hrecord
      rcases routeApproval_of_asks hasks history.runtime with
        ⟨kind, text, -, herror⟩ | ⟨other, hother, hscope, hsignature, hrecords⟩
      · rw [hrecord] at herror
        cases herror
      · rw [hrecord] at hother
        cases hother
        obtain ⟨consultation, hmem, hrequest, rfl⟩ := hasked hasks
        obtain ⟨origin, horigin, hhash, hsame⟩ := hsigned consultation hmem
        refine ⟨consultation, hmem, hrequest, rfl, hscope, ?_, hrecords⟩
        rw [hsame _ hsignature, hfree origin horigin consultation hmem hhash]
    · obtain ⟨text, hroute⟩ := routeApproval_of_not_asks fun hasks ↦ hnot (hasked hasks)
      rw [hroute]
      exact ⟨⟨text, rfl⟩, rfl⟩

/-- A request has consulted on a question that needs an approval. -/
def askedHistory : RuntimeHistory :=
  RuntimeHistory.askingStart.run Json.repr
    [.admission "r1" "alice" "core", .consultation (RuntimeHistory.viewAt 0) (runQuestion "db" [])]

/-- The view of another request under the same snapshot. -/
def otherView : EffectivePolicy := { RuntimeHistory.viewAt 0 with requestId := "r2" }

theorem routes_own_sample : askedHistory.CollisionFree Json.repr ∧ ∀ decision,
    RoutesOwn Json.repr askedHistory otherView decision
        (routeApproval otherView decision "bob" "ok" none) ↔
      (Asks otherView decision → askedHistory.Asked "r2" decision) := by
  have hquestion : ∀ consultation ∈ askedHistory.consultations,
      consultation.question = runQuestion "db" [] := by decide +kernel
  have hfree : askedHistory.CollisionFree Json.repr := fun first hfirst second hsecond _ ↦ by
    rw [hquestion first hfirst, hquestion second hsecond]
  exact ⟨hfree, fun decision ↦ routes_own_iff _ _ _ _ otherView decision _ _ none hfree⟩

/-- The decision on the question of one request is routed to the other one. -/
theorem routed_to_other : ∃ decision, askedHistory.Asked "r1" decision ∧
    ¬ RoutesOwn Json.repr askedHistory otherView decision
      (routeApproval otherView decision "bob" "ok" none) := by
  have hrequest : ∀ consultation ∈ askedHistory.consultations,
      consultation.view.requestId = "r1" := by decide +kernel
  have hrouted : ∃ consultation ∈ askedHistory.consultations,
      ((routeApproval otherView consultation.decision "bob" "ok" none).outcome
        askedHistory.runtime).toOption.isSome := by decide +kernel
  obtain ⟨consultation, hmem, hsome⟩ := hrouted
  refine ⟨consultation.decision, ⟨consultation, hmem, hrequest _ hmem, rfl⟩, fun hroutes ↦ ?_⟩
  have hother : ¬ askedHistory.Asked otherView.requestId consultation.decision := by
    rintro ⟨other, hother, hsame, -⟩
    rw [hrequest other hother] at hsame
    exact absurd hsame (by decide)
  obtain ⟨⟨text, hrefused⟩, -⟩ := hroutes.foreign hother
  rw [hrefused] at hsome
  cases hsome

end AbsoluteZero.Governance

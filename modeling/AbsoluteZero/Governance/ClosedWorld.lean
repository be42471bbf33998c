import AbsoluteZero.Governance.MemoReplay

/-!
# The closed world of a running request

After its admission a request sees the records that were there, and of the later ones those that are
scoped to it (`consultationSlice_of_reaches`). Two later ledgers with the same records of the
request therefore give it the same decisions, up to the ids of the records
(`EffectivePolicy.closed_world`).
-/

namespace AbsoluteZero.Governance

open Foundations List RuntimeHistory

variable {digest : Json → String}

/-- The question evaluated at the current position of a ledger, without a memo. -/
def memoFreeConsultation (digest : Json → String) (snapshot : CompiledSnapshot)
    (ledger : GrantLedger) (policy : EffectivePolicy) (question : Question) :
    Except Refusal Outcome :=
  match consultationSlice ledger policy ledger.position with
  | .error refusal => .error refusal
  | .ok slice => (evaluate digest snapshot slice question
      ⟨policy.snapshotVersion, ledger.position, currentEvaluationRulesetVersion⟩ none).1

namespace EffectivePolicy

def scopes (policy : EffectivePolicy) : List ScopeBinding :=
  [⟨.request, policy.requestId⟩, ⟨.principal, policy.principal⟩, ⟨.project, policy.project⟩]

/-- The records of the ledger at admission that are in a scope of the request. -/
def standingRecords (policy : EffectivePolicy) (baseline : GrantLedger) : List LedgerRecord :=
  baseline.records.filter fun record ↦ record.scope ∈ policy.scopes

/-- The records after the admission that are scoped to the request. -/
def ownRecords (policy : EffectivePolicy) (ledger : GrantLedger) : List LedgerRecord :=
  ledger.records.filter fun record ↦ policy.admissionLedgerPosition < record.position ∧
    record.scope = ⟨.request, policy.requestId⟩

end EffectivePolicy

variable {policy : EffectivePolicy}

theorem resolverAdmit_eq_ok {active : Option Nat} {ledger : GrantLedger}
    {requestId principal project : String}
    (hadmitted : resolverAdmit active ledger requestId principal project = .ok policy) :
    checkBinding policy = none ∧ policy.admissionLedgerPosition = ledger.position := by
  unfold resolverAdmit at hadmitted
  cases hnames : emptyName? requestId principal project with
  | some label => simp [hnames] at hadmitted
  | none =>
    cases active with
    | none => simp [hnames] at hadmitted
    | some version =>
      simp only [hnames] at hadmitted
      split at hadmitted
      · cases hadmitted
      · next hversion =>
        cases hadmitted
        simp [checkBinding, hversion, hnames]

section Seen

variable {active : Option Nat} {baseline ledger : GrantLedger}
  {requestId principal project : String}
  {policy : EffectivePolicy}

theorem ownRecords_eq (hbaseline : baseline.Sound)
    (hadmission : policy.admissionLedgerPosition = baseline.position) {more : List LedgerRecord}
    (hrecords : ledger.records = baseline.records ++ more) :
    policy.ownRecords ledger = more.filter fun record ↦
      policy.admissionLedgerPosition < record.position ∧
        record.scope = ⟨.request, policy.requestId⟩ := by
  have hnone : baseline.records.filter (fun record ↦
      policy.admissionLedgerPosition < record.position ∧
        record.scope = ⟨.request, policy.requestId⟩) = [] := by
    refine filter_eq_nil_iff.mpr fun record hrecord ↦ ?_
    have hposition := (hbaseline.mem_range hrecord).2
    simp [hadmission, not_lt.mpr hposition]
  rw [EffectivePolicy.ownRecords, hrecords, filter_append, hnone, nil_append]

/-- Assumes: the request is admitted at the baseline. In every later ledger it sees the standing
records and its own ones. -/
theorem consultationSlice_of_reaches (hbaseline : baseline.Sound)
    (hadmitted : resolverAdmit active baseline requestId principal project = .ok policy)
    (hreaches : baseline.Reaches ledger) : consultationSlice ledger policy ledger.position =
      .ok ((policy.standingRecords baseline ++ policy.ownRecords ledger).map projectRecord) := by
  obtain ⟨hbinding, hadmission⟩ := resolverAdmit_eq_ok hadmitted
  obtain ⟨more, hrecords, hafter⟩ := hreaches.records_eq
  have hsound := hreaches.sound hbaseline
  have hreached : ¬ ledger.position < policy.admissionLedgerPosition := by
    rw [hadmission]
    exact not_lt.mpr hreaches.position_le
  have hstanding : baseline.records.filter (fun record ↦ visible policy record &&
      decide (record.position ≤ ledger.position ∧ record.scope ∈ policy.scopes)) =
        policy.standingRecords baseline := by
    refine filter_congr fun record hrecord ↦ ?_
    have hposition := (hbaseline.mem_range hrecord).2
    simp [visible, hadmission, hposition, hposition.trans hreaches.position_le]
  have hown : more.filter (fun record ↦ visible policy record &&
      decide (record.position ≤ ledger.position ∧ record.scope ∈ policy.scopes)) =
        policy.ownRecords ledger := by
    rw [ownRecords_eq hbaseline hadmission hrecords]
    refine filter_congr fun record hrecord ↦ ?_
    have hposition := hafter record hrecord
    have hend := (hsound.mem_range (hrecords ▸ mem_append_right _ hrecord)).2
    rcases hscope : record.scope with ⟨kind, subject⟩
    cases kind <;>
      simp [visible, hadmission, hposition, not_le.mpr hposition, hend, hscope,
        EffectivePolicy.scopes]
  unfold consultationSlice
  rw [hbinding]
  simp only [if_neg hreached, GrantLedger.slice, filter_filter]
  rw [hrecords, filter_append]
  exact congrArg (fun records ↦ Except.ok (records.map projectRecord))
    (congrArg₂ (· ++ ·) hstanding hown)

end Seen

/-! ### Outcomes at another position -/

variable (rename : String → String)

def TraceStep.restamped (position : Nat) : TraceStep → TraceStep
  | .grant grantId _ overrode => .grant (rename grantId) position overrode
  | step => step

/-- The decision with another position stamp, its grant under another id. -/
def Decision.restamped (rename : String → String) (position : Nat) (decision : Decision) :
    Decision :=
  { decision with
    explanation := decision.explanation.map (TraceStep.restamped rename position)
    grantSlicePosition := position }

def IllPosedVerdict.restamped (position : Nat) (verdict : IllPosedVerdict) : IllPosedVerdict :=
  { verdict with grantSlicePosition := position }

/-- The outcome with another position stamp, the grant of a decision under another id. -/
def Outcome.restamped (rename : String → String) (position : Nat) : Outcome → Outcome
  | .decision made => .decision (made.restamped rename position)
  | .illPosed verdict => .illPosed (verdict.restamped position)

def GrantRecord.renamed (record : GrantRecord) : GrantRecord :=
  { record with grantId := rename record.grantId }

section Renaming

variable (rename : String → String) {slice : List GrantRecord} {snapshot : CompiledSnapshot}
  {question : Question} {stamps : Stamps} (position : Nat)

theorem coveringGrant_renamed (hinjective : ∀ first ∈ slice, ∀ second ∈ slice,
      rename first.grantId = rename second.grantId → first.grantId = second.grantId)
    (signature : String) : coveringGrant (slice.map (GrantRecord.renamed rename)) signature =
      (coveringGrant slice signature).map (GrantRecord.renamed rename) := by
  have hrevoked : ∀ record ∈ slice,
      (record.renamed rename).grantId ∈ (((slice.map (GrantRecord.renamed rename)).filter
          fun record ↦ record.kind = .revocation).map GrantRecord.grantId) ↔
        record.grantId ∈ (slice.filter fun record ↦ record.kind = .revocation).map
          GrantRecord.grantId := by
    intro record hrecord
    simp only [mem_map, mem_filter, decide_eq_true_eq]
    constructor
    · rintro ⟨-, ⟨⟨other, hother, rfl⟩, hkind⟩, hid⟩
      exact ⟨other, ⟨hother, hkind⟩, hinjective other hother record hrecord hid⟩
    · rintro ⟨other, ⟨hother, hkind⟩, hid⟩
      exact ⟨other.renamed rename, ⟨⟨other, hother, rfl⟩, hkind⟩, congrArg rename hid⟩
  unfold coveringGrant
  dsimp only
  rw [← head?_map, filter_map]
  congr 2
  refine filter_congr fun record hrecord ↦ ?_
  simp only [Function.comp_apply, hrevoked record hrecord]
  rfl

theorem checkInputs_restamped :
    checkInputs { stamps with grantSlicePosition := position } = checkInputs stamps := rfl

theorem questionDefect_restamped :
    questionDefect snapshot question { stamps with grantSlicePosition := position } =
      (questionDefect snapshot question stamps).map (IllPosedVerdict.restamped position) := by
  unfold questionDefect
  cases rebuildQuestion question with
  | error text => rfl
  | ok rebuilt =>
    simp only [apply_ite (Option.map (IllPosedVerdict.restamped position)), Option.map_some,
      Option.map_none]
    rfl

section

variable
  (hinjective : ∀ first ∈ slice, ∀ second ∈ slice, rename first.grantId = rename second.grantId →
    first.grantId = second.grantId)

include hinjective

/-- Assumes: the renaming is injective on the ids of the slice. Then the decision over the renamed
slice at another position is the decision over the slice, restamped. -/
theorem decideQuestion_renamed :
    decideQuestion digest snapshot (slice.map (GrantRecord.renamed rename)) question
        { stamps with grantSlicePosition := position } =
      (decideQuestion digest snapshot slice question stamps).map
        (Decision.restamped rename position) := by
  cases hwon : matchAndWin snapshot question.domain question.operation question.resource
      (factDict question.facts) with
  | error interruption =>
    rw [decideQuestion, decideQuestion, hwon]
    rfl
  | ok won =>
    obtain ⟨winner, matched, fallback⟩ := won
    rw [decideQuestion_of_won digest _ hwon, decideQuestion_of_won digest _ hwon]
    have hoverlay : grantOverlay digest (slice.map (GrantRecord.renamed rename)) question winner =
        (grantOverlay digest slice question winner).map (GrantRecord.renamed rename) := by
      unfold grantOverlay
      split
      · exact coveringGrant_renamed rename hinjective _
      · rfl
    rw [hoverlay]
    have heffect : decidedEffect winner
        ((grantOverlay digest slice question winner).map (GrantRecord.renamed rename)) =
          decidedEffect winner (grantOverlay digest slice question winner) := by
      simp [decidedEffect]
    rw [heffect]
    cases attachConstraints snapshot question
        (decidedEffect winner (grantOverlay digest slice question winner)) with
    | error interruption => rfl
    | ok constraints =>
      have hunchanged : TraceStep.restamped rename position ∘ (fun constraint : BindingConstraint ↦
          TraceStep.constraint constraint.domain constraint.value constraint.citation) =
            fun constraint ↦ .constraint constraint.domain constraint.value constraint.citation :=
        rfl
      cases hgrant : grantOverlay digest slice question winner <;>
        simp [Except.map, assembleDecision, Decision.restamped, TraceStep.restamped, decidedEffect,
          GrantRecord.renamed, hunchanged]

theorem evaluate_renamed
    (stamps : Stamps) : (evaluate digest snapshot (slice.map (GrantRecord.renamed rename)) question
        { stamps with grantSlicePosition := position } none).1 =
      (evaluate digest snapshot slice question stamps none).1.map
        (Outcome.restamped rename position) := by
  cases hinputs : checkInputs stamps with
  | some refusal => simp [evaluate, hinputs, checkInputs_restamped, Except.map]
  | none =>
    have hinputs' : checkInputs { stamps with grantSlicePosition := position } = none := hinputs
    cases hdefect : questionDefect snapshot question stamps with
    | some verdict =>
      simp [evaluate, hinputs, hinputs', hdefect, questionDefect_restamped, Except.map,
        Outcome.restamped]
    | none =>
      have hdefect' : questionDefect snapshot question
          { stamps with grantSlicePosition := position } = none := by
        rw [questionDefect_restamped, hdefect]
        rfl
      rw [evaluate_of_wellFormed digest _ hinputs hdefect,
        evaluate_of_wellFormed digest _ hinputs' hdefect',
        decideQuestion_renamed rename position hinjective]
      cases decideQuestion digest snapshot slice question stamps with
      | ok decision => rfl
      | error interruption => cases interruption <;> rfl

end

end Renaming

def LedgerRecord.renamed (record : LedgerRecord) : LedgerRecord :=
  { record with
    recordId := rename record.recordId
    revokedGrantId := record.revokedGrantId.map rename }

/-- What the record says, wherever it stands. -/
def LedgerRecord.unplaced (record : LedgerRecord) : LedgerRecord := { record with position := 0 }

namespace EffectivePolicy

/-- The records of the request are the same in both ledgers, up to their positions and a renaming
of their ids. -/
def SameOwnRecords (policy : EffectivePolicy) (first second : GrantLedger) : Prop :=
  (policy.ownRecords second).map LedgerRecord.unplaced =
    (policy.ownRecords first).map fun record ↦ (record.renamed rename).unplaced

end EffectivePolicy

section TwoLedgers

variable {active : Option Nat} {baseline first second ledger : GrantLedger}
  {requestId principal project : String} {policy : EffectivePolicy} {rename : String → String}

section

variable (hbaseline : baseline.Sound)

include hbaseline

section

variable (hadmission : policy.admissionLedgerPosition = baseline.position)

include hadmission

/-- What a record of the slice grants or revokes is a record of the baseline or of the request. -/
theorem exists_named_of_seen (hreaches : baseline.Reaches ledger) {record : LedgerRecord}
    (hrecord : record ∈ policy.standingRecords baseline ++ policy.ownRecords ledger) :
    ∃ named ∈ baseline.records ++ policy.ownRecords ledger,
      (projectRecord record).grantId = named.recordId ∧
        (record ∈ baseline.records → named ∈ baseline.records) ∧
        (record.kind = .revocation → record.revokedGrantId = some named.recordId) := by
  have hsound := hreaches.sound hbaseline
  cases hkind : record.kind with
  | grant =>
    have hid : (projectRecord record).grantId = record.recordId := by simp [projectRecord, hkind]
    refine ⟨record, ?_, hid, id, nofun⟩
    rcases mem_append.mp hrecord with hstanding | hown
    · exact mem_append_left _ (mem_filter.mp hstanding).1
    · exact mem_append_right _ hown
  | revocation =>
    have hid : ∀ granted : LedgerRecord, record.revokedGrantId = some granted.recordId →
        (projectRecord record).grantId = granted.recordId := fun granted hrevoked ↦ by
      simp [projectRecord, hkind, hrevoked]
    by_cases hold : record ∈ baseline.records
    · obtain ⟨granted, hgranted, -, hrevoked, -, -⟩ := hbaseline.revokes record hold hkind
      exact ⟨granted, mem_append_left _ hgranted, hid granted hrevoked, fun _ ↦ hgranted,
        fun _ ↦ hrevoked⟩
    · have hown : record ∈ policy.ownRecords ledger := by
        refine (mem_append.mp hrecord).resolve_left fun hstanding ↦ ?_
        exact hold (mem_filter.mp hstanding).1
      obtain ⟨hmem, hcondition⟩ := mem_filter.mp hown
      obtain ⟨-, hscope⟩ := of_decide_eq_true hcondition
      obtain ⟨granted, hgranted, -, hrevoked, hinherited, -⟩ := hsound.revokes record hmem hkind
      refine ⟨granted, ?_, hid granted hrevoked, fun hold' ↦ absurd hold' hold, fun _ ↦ hrevoked⟩
      -- the revoked grant has the scope of the revocation
      obtain ⟨more, hrecords, hafter⟩ := hreaches.records_eq
      rcases mem_append.mp (hrecords ▸ hgranted) with hstanding | hlater
      · exact mem_append_left _ hstanding
      · refine mem_append_right _ (mem_filter.mpr ⟨hgranted, decide_eq_true ⟨?_, ?_⟩⟩)
        · rw [hadmission]
          exact hafter granted hlater
        · rw [← hinherited, hscope]

theorem injective_on_named (hsecond : baseline.Reaches second)
    (hfixed : ∀ record ∈ baseline.records, rename record.recordId = record.recordId)
    (hsame : policy.SameOwnRecords rename first second) :
    ∀ record ∈ baseline.records ++ policy.ownRecords first,
      ∀ other ∈ baseline.records ++ policy.ownRecords first,
        rename record.recordId = rename other.recordId → record = other := by
  have hown : (policy.ownRecords first).map (rename ∘ LedgerRecord.recordId) =
      (policy.ownRecords second).map LedgerRecord.recordId := by
    have hids := congrArg (List.map LedgerRecord.recordId) hsame
    rw [map_map, map_map] at hids
    exact hids.symm
  have hstanding : baseline.records.map (rename ∘ LedgerRecord.recordId) =
      baseline.records.map LedgerRecord.recordId :=
    map_congr_left hfixed
  have hnodup : ((baseline.records ++ policy.ownRecords first).map
      (rename ∘ LedgerRecord.recordId)).Nodup := by
    obtain ⟨more, hrecords, -⟩ := hsecond.records_eq
    have hsublist : (baseline.records ++ policy.ownRecords second).Sublist second.records := by
      rw [hrecords, ownRecords_eq hbaseline hadmission hrecords]
      exact filter_sublist.append_left _
    rw [map_append, hstanding, hown, ← map_append]
    exact (hsublist.map _).nodup (hsecond.sound hbaseline).nodup_recordId
  exact fun record hrecord other hother hid ↦
    inj_on_of_nodup_map hnodup hrecord hother hid

theorem slice_renamed (hfirst : baseline.Reaches first)
    (hfixed : ∀ record ∈ baseline.records, rename record.recordId = record.recordId)
    (hsame : policy.SameOwnRecords rename first second) :
    (policy.standingRecords baseline ++ policy.ownRecords second).map projectRecord =
      ((policy.standingRecords baseline ++ policy.ownRecords first).map projectRecord).map
        (GrantRecord.renamed rename) := by
  have hproject : ∀ record ∈ policy.ownRecords first,
      projectRecord (record.renamed rename).unplaced = (projectRecord record).renamed rename := by
    intro record hrecord
    obtain ⟨named, -, -, -, hrevoked⟩ := exists_named_of_seen hbaseline hadmission hfirst
      (mem_append_right _ hrecord)
    cases hkind : record.kind with
    | grant =>
      simp [projectRecord, LedgerRecord.unplaced, LedgerRecord.renamed, GrantRecord.renamed, hkind]
    | revocation =>
      simp [projectRecord, LedgerRecord.unplaced, LedgerRecord.renamed, GrantRecord.renamed, hkind,
        hrevoked hkind]
  have hown : (policy.ownRecords second).map projectRecord =
      ((policy.ownRecords first).map projectRecord).map (GrantRecord.renamed rename) := by
    have hids := congrArg (List.map projectRecord) hsame
    rw [map_map, map_map] at hids
    rw [map_map]
    exact hids.trans (map_congr_left hproject)
  have hstanding : ((policy.standingRecords baseline).map projectRecord).map
      (GrantRecord.renamed rename) = (policy.standingRecords baseline).map projectRecord := by
    rw [map_map]
    refine map_congr_left fun record hrecord ↦ ?_
    obtain ⟨named, -, hid, hold, -⟩ := exists_named_of_seen hbaseline hadmission hfirst
      (mem_append_left _ hrecord)
    have hkept := hfixed named (hold (mem_filter.mp hrecord).1)
    rw [Function.comp_apply, GrantRecord.renamed, hid, hkept, ← hid]
  rw [map_append, map_append, map_append, hown, hstanding]

end

theorem memoFreeConsultation_renamed
    (hadmitted : resolverAdmit active baseline requestId principal project = .ok policy)
    (hfirst : baseline.Reaches first) (hsecond : baseline.Reaches second)
    (hfixed : ∀ record ∈ baseline.records, rename record.recordId = record.recordId)
    (hsame : policy.SameOwnRecords rename first second) (snapshot : CompiledSnapshot)
    (question : Question) : memoFreeConsultation digest snapshot second policy question =
      (memoFreeConsultation digest snapshot first policy question).map
        (Outcome.restamped rename second.position) := by
  have hadmission := (resolverAdmit_eq_ok hadmitted).2
  have hinjective : ∀ one ∈ (policy.standingRecords baseline ++
      policy.ownRecords first).map projectRecord, ∀ other ∈ (policy.standingRecords baseline ++
        policy.ownRecords first).map projectRecord,
      rename one.grantId = rename other.grantId → one.grantId = other.grantId := by
    intro one hone other hother hid
    obtain ⟨record, hrecord, rfl⟩ := mem_map.mp hone
    obtain ⟨record', hrecord', rfl⟩ := mem_map.mp hother
    obtain ⟨named, hnamed, heq, -, -⟩ :=
      exists_named_of_seen hbaseline hadmission hfirst hrecord
    obtain ⟨named', hnamed', heq', -, -⟩ :=
      exists_named_of_seen hbaseline hadmission hfirst hrecord'
    rw [heq, heq'] at hid ⊢
    exact congrArg LedgerRecord.recordId (injective_on_named hbaseline hadmission hsecond hfixed
      hsame named hnamed named' hnamed' hid)
  unfold memoFreeConsultation
  rw [consultationSlice_of_reaches hbaseline hadmitted hfirst,
    consultationSlice_of_reaches hbaseline hadmitted hsecond,
    slice_renamed hbaseline hadmission hfirst hfixed hsame]
  exact evaluate_renamed rename second.position hinjective
    ⟨policy.snapshotVersion, first.position, currentEvaluationRulesetVersion⟩

end

end TwoLedgers

/-! ### Revoked grants -/

def Decision.Uses (decision : Decision) (grantId : String) : Prop :=
  ∃ position overrode, TraceStep.grant grantId position overrode ∈ decision.explanation

def Usable (slice : List GrantRecord) (grantId : String) : Prop :=
  ∃ record ∈ slice, record.kind = .grant ∧ record.grantId = grantId ∧
    ∀ other ∈ slice, other.kind = .revocation → other.grantId ≠ grantId

variable {slice : List GrantRecord}

theorem usable_of_coveringGrant {signature : String}
    {record : GrantRecord} (hgrant : coveringGrant slice signature = some record) :
    Usable slice record.grantId := by
  have hmem := mem_of_mem_head? hgrant
  simp only [mem_filter, decide_eq_true_eq, mem_map, not_exists, not_and] at hmem
  obtain ⟨hrecord, hkind, -, hunrevoked⟩ := hmem
  exact ⟨record, hrecord, hkind, rfl, fun other hother hrevoking ↦
    hunrevoked other ⟨hother, hrevoking⟩⟩

theorem usable_of_uses {snapshot : CompiledSnapshot}
    {question : Question} {stamps : Stamps} {decision : Decision} {grantId : String}
    (hdecided : decideQuestion digest snapshot slice question stamps = .ok decision)
    (huses : decision.Uses grantId) : Usable slice grantId := by
  obtain ⟨winner, matched, fallback, constraints, rfl⟩ := exists_of_decideQuestion hdecided
  obtain ⟨position, overrode, hstep⟩ := huses
  simp only [assembleDecision, mem_cons, mem_append, mem_map, reduceCtorEq,
    false_or, Option.mem_toList, and_false, exists_false, or_false] at hstep
  obtain ⟨record, hgrant, heq⟩ := hstep
  cases heq
  unfold grantOverlay at hgrant
  split at hgrant
  · exact usable_of_coveringGrant hgrant
  · cases hgrant

section Revoked

variable {ledger : GrantLedger} {revocation : LedgerRecord} {grantId : String}

/-- Assumes: the revocation of a grant that is scoped to a request is recorded by the position. No
slice at the position has the grant without its revocation. -/
theorem not_usable_of_revoked (hsound : ledger.Sound) (hrevocation : revocation ∈ ledger.records)
    (hkind : revocation.kind = .revocation) (hrevoked : revocation.revokedGrantId = some grantId)
    (hscope : revocation.scope.kind = .request) {position : Nat}
    (hposition : revocation.position ≤ position)
    (hslice : consultationSlice ledger policy position = .ok slice) : ¬ Usable slice grantId := by
  unfold consultationSlice at hslice
  split at hslice
  · cases hslice
  · obtain ⟨-, hslice⟩ := Checked.unless_eq_ok_iff.mp hslice
    cases hslice
    rintro ⟨seen, hmem, hgrant, hid, hunrevoked⟩
    obtain ⟨record, hseen, rfl⟩ := mem_map.mp hmem
    obtain ⟨hsliced, -⟩ := mem_filter.mp hseen
    obtain ⟨hrecord, hcondition⟩ := mem_filter.mp hsliced
    obtain ⟨-, hscoped⟩ := of_decide_eq_true hcondition
    have hgrant : record.kind = .grant := hgrant
    have hid : record.recordId = grantId := by simpa [projectRecord, hgrant] using hid
    obtain ⟨granted, hgranted, -, hrevokes, hinherited, -⟩ :=
      hsound.revokes revocation hrevocation hkind
    have hsame : granted = record := by
      refine hsound.eq_of_recordId hgranted hrecord ?_
      rw [hid]
      exact Option.some.inj (hrevokes.symm.trans hrevoked)
    subst hsame
    -- the revocation is in the slice too
    refine hunrevoked (projectRecord revocation) (mem_map.mpr ⟨revocation,
      mem_filter.mpr ⟨mem_filter.mpr ⟨hrevocation, ?_⟩, ?_⟩, rfl⟩) hkind ?_
    · exact decide_eq_true ⟨hposition, hinherited ▸ hscoped⟩
    · simp [visible, hscope]
    · simp [projectRecord, hkind, hrevoked]

theorem recorded_revocation (desk : LedgerDesk) {provenance : GrantProvenance}
    {granted : LedgerRecord} (hgranted : desk.ledger.record? grantId = some granted)
    (houtcome : (appendRevocation grantId provenance).outcome desk = .ok revocation) :
    revocation ∈ ((appendRevocation grantId provenance).after desk).ledger.records ∧
      revocation.kind = .revocation ∧ revocation.revokedGrantId = some grantId ∧
      revocation.scope = granted.scope := by
  rcases appendRevocation_cases grantId provenance desk with
    ⟨refusal, hrefused, -⟩ | ⟨revoked, hfound, -, hresult, hafter⟩
  · rw [houtcome] at hrefused
    cases hrefused
  · rw [hgranted] at hfound
    cases hfound
    rw [houtcome, outcome_applyRecord] at hresult
    cases hanswer : desk.storage.answer with
    | rejected =>
      rw [hanswer] at hresult
      cases hresult
    | committed =>
      rw [hanswer] at hresult
      cases hresult
      have hid := (GrantLedger.record?_eq_some hgranted).2
      rw [hafter, LedgerDesk.recorded, hanswer]
      exact ⟨by simp [GrantLedger.recorded], rfl, congrArg some hid, rfl⟩

/-- Assumes: the memo comes from the consultations. No consultation, with the memo or without, uses
a grant that is scoped to a request and revoked. -/
theorem not_uses_of_revoked {history : RuntimeHistory} (htraced : history.Traced digest)
    (hsound : history.runtime.ledger.Sound)
    (hrevocation : revocation ∈ history.runtime.ledger.records)
    (hkind : revocation.kind = .revocation) (hrevoked : revocation.revokedGrantId = some grantId)
    (hscope : revocation.scope.kind = .request) {view : EffectivePolicy} {question : Question}
    {decision : Decision}
    (hconsulted : (consult digest view question).outcome history.runtime = .ok (.decision decision)
      ∨ ∃ snapshot, memoFreeConsultation digest snapshot history.runtime.ledger view question =
        .ok (.decision decision)) : ¬ decision.Uses grantId := by
  intro huses
  have hposition := (hsound.mem_range hrevocation).2
  rcases hconsulted with houtcome | ⟨snapshot, houtcome⟩
  · obtain ⟨snapshots, slice, snapshot, stamps, rfl, -, -, hslice, -, -, hmemo⟩ :=
      consult_eq_decision houtcome
    rcases hmemo with ⟨hnoted, -⟩ | ⟨hdecided, -⟩
    · -- the noted decision was made at the same position, over the slice of some view
      obtain ⟨earlier, -, rfl, hkey, hdecided⟩ := htraced _ _ hnoted
      obtain ⟨snapshot', slice', -, -, hslice', -, -, hdecision⟩ := hdecided
      have hstamp : earlier.decision.grantSlicePosition = history.runtime.ledger.position :=
        congrArg (fun key ↦ key.stamps.grantSlicePosition) hkey
      rw [hstamp] at hslice'
      exact not_usable_of_revoked hsound hrevocation hkind hrevoked hscope hposition hslice'
        (usable_of_uses hdecision huses)
    · exact not_usable_of_revoked hsound hrevocation hkind hrevoked hscope hposition hslice
        (usable_of_uses hdecided huses)
  · unfold memoFreeConsultation at houtcome
    split at houtcome
    · cases houtcome
    · next slice hslice =>
      have hdecided := decided_of_evaluate houtcome
      exact not_usable_of_revoked hsound hrevocation hkind hrevoked hscope hposition hslice
        (usable_of_uses hdecided huses)

end Revoked

/-- Assumes: the request is admitted at a ledger that appends lead to. Two later ledgers with the
same records of the request answer it the same up to the stamped position; where these records stand
at other positions, up to the renaming of the ids that follow from them as well. Once a revocation
of a grant that is scoped to a request is appended to the ledger of a runtime, no later consultation
uses the grant. -/
theorem EffectivePolicy.closed_world (digest : Json → String) {active : Option Nat}
    {baseline : GrantLedger} {requestId principal project : String}
    (hbaseline : GrantLedger.new.Reaches baseline)
    (hadmitted : resolverAdmit active baseline requestId principal project = .ok policy) :
    (∀ first second, baseline.Reaches first → baseline.Reaches second →
      (policy.ownRecords second = policy.ownRecords first → ∀ snapshot question,
        memoFreeConsultation digest snapshot second policy question =
          (memoFreeConsultation digest snapshot first policy question).map
            (Outcome.restamped id second.position)) ∧
      ∀ rename, (∀ record ∈ baseline.records, rename record.recordId = record.recordId) →
        policy.SameOwnRecords rename first second → ∀ snapshot question,
          memoFreeConsultation digest snapshot second policy question =
            (memoFreeConsultation digest snapshot first policy question).map
              (Outcome.restamped rename second.position)) ∧
    ∀ storage store prior later grantId provenance granted revocation,
      let before := (RuntimeHistory.start storage store baseline).run digest prior
      let after := (before.performed digest (.record (.revocation grantId provenance))).run digest
        later
      before.runtime.ledger.record? grantId = some granted → granted.scope.kind = .request →
      ((appendRevocation grantId provenance).on ledgerPart).outcome before.runtime =
        .ok revocation →
      ∀ view question decision,
        ((consult digest view question).outcome after.runtime = .ok (.decision decision) ∨
          ∃ snapshot, memoFreeConsultation digest snapshot after.runtime.ledger view question =
            .ok (.decision decision)) → ¬ decision.Uses grantId := by
  have hsound : baseline.Sound := hbaseline.sound .new
  refine ⟨fun first second hfirst hsecond ↦ ⟨fun hown snapshot question ↦ ?_,
    fun rename hfixed hsame snapshot question ↦ ?_⟩, ?_⟩
  · refine memoFreeConsultation_renamed hsound hadmitted hfirst hsecond (fun _ _ ↦ rfl) ?_ snapshot
      question
    simp [SameOwnRecords, hown, LedgerRecord.renamed]
  · exact memoFreeConsultation_renamed hsound hadmitted hfirst hsecond hfixed hsame
      snapshot question
  · intro storage store prior later grantId provenance granted revocation before after hgranted
      hscope houtcome view question decision hconsulted
    have htraced : after.Traced digest := traced_run
      ((traced_run (.start storage store baseline) prior).performed _) later
    have hprior := grows_run digest (.start storage store baseline) prior
    have hbefore : before.runtime.ledger.Sound := hprior.ledger.sound hsound
    have hstep := grows_performed digest before
      (.record (.revocation grantId provenance))
    have hlater := grows_run digest
      (before.performed digest (.record (.revocation grantId provenance))) later
    obtain ⟨hrecorded, hkind, hrevoked, hinherited⟩ := recorded_revocation
      ⟨before.runtime.storage, before.runtime.ledger⟩ hgranted houtcome
    exact not_uses_of_revoked htraced ((hstep.trans hlater).ledger.sound hbefore)
      (hlater.ledger.mem_records hrecorded) hkind hrevoked (hinherited ▸ hscope) hconsulted

def requestGrant (requestId : String) (question : Question) : LedgerAppend :=
  .grant (askSignature Json.repr question) ⟨.request, requestId⟩ (sampleProvenance question) none

/-- The ledger after some appends that storage commits. -/
def ledgerOf (appends : List LedgerAppend) : GrantLedger :=
  appends.foldl (fun ledger append ↦ (append.call.after ⟨⟨.empty, []⟩, ledger⟩).ledger) .new

/-- The grant of the request is the first record of one ledger, and the second one of the other. -/
def secondPlace (recordId : String) : String :=
  if recordId = "grant-1" then "grant-2" else recordId

/-- A grant for another request, recorded in between, changes the position and the id only. -/
theorem EffectivePolicy.closed_world_sample :
    let own := requestGrant "r1" (runQuestion "db" [])
    let foreign := requestGrant "r2" (runQuestion "db" [])
    ∃ snapshot, (askingResult false false).snapshot = some snapshot ∧
      memoFreeConsultation Json.repr snapshot (ledgerOf [foreign, own])
          (RuntimeHistory.viewAt 0) (runQuestion "db" []) =
        (memoFreeConsultation Json.repr snapshot (ledgerOf [own]) (RuntimeHistory.viewAt 0)
          (runQuestion "db" [])).map (Outcome.restamped secondPlace 2) := by
  intro own foreign
  obtain ⟨snapshot, hsnapshot⟩ : ∃ snapshot, (askingResult false false).snapshot = some snapshot :=
    Option.isSome_iff_exists.mp (by decide +kernel)
  have hadmitted : resolverAdmit (some 1) .new "r1" "alice" "core" = .ok
      (RuntimeHistory.viewAt 0) :=
    rfl
  have hfirst : GrantLedger.new.Reaches (ledgerOf [own]) := .single ⟨_, _, rfl⟩
  have hsecond : GrantLedger.new.Reaches (ledgerOf [foreign, own]) :=
    .tail (.single ⟨_, foreign, rfl⟩) ⟨_, own, rfl⟩
  obtain ⟨-, hrenamed⟩ :=
    (EffectivePolicy.closed_world Json.repr .refl hadmitted).1 _ _ hfirst hsecond
  have hown : (RuntimeHistory.viewAt 0).ownRecords (ledgerOf [own]) =
      [grantRecord 1 (askSignature Json.repr (runQuestion "db" [])) ⟨.request, "r1"⟩
        (sampleProvenance (runQuestion "db" [])) none] := rfl
  have hmoved : (RuntimeHistory.viewAt 0).ownRecords (ledgerOf [foreign, own]) =
      [grantRecord 2 (askSignature Json.repr (runQuestion "db" [])) ⟨.request, "r1"⟩
        (sampleProvenance (runQuestion "db" [])) none] := rfl
  have hid : secondPlace ("grant-" ++ toString 1) = "grant-" ++ toString 2 := by decide
  have hsame : (RuntimeHistory.viewAt 0).SameOwnRecords secondPlace (ledgerOf [own])
      (ledgerOf [foreign, own]) := by
    rw [EffectivePolicy.SameOwnRecords, hown, hmoved]
    simpa [LedgerRecord.unplaced, LedgerRecord.renamed, grantRecord] using hid.symm
  exact ⟨snapshot, hsnapshot,
    hrenamed secondPlace nofun hsame snapshot (runQuestion "db" [])⟩

end AbsoluteZero.Governance

import AbsoluteZero.Foundations.SeparatedText
import AbsoluteZero.Governance.GrantLedger

/-!
# Histories of the grant ledger

An append to the ledger is refused and changes nothing, or it writes one record that the checks
permit (`LedgerAppend.after_call`). The records are numbered from one and named after their
positions (`GrantLedger.Sound`), so what a request sees up to a position stays the same.
-/

namespace AbsoluteZero.Governance

open Foundations Call List

inductive LedgerAppend
  | grant (signature : String) (scope : ScopeBinding) (provenance : GrantProvenance)
      (bound : Option Condition)
  | revocation (grantId : String) (provenance : GrantProvenance)

def LedgerAppend.call : LedgerAppend → LedgerCall LedgerRecord
  | .grant signature scope provenance bound => appendGrant signature scope provenance bound
  | .revocation grantId provenance => appendRevocation grantId provenance

def LedgerDesk.recorded (desk : LedgerDesk) (record : LedgerRecord) : LedgerDesk where
  storage := desk.storage.written (ledgerKey record.position) record.toJson
  ledger := match desk.storage.answer with
    | .committed => desk.ledger.recorded record
    | .rejected => desk.ledger

theorem after_applyRecord (record : LedgerRecord) (desk : LedgerDesk) :
    (applyRecord record).after desk = desk.recorded record := by
  unfold applyRecord LedgerDesk.recorded
  rw [after_get_bind]
  cases desk.storage.answer <;> rfl

theorem outcome_applyRecord (record : LedgerRecord) (desk : LedgerDesk) :
    (applyRecord record).outcome desk = match desk.storage.answer with
      | .committed => .ok record
      | .rejected => .error ⟨.ledgerAppendRejected,
          "ledger.append_rejected:" ++ toString record.position⟩ := by
  unfold applyRecord
  rw [outcome_get_bind]
  cases desk.storage.answer <;> rfl

/-- The records that the checks of the appends let through at the next position. -/
inductive GrantLedger.Permits (ledger : GrantLedger) : LedgerRecord → Prop
  | grant (signature : String) (scope : ScopeBinding) (provenance : GrantProvenance)
      (bound : Option Condition) (hsignature : signature ≠ "") :
      ledger.Permits (grantRecord (ledger.position + 1) signature scope provenance bound)
  | revocation (revoked : LedgerRecord) (provenance : GrantProvenance)
      (hrevoked : revoked ∈ ledger.records) (hgrant : revoked.kind = .grant) :
      ledger.Permits (revocationRecord (ledger.position + 1) revoked provenance)

/-- The append of a revocation is refused, or it is the write of a revocation of the recorded
grant. -/
theorem appendRevocation_cases (grantId : String) (provenance : GrantProvenance)
    (desk : LedgerDesk) :
    (∃ refusal, (appendRevocation grantId provenance).outcome desk = .error refusal ∧
      (appendRevocation grantId provenance).after desk = desk) ∨
    ∃ revoked, desk.ledger.record? grantId = some revoked ∧ revoked.kind = .grant ∧
      (appendRevocation grantId provenance).outcome desk =
        (applyRecord (revocationRecord (desk.ledger.position + 1) revoked provenance)).outcome
          desk ∧ (appendRevocation grantId provenance).after desk =
        desk.recorded (revocationRecord (desk.ledger.position + 1) revoked provenance) := by
  unfold appendRevocation
  rw [outcome_get_bind, after_get_bind]
  cases hrevoked : (desk.ledger.record? grantId).filter fun record ↦ record.kind = .grant with
  | none => exact .inl ⟨_, rfl, rfl⟩
  | some revoked =>
    obtain ⟨hfound, hkind⟩ := Option.filter_eq_some_iff.mp hrevoked
    exact .inr ⟨revoked, hfound, of_decide_eq_true hkind, rfl, after_applyRecord _ desk⟩

variable {ledger : GrantLedger}

theorem GrantLedger.record?_eq_some {recordId : String}
    {record : LedgerRecord} (hfound : ledger.record? recordId = some record) :
    record ∈ ledger.records ∧ record.recordId = recordId :=
  ⟨mem_of_find?_eq_some hfound, by simpa using find?_some hfound⟩

theorem after_appendGrant (signature : String) (scope : ScopeBinding)
    (provenance : GrantProvenance) (bound : Option Condition) (desk : LedgerDesk) :
    (appendGrant signature scope provenance bound).after desk = if signature = "" then desk
      else desk.recorded
        (grantRecord (desk.ledger.position + 1) signature scope provenance bound) := by
  unfold appendGrant
  rw [after_get_bind, after_ite, after_throw, after_applyRecord]

/-- An append is refused and changes nothing, or writes a record that the checks permit. -/
theorem LedgerAppend.after_call (append : LedgerAppend) (desk : LedgerDesk) :
    append.call.after desk = desk ∨
      ∃ record, desk.ledger.Permits record ∧ append.call.after desk = desk.recorded record := by
  cases append with
  | grant signature scope provenance bound =>
    have hafter := after_appendGrant signature scope provenance bound desk
    by_cases hsignature : signature = ""
    · exact .inl (hafter.trans (if_pos hsignature))
    · exact .inr ⟨_, .grant signature scope provenance bound hsignature,
        hafter.trans (if_neg hsignature)⟩
  | revocation grantId provenance =>
    rcases appendRevocation_cases grantId provenance desk with
      ⟨-, -, hafter⟩ | ⟨revoked, hfound, hgrant, -, hafter⟩
    · exact .inl hafter
    · exact .inr ⟨_, .revocation revoked provenance (GrantLedger.record?_eq_some hfound).1 hgrant,
        hafter⟩

namespace GrantLedger

def idStem : RecordKind → String
  | .grant => "grant-"
  | .revocation => "revocation-"

/-- The records are numbered from one and named after their kinds and positions, and a revocation
has the scope and the signature of the recorded grant that it revokes. -/
structure Sound (ledger : GrantLedger) : Prop where
  numbered : ledger.records.map LedgerRecord.position = List.range' 1 ledger.records.length
  named : ∀ record ∈ ledger.records,
    record.recordId = idStem record.kind ++ toString record.position
  revokes : ∀ record ∈ ledger.records, record.kind = .revocation →
    ∃ granted ∈ ledger.records, granted.kind = .grant ∧
      record.revokedGrantId = some granted.recordId ∧ record.scope = granted.scope ∧
      record.askSignature = granted.askSignature

theorem Sound.new : new.Sound := ⟨rfl, nofun, nofun⟩

variable {record : LedgerRecord}

theorem Permits.position_eq
    (hpermits : ledger.Permits record) : record.position = ledger.position + 1 := by
  cases hpermits <;> rfl

theorem Permits.recordId_eq (hpermits : ledger.Permits record) :
    record.recordId = idStem record.kind ++ toString record.position := by
  cases hpermits <;> rfl

theorem Sound.recorded (hsound : ledger.Sound)
    (hpermits : ledger.Permits record) : (ledger.recorded record).Sound where
  numbered := by
    rw [GrantLedger.recorded, map_append, hsound.numbered, length_append]
    simp [range'_concat, hpermits.position_eq, position, Nat.add_comm]
  named := by
    intro other hother
    rcases mem_append.mp hother with hold | hnew
    · exact hsound.named other hold
    · rw [mem_singleton.mp hnew]
      exact hpermits.recordId_eq
  revokes := by
    intro other hother hkind
    rcases mem_append.mp hother with hold | hnew
    · obtain ⟨granted, hgranted, hrest⟩ := hsound.revokes other hold hkind
      exact ⟨granted, mem_append_left _ hgranted, hrest⟩
    · rw [mem_singleton.mp hnew] at hkind ⊢
      cases hpermits with
      | grant => cases hkind
      | revocation revoked provenance hrevoked hgrant =>
        exact ⟨revoked, mem_append_left _ hrevoked, hgrant, rfl, rfl, rfl⟩

theorem Sound.mem_range (hsound : ledger.Sound) (hrecord : record ∈ ledger.records) :
    1 ≤ record.position ∧ record.position ≤ ledger.position := by
  have hposition := mem_map_of_mem (f := LedgerRecord.position) hrecord
  rw [hsound.numbered, mem_range'_1] at hposition
  unfold position
  omega

theorem kind_eq_of_id {kind kind' : RecordKind} {text text' : String}
    (hid : idStem kind ++ text = idStem kind' ++ text') : kind = kind' := by
  have hhead := congrArg (fun text : String ↦ text.toList.head?) hid
  cases kind <;> cases kind' <;> simp [idStem, String.toList_append] at hhead ⊢

theorem Sound.eq_of_recordId (hsound : ledger.Sound)
    {first second : LedgerRecord} (hfirst : first ∈ ledger.records)
    (hsecond : second ∈ ledger.records) (hid : first.recordId = second.recordId) :
    first = second := by
  rw [hsound.named first hfirst, hsound.named second hsecond] at hid
  have hkind := kind_eq_of_id hid
  rw [hkind, String.append_right_inj] at hid
  have hposition : first.position = second.position := SeparatedText.toString_inj hid
  have hnodup : (ledger.records.map LedgerRecord.position).Nodup :=
    hsound.numbered ▸ nodup_range'
  exact inj_on_of_nodup_map hnodup hfirst hsecond hposition

theorem Sound.nodup_recordId (hsound : ledger.Sound) :
    (ledger.records.map LedgerRecord.recordId).Nodup := by
  have hnodup : (ledger.records.map LedgerRecord.position).Nodup :=
    hsound.numbered ▸ nodup_range'
  exact hnodup.of_map.map_on fun first hfirst second hsecond hid ↦
    hsound.eq_of_recordId hfirst hsecond hid

/-- An append leads from one ledger to the other, over some storage. -/
def Appends (ledger next : GrantLedger) : Prop :=
  ∃ (storage : Storage) (append : LedgerAppend),
    next = (append.call.after ⟨storage, ledger⟩).ledger

/-- Appends lead from one ledger to the other, whatever storage answers. -/
abbrev Reaches (ledger later : GrantLedger) : Prop := Relation.ReflTransGen Appends ledger later

theorem Appends.cases {ledger next : GrantLedger} (happends : ledger.Appends next) :
    next = ledger ∨ ∃ record, ledger.Permits record ∧ next = ledger.recorded record := by
  obtain ⟨storage, append, rfl⟩ := happends
  rcases append.after_call ⟨storage, ledger⟩ with hsame | ⟨record, hpermits, hafter⟩
  · rw [hsame]
    exact .inl rfl
  · rw [hafter, LedgerDesk.recorded]
    cases storage.answer with
    | committed => exact .inr ⟨record, hpermits, rfl⟩
    | rejected => exact .inl rfl

namespace Reaches

variable {ledger later : GrantLedger}

section

variable (hreaches : ledger.Reaches later)

include hreaches

theorem keeps (Holds : GrantLedger → Prop)
    (hrecorded : ∀ ledger record, Holds ledger → ledger.Permits record →
      Holds (ledger.recorded record)) (hledger : Holds ledger) : Holds later := by
  induction hreaches with
  | refl => exact hledger
  | tail _ happends ih =>
    rcases happends.cases with rfl | ⟨record, hpermits, rfl⟩
    · exact ih
    · exact hrecorded _ record ih hpermits

theorem sound (hledger : ledger.Sound) : later.Sound :=
  hreaches.keeps Sound (fun _ _ hsound hpermits ↦ hsound.recorded hpermits) hledger

/-- A later ledger begins with the records of the earlier one, and the others are numbered after
them. -/
theorem records_eq :
    ∃ more, later.records = ledger.records ++ more ∧
      ∀ record ∈ more, ledger.position < record.position := by
  refine hreaches.keeps (fun later ↦ ∃ more, later.records = ledger.records ++ more ∧
    ∀ record ∈ more, ledger.position < record.position) ?_ ⟨[], by simp, nofun⟩
  rintro later record ⟨more, hrecords, hafter⟩ hpermits
  refine ⟨more ++ [record], by simp [recorded, hrecords], fun other hother ↦ ?_⟩
  rcases mem_append.mp hother with hold | hnew
  · exact hafter other hold
  · rw [mem_singleton.mp hnew, hpermits.position_eq, position, position, hrecords, length_append]
    omega

theorem position_le : ledger.position ≤ later.position := by
  obtain ⟨more, hrecords, -⟩ := hreaches.records_eq
  simp [position, hrecords]

theorem mem_records {record : LedgerRecord}
    (hrecord : record ∈ ledger.records) : record ∈ later.records := by
  obtain ⟨more, hrecords, -⟩ := hreaches.records_eq
  exact hrecords ▸ mem_append_left more hrecord

theorem consultationSlice (policy : EffectivePolicy)
    {position : Nat} (hposition : position ≤ ledger.position) :
    Governance.consultationSlice later policy position =
      Governance.consultationSlice ledger policy position := by
  obtain ⟨more, hrecords, hafter⟩ := hreaches.records_eq
  have hlate : ∀ record ∈ more, ¬ record.position ≤ position := fun record hrecord ↦
    not_le.mpr (hposition.trans_lt (hafter record hrecord))
  have hslice : later.slice policy.requestId policy.principal policy.project position =
      ledger.slice policy.requestId policy.principal policy.project position := by
    rw [slice, hrecords, filter_append, slice, append_right_eq_self, filter_eq_nil_iff]
    exact fun record hrecord ↦ by simp [hlate record hrecord]
  rw [Governance.consultationSlice, hslice]
  rfl

end

end Reaches

end GrantLedger

end AbsoluteZero.Governance

import AbsoluteZero.Lie.Gate

/-!
# One record for each attested unit

`Desk` runs a gate with its storage through a sequence of calls. Every call keeps `Desk.Sound`: no
attestation is in the ledger twice, every one is indexed, and the index gives the position of an
entry that carries it, or whose identity was offered under it (`Desk.admits_once`).
-/

namespace AbsoluteZero.Lie

open Foundations OrderedDict List

namespace Gate

variable {gate : Gate} {storage : Storage} {record : Record}

structure Takes (gate : Gate) (storage : Storage) (record : Record) : Prop where
  fresh : gate.admittedByAttestation.get? record.attestationRef = none
  vetted : gate.refusal? record = none
  unheld : ¬gate.ledger.Holds record.identity
  committed : storage.answer = .committed

inductive Ends (gate : Gate) (storage : Storage) (record : Record) : Attempt → Prop
  | redelivered {position : Nat}
      (hindexed : gate.admittedByAttestation.get? record.attestationRef = some position) :
      Ends gate storage record ⟨gate, storage, .ok (.deduped position)⟩
  | duplicate (hfresh : gate.admittedByAttestation.get? record.attestationRef = none)
      (hheld : gate.ledger.Holds record.identity) :
      Ends gate storage record
        ⟨gate.index record (gate.ledger.positionOf record.identity), storage,
          .ok (.deduped (gate.ledger.positionOf record.identity))⟩
  | rejected {reason : String} {after : Storage}
      (hfresh : gate.admittedByAttestation.get? record.attestationRef = none)
      (hrefused : ¬gate.Takes storage record) (hblobs : after.blobs = storage.blobs) :
      Ends gate storage record ⟨gate.report record reason, after, .ok (.rejected reason)⟩
  | unknown (hfresh : gate.admittedByAttestation.get? record.attestationRef = none)
      (hanswer : storage.answer = .unknown) :
      Ends gate storage record
        ⟨gate, storage.write (Ledger.key record.identity) record.canonicalBytes,
          .error .unknownStorageOutcome⟩
  | admitted {ledger : Ledger} (htakes : gate.Takes storage record)
      (hentries : ledger.entries = gate.ledger.entries ++ [record]) :
      Ends gate storage record
        ⟨({ gate with ledger := ledger }).index record ledger.currentPosition,
          storage.write (Ledger.key record.identity) record.canonicalBytes,
          .ok (.admitted ledger.currentPosition)⟩

theorem admit_ends (gate : Gate) (storage : Storage) (record : Record) :
    gate.Ends storage record (gate.admitRecord storage record) := by
  unfold admitRecord
  rcases hindexed : gate.admittedByAttestation.get? record.attestationRef with _ | position
  swap
  · exact .redelivered hindexed
  rcases hrefusal : gate.refusal? record with _ | reason
  swap
  · refine .rejected hindexed (fun htakes ↦ ?_) rfl
    cases hrefusal.symm.trans htakes.vetted
  dsimp only [Ledger.append]
  by_cases hheld : record.identity ∈ gate.ledger.entries.map Record.identity
  · rw [dif_pos hheld]
    exact .duplicate hindexed hheld
  rw [dif_neg hheld]
  rcases hanswer : storage.answer with _ | _ | _
  · exact .admitted ⟨hindexed, hrefusal, hheld, hanswer⟩ rfl
  · refine .rejected hindexed (fun htakes ↦ ?_) (by simp [Storage.write, hanswer])
    cases hanswer.symm.trans htakes.committed
  · exact .unknown hindexed hanswer

theorem admit_kept (hrefused : ¬gate.Takes storage record) :
    (gate.admitRecord storage record).gate.ledger = gate.ledger ∧
      (gate.admitRecord storage record).storage.blobs = storage.blobs ∧
        ∀ position, (gate.admitRecord storage record).result ≠ .ok (.admitted position) := by
  have hends := gate.admit_ends storage record
  generalize gate.admitRecord storage record = attempt at hends ⊢
  cases hends with
  | redelivered | duplicate => exact ⟨rfl, rfl, by simp⟩
  | rejected _ _ hblobs => exact ⟨rfl, hblobs, by simp⟩
  | unknown _ hanswer => exact ⟨rfl, by simp [Storage.write, hanswer], by simp⟩
  | admitted htakes => exact absurd htakes hrefused

theorem Takes.appends (htakes : gate.Takes storage record) :
    (gate.admitRecord storage record).gate.ledger.entries = gate.ledger.entries ++ [record] ∧
      (gate.admitRecord storage record).storage =
        storage.write (Ledger.key record.identity) record.canonicalBytes := by
  have hends := gate.admit_ends storage record
  generalize gate.admitRecord storage record = attempt at hends ⊢
  cases hends with
  | redelivered hindexed => cases hindexed.symm.trans htakes.fresh
  | duplicate _ hheld => exact absurd hheld htakes.unheld
  | rejected _ hrefused => exact absurd htakes hrefused
  | unknown _ hanswer => cases hanswer.symm.trans htakes.committed
  | admitted _ hentries => exact ⟨hentries, rfl⟩

theorem Takes.admitted (htakes : gate.Takes storage record) :
    ∃ position, (gate.admitRecord storage record).result = .ok (.admitted position) := by
  have hunheld : record.identity ∉ gate.ledger.entries.map Record.identity := htakes.unheld
  unfold admitRecord
  rw [htakes.fresh, htakes.vetted]
  dsimp only [Ledger.append]
  rw [dif_neg hunheld, htakes.committed]
  exact ⟨_, rfl⟩

end Gate

namespace Ledger

theorem byPosition_positionOf {ledger : Ledger} {identity : String}
    (hheld : ledger.Holds identity) :
    ∃ entry, ledger.byPosition (ledger.positionOf identity) = some entry ∧
      entry.identity = identity := by
  have hlt := idxOf_lt_length_iff.mpr hheld
  have hget := getElem_idxOf hlt
  rw [length_map] at hlt
  refine ⟨ledger.entries[(ledger.entries.map Record.identity).idxOf identity], ?_, ?_⟩
  · rw [byPosition, positionOf, if_neg (Nat.succ_ne_zero _), Nat.add_sub_cancel,
      getElem?_eq_getElem hlt]
  · rw [getElem_map] at hget
    exact hget

theorem byPosition_append {ledger grown : Ledger} {record entry : Record} {position : Nat}
    (hentries : grown.entries = ledger.entries ++ [record])
    (hentry : ledger.byPosition position = some entry) :
    grown.byPosition position = some entry := by
  unfold byPosition at hentry ⊢
  split at hentry
  · cases hentry
  · next hposition =>
    rw [if_neg hposition, hentries]
    exact getElem?_append_left (List.getElem?_eq_some_iff.mp hentry).1 ▸ hentry

theorem byPosition_last {ledger grown : Ledger} {record : Record}
    (hentries : grown.entries = ledger.entries ++ [record]) :
    grown.byPosition grown.currentPosition = some record := by
  simp [byPosition, currentPosition, hentries]

end Ledger

/-! ### Runs of a gate -/

inductive GateCall
  | offer (record : Record)
  | adoptVocabulary (vocabulary : FacetVocabulary)

structure Desk where
  gate : Gate
  storage : Storage
  offered : List Record

namespace Desk

/-- The desk after a call; a refused vocabulary leaves the gate as it is. -/
def step (desk : Desk) : GateCall → Desk
  | .offer record =>
    let attempt := desk.gate.admitRecord desk.storage record
    ⟨attempt.gate, attempt.storage, desk.offered ++ [record]⟩
  | .adoptVocabulary vocabulary =>
    match desk.gate.adoptVocabulary vocabulary with
    | .ok gate => { desk with gate := gate }
    | .error _ => desk

variable (vocabulary : FacetVocabulary) (storage : Storage)

def run (calls : List GateCall) : Desk :=
  calls.foldl step ⟨.new vocabulary, storage, []⟩

/-- The entry answers for an attestation: it carries it, or its identity was offered under it. -/
def AnswersFor (offered : List Record) (attestationRef : String) (entry : Record) : Prop :=
  entry.attestationRef = attestationRef ∨
    ∃ other ∈ offered, other.attestationRef = attestationRef ∧ other.identity = entry.identity

theorem AnswersFor.mono {offered later : List Record} {attestationRef : String} {entry : Record}
    (hanswers : AnswersFor offered attestationRef entry) :
    AnswersFor (offered ++ later) attestationRef entry := by
  rcases hanswers with hsame | ⟨other, hother, hsame⟩
  · exact .inl hsame
  · exact .inr ⟨other, mem_append_left _ hother, hsame⟩

/-- What every call of a gate keeps. -/
structure Sound (desk : Desk) : Prop where
  attestations : (desk.gate.ledger.entries.map Record.attestationRef).Nodup
  indexed : ∀ entry ∈ desk.gate.ledger.entries,
    desk.gate.admittedByAttestation.get? entry.attestationRef ≠ none
  answers : ∀ attestationRef position,
    desk.gate.admittedByAttestation.get? attestationRef = some position →
      ∃ entry, desk.gate.ledger.byPosition position = some entry ∧
        AnswersFor desk.offered attestationRef entry

theorem sound_new :
    Sound ⟨.new vocabulary, storage, []⟩ where
  attestations := nodup_nil
  indexed entry hentry := by cases hentry
  answers attestationRef position hindexed := by cases hindexed

section Step

variable {desk : Desk} {record : Record}

section

variable (hdesk : desk.Sound)

include hdesk

theorem Sound.over (storage : Storage) : Sound { desk with storage := storage } :=
  { hdesk with }

theorem Sound.offer (record : Record) (storage : Storage) (gate : Gate)
    (hledger : gate.ledger = desk.gate.ledger)
    (hindex : gate.admittedByAttestation = desk.gate.admittedByAttestation) :
    Sound ⟨gate, storage, desk.offered ++ [record]⟩ where
  attestations := hledger ▸ hdesk.attestations
  indexed := hledger ▸ hindex ▸ hdesk.indexed
  answers attestationRef position hindexed := by
    obtain ⟨entry, hentry, hanswers⟩ := hdesk.answers attestationRef position (hindex ▸ hindexed)
    exact ⟨entry, hledger ▸ hentry, hanswers.mono⟩

/-- Indexing the attestation of an offered record under a position whose entry has its identity. -/
theorem Sound.index {position : Nat} {entry : Record} (storage : Storage)
    (hentry : desk.gate.ledger.byPosition position = some entry)
    (hid : entry.identity = record.identity) :
    Sound ⟨desk.gate.index record position, storage, desk.offered ++ [record]⟩ where
  attestations := hdesk.attestations
  indexed other hother := by
    change (desk.gate.admittedByAttestation.insert _ _).get? _ ≠ none
    rw [get?_insert]
    split
    · simp
    · exact hdesk.indexed other hother
  answers attestationRef other hindexed := by
    change (desk.gate.admittedByAttestation.insert _ _).get? _ = some other at hindexed
    rw [get?_insert] at hindexed
    split at hindexed
    · next hsame =>
      cases hindexed
      exact ⟨entry, hentry, .inr ⟨record, by simp, hsame, hid.symm⟩⟩
    · obtain ⟨found, hfound, hanswers⟩ := hdesk.answers attestationRef other hindexed
      exact ⟨found, hfound, hanswers.mono⟩

theorem Sound.append {ledger : Ledger} (storage : Storage)
    (hfresh : desk.gate.admittedByAttestation.get? record.attestationRef = none)
    (hentries : ledger.entries = desk.gate.ledger.entries ++ [record]) :
    Sound ⟨({ desk.gate with ledger := ledger }).index record ledger.currentPosition, storage,
      desk.offered ++ [record]⟩ where
  attestations := by
    change (ledger.entries.map Record.attestationRef).Nodup
    rw [hentries, map_append, map_singleton, List.nodup_append]
    refine ⟨hdesk.attestations, nodup_singleton _, fun earlier hearlier later hlater heq ↦ ?_⟩
    obtain ⟨entry, hentry, rfl⟩ := mem_map.mp hearlier
    rw [mem_singleton] at hlater
    exact hdesk.indexed entry hentry (heq.trans hlater ▸ hfresh)
  indexed other hother := by
    change (desk.gate.admittedByAttestation.insert _ _).get? _ ≠ none
    change other ∈ ledger.entries at hother
    rw [get?_insert]
    split
    · simp
    · next hne =>
      rw [hentries, mem_append, mem_singleton] at hother
      exact hdesk.indexed other (hother.resolve_right fun heq ↦ hne (heq ▸ rfl))
  answers attestationRef other hindexed := by
    change (desk.gate.admittedByAttestation.insert _ _).get? _ = some other at hindexed
    rw [get?_insert] at hindexed
    split at hindexed
    · next hsame =>
      cases hindexed
      exact ⟨record, Ledger.byPosition_last hentries, .inl hsame⟩
    · obtain ⟨found, hfound, hanswers⟩ := hdesk.answers attestationRef other hindexed
      exact ⟨found, Ledger.byPosition_append hentries hfound, hanswers.mono⟩

theorem Sound.step (call : GateCall) : (desk.step call).Sound := by
  cases call with
  | offer record =>
    change Sound ⟨(desk.gate.admitRecord desk.storage record).gate,
      (desk.gate.admitRecord desk.storage record).storage, desk.offered ++ [record]⟩
    have hends := Gate.admit_ends desk.gate desk.storage record
    generalize desk.gate.admitRecord desk.storage record = attempt at hends ⊢
    cases hends with
    | redelivered => exact hdesk.offer record _ _ rfl rfl
    | duplicate _ hheld =>
      obtain ⟨entry, hentry, hid⟩ := Ledger.byPosition_positionOf hheld
      exact hdesk.index _ hentry hid
    | rejected | unknown => exact hdesk.offer record _ _ rfl rfl
    | admitted htakes hentries => exact hdesk.append _ htakes.fresh hentries
  | adoptVocabulary vocabulary =>
    rcases hadopted : desk.gate.adoptVocabulary vocabulary with refusal | gate
    · simpa only [Desk.step, hadopted] using hdesk
    · simp only [Desk.step, hadopted]
      unfold Gate.adoptVocabulary at hadopted
      split at hadopted <;> cases hadopted
      exact { hdesk with }

end

end Step

theorem sound_run (calls : List GateCall) :
    (run vocabulary storage calls).Sound :=
  List.foldlRecOn calls step (sound_new vocabulary storage) fun _ hdesk call _ ↦ hdesk.step call

structure AdmitsOnce (desk : Desk) : Prop where
  attestations : (desk.gate.ledger.entries.map Record.attestationRef).Nodup
  identities : (desk.gate.ledger.entries.map Record.identity).Nodup
  deduped : ∀ record position,
    (desk.gate.admitRecord desk.storage record).result = .ok (.deduped position) →
      ∃ entry, desk.gate.ledger.byPosition position = some entry ∧
        AnswersFor (desk.offered ++ [record]) record.attestationRef entry
  admitted : ∀ record position,
    (desk.gate.admitRecord desk.storage record).result = .ok (.admitted position) ↔
      ((desk.gate.admitRecord desk.storage record).gate.ledger.entries =
          desk.gate.ledger.entries ++ [record] ∧
        position = (desk.gate.admitRecord desk.storage record).gate.ledger.currentPosition) ∧
      desk.storage.answer = .committed ∧
        (desk.gate.admitRecord desk.storage record).storage =
          desk.storage.write (Ledger.key record.identity) record.canonicalBytes
  rejected : ∀ record reason,
    (desk.gate.admitRecord desk.storage record).result = .ok (.rejected reason) →
      ((desk.gate.admitRecord desk.storage record).gate.ledger = desk.gate.ledger ∧
        (desk.gate.admitRecord desk.storage record).gate.admittedByAttestation =
          desk.gate.admittedByAttestation) ∧
      ∀ corrected : Record, corrected.attestationRef = record.attestationRef →
        desk.gate.refusal? corrected = none → ¬desk.gate.ledger.Holds corrected.identity →
          ∀ storage : Storage, storage.answer = .committed →
            ∃ position, ((desk.gate.admitRecord desk.storage record).gate.admitRecord storage
              corrected).result = .ok (.admitted position)

theorem Sound.admitsOnce {desk : Desk} (hdesk : desk.Sound) : desk.AdmitsOnce where
  attestations := hdesk.attestations
  identities := desk.gate.ledger.unique
  deduped record position := by
    have hends := Gate.admit_ends desk.gate desk.storage record
    generalize desk.gate.admitRecord desk.storage record = attempt at hends ⊢
    cases hends with
    | redelivered hindexed =>
      rintro ⟨⟩
      obtain ⟨entry, hentry, hanswers⟩ := hdesk.answers _ _ hindexed
      exact ⟨entry, hentry, hanswers.mono⟩
    | duplicate _ hheld =>
      rintro ⟨⟩
      obtain ⟨entry, hentry, hid⟩ := Ledger.byPosition_positionOf hheld
      exact ⟨entry, hentry, .inr ⟨record, by simp, rfl, hid.symm⟩⟩
    | _ => rintro ⟨⟩
  admitted record position := by
    have hends := Gate.admit_ends desk.gate desk.storage record
    generalize desk.gate.admitRecord desk.storage record = attempt at hends ⊢
    have hgrows : desk.gate.ledger.entries ≠ desk.gate.ledger.entries ++ [record] := by simp
    cases hends with
    | admitted htakes hentries =>
      constructor
      · rintro ⟨⟩
        exact ⟨⟨hentries, rfl⟩, htakes.committed, rfl⟩
      · rintro ⟨⟨-, rfl⟩, -, -⟩
        rfl
    | _ => exact iff_of_false (by simp) fun hgrown ↦ hgrows hgrown.1.1
  rejected record reason := by
    have hends := Gate.admit_ends desk.gate desk.storage record
    generalize desk.gate.admitRecord desk.storage record = attempt at hends ⊢
    cases hends with
    | rejected hfresh =>
      rintro ⟨⟩
      refine ⟨⟨rfl, rfl⟩, fun corrected hsame hvetted hunheld storage hcommitted ↦ ?_⟩
      exact Gate.Takes.admitted ⟨hsame ▸ hfresh, hvetted, hunheld, hcommitted⟩
    | _ => rintro ⟨⟩

/-- After every sequence of calls of a new gate, whatever storage answers: the ledger holds no
attestation and no identity twice; a deduplicated record is answered with an entry that carries its
attestation or an identity offered under it; a record is admitted exactly when it was appended after
its bytes were committed; and a rejection changes neither the ledger nor the index, so that a
corrected record can be admitted. -/
theorem admits_once (calls : List GateCall) :
    (run vocabulary storage calls).AdmitsOnce :=
  (sound_run vocabulary storage calls).admitsOnce

end Desk

def Mapping.single (key : String) (value : Json) : Mapping := OrderedDict.empty.insert key value

/-- What built envelopes, attestations and origins have. -/
structure Complete (identity attestationRef project facet : String) : Prop where
  identity : identity ≠ "" := by decide
  attestationRef : attestationRef ≠ "" := by decide
  project : project ≠ "" := by decide
  facet : facet ≠ "" := by decide

def sampleEnvelope (identity attestationRef project facet : String)
    (hcomplete : Complete identity attestationRef project facet) : Envelope Attestation where
  identity := identity
  attestation := ⟨attestationRef, true, 1, hcomplete.attestationRef, by decide⟩
  origin := ⟨project, "sim", none, .str "epoch-0", hcomplete.project, by decide, by simp⟩
  facets := [facet]
  relations := []
  named := hcomplete.identity
  faceted := List.cons_ne_nil _ _
  termed := fun hmem ↦ hcomplete.facet (List.mem_singleton.mp hmem).symm

def sampleEpisode (envelope : Envelope Attestation) (approach outcome : Mapping)
    (happroach : approach.items ≠ []) (houtcome : outcome.items ≠ []) : Episode where
  envelope := envelope
  situation := Mapping.single "s" (.int 1)
  approach := approach
  outcome := outcome
  cost := Mapping.single "c" (.int 1)
  situated := List.cons_ne_nil _ _
  approached := happroach
  concluded := houtcome
  costed := List.cons_ne_nil _ _

/-- Episode `e1`, attested by the given trace. -/
def firstEpisode (attestationRef : String) (hattestationRef : attestationRef ≠ "") : Record :=
  .episode (sampleEpisode (sampleEnvelope "episode:e1" attestationRef "p1" "ros2"
    { attestationRef := hattestationRef }) (Mapping.single "a" (.int 1))
    (Mapping.single "verdict" (.str "passed")) (List.cons_ne_nil _ _) (List.cons_ne_nil _ _))

theorem approach_ne_nil : (Mapping.single "a" (.int 1)).items ≠ [] := List.cons_ne_nil _ _

def committing : Storage := { answers := fun _ ↦ .committed }

/-- The second attestation is answered with the entry of the first one. -/
theorem not_deduped_sameAttestation : ¬∀ vocabulary storage calls record position,
      ((Desk.run vocabulary storage calls).gate.admitRecord
          (Desk.run vocabulary storage calls).storage record).result = .ok (.deduped position) →
        ∃ entry, (Desk.run vocabulary storage calls).gate.ledger.byPosition position = some entry ∧
          entry.attestationRef = record.attestationRef := by
  intro hdeduped
  obtain ⟨entry, hentry, hsame⟩ := hdeduped ⟨1, ["ros2"]⟩ committing
    [.offer (firstEpisode "trace:t1" (by decide))] (firstEpisode "trace:t2" (by decide)) 1
      (by decide +kernel)
  have hfirst : (Desk.run ⟨1, ["ros2"]⟩ committing
      [.offer (firstEpisode "trace:t1" (by decide))]).gate.ledger.byPosition 1 =
        some (firstEpisode "trace:t1" (by decide)) := rfl
  cases hfirst.symm.trans hentry
  exact absurd hsame (by decide)

end AbsoluteZero.Lie

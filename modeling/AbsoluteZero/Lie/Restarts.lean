import AbsoluteZero.Foundations.Chain
import AbsoluteZero.Lie.Admission

/-!
# Several ledgers and overlays over one storage

A process that starts anew opens a ledger and an overlay that know nothing of what earlier ones have
stored. `Site` is one storage with all the instances opened on it; a call keeps what is stored and
admits no unit twice exactly when the others have not overtaken its instance (`Site.keeps_iff`).
-/

namespace AbsoluteZero.Lie

open Foundations List

/-! ### Instances -/

/-- One storage, with the gates and the overlays opened on it so far; every gate has its ledger. -/
structure Site where
  storage : Storage
  gates : List Gate
  overlays : List Overlay

/-- A new instance, or a call of the instance with an index. -/
inductive SiteCall
  | openLedger (vocabulary : FacetVocabulary)
  | openOverlay
  | offer (index : Nat) (record : Record)
  | adoptVocabulary (index : Nat) (vocabulary : FacetVocabulary)
  | rule (index : Nat) (note : Annotation)

namespace Site

/-- The site after a call; a call of an instance that does not exist changes nothing. -/
def step (site : Site) : SiteCall → Site
  | .openLedger vocabulary => { site with gates := site.gates ++ [.new vocabulary] }
  | .openOverlay => { site with overlays := site.overlays ++ [.empty] }
  | .offer index record =>
    match site.gates[index]? with
    | none => site
    | some gate =>
      { site with
        storage := (gate.admitRecord site.storage record).storage
        gates := site.gates.set index (gate.admitRecord site.storage record).gate }
  | .adoptVocabulary index vocabulary =>
    match site.gates[index]? with
    | none => site
    | some gate =>
      match gate.adoptVocabulary vocabulary with
      | .error _ => site
      | .ok gate => { site with gates := site.gates.set index gate }
  | .rule index note =>
    match site.overlays[index]? with
    | none => site
    | some overlay =>
      match overlay.append site.storage note with
      | (storage, .error _) => { site with storage := storage }
      | (storage, .ok overlay) =>
        { site with storage := storage, overlays := site.overlays.set index overlay }

/-- An empty storage that answers its writes in the given way. -/
def fresh (answers : Nat → WriteOutcome) : Site := ⟨{ answers := answers }, [], []⟩

def run (answers : Nat → WriteOutcome) (calls : List SiteCall) : Site :=
  calls.foldl step (fresh answers)

/-- The record is an entry of one of the ledgers. -/
def Admitted (site : Site) (record : Record) : Prop :=
  ∃ gate ∈ site.gates, record ∈ gate.ledger.entries

def Ruled (site : Site) (place : Nat) (note : Annotation) : Prop :=
  ∃ overlay ∈ site.overlays, overlay.entries[place]? = some note

/-- What is expected of a call: stored records and rulings keep their bytes, and a record is
admitted only if no ledger holds its attestation. -/
structure Keeps (site : Site) (call : SiteCall) : Prop where
  records : ∀ identity data, site.storage.blobs.get? (Ledger.key identity) = some data →
    (site.step call).storage.blobs.get? (Ledger.key identity) = some data
  rulings : ∀ position data, site.storage.blobs.get? (Overlay.key position) = some data →
    (site.step call).storage.blobs.get? (Overlay.key position) = some data
  units : ∀ index record gate position, call = .offer index record →
    site.gates[index]? = some gate →
      (gate.admitRecord site.storage record).result = .ok (.admitted position) →
        ∀ entry, site.Admitted entry → entry.attestationRef ≠ record.attestationRef

end Site

/-- The instance that is called has not been overtaken by the others. A record that its ledger takes
is attested by no entry of a ledger, and has the bytes of every entry under its identity; a ruling
that storage commits has the bytes of every ruling at its place. -/
def SiteCall.Heeds (site : Site) : SiteCall → Prop
  | .offer index record => ∀ gate, site.gates[index]? = some gate →
      gate.Takes site.storage record → ∀ entry, site.Admitted entry →
        entry.attestationRef ≠ record.attestationRef ∧
          (entry.identity = record.identity → entry.canonicalBytes = record.canonicalBytes)
  | .rule index note => ∀ overlay, site.overlays[index]? = some overlay →
      site.storage.answer = .committed → ∀ ruling, site.Ruled overlay.currentPosition ruling →
        ruling.bytes = note.bytes
  | _ => True

/-- Replacing an instance by one that has all it had. -/
theorem exists_mem_set_iff {Instance : Type} {instances : List Instance} {index : Nat}
    {old new : Instance} {Has : Instance → Prop} (hold : instances[index]? = some old)
    (hgrow : Has old → Has new) : (∃ other ∈ instances.set index new, Has other) ↔
      (∃ other ∈ instances, Has other) ∨ Has new := by
  have hlt := (List.getElem?_eq_some_iff.mp hold).1
  constructor
  · rintro ⟨other, hother, hhas⟩
    rcases mem_or_eq_of_mem_set hother with hmem | rfl
    · exact .inl ⟨other, hmem, hhas⟩
    · exact .inr hhas
  · rintro (⟨other, hother, hhas⟩ | hhas)
    · obtain ⟨place, hplace⟩ := mem_iff_getElem?.mp hother
      by_cases hsame : index = place
      · subst hsame
        cases hold.symm.trans hplace
        exact ⟨new, mem_set hlt _, hgrow hhas⟩
      · refine ⟨other, mem_iff_getElem?.mpr ⟨place, ?_⟩, hhas⟩
        rw [getElem?_set_ne hsame, hplace]
    · exact ⟨new, mem_set hlt _, hhas⟩

namespace Site

/-- Storage holds the entries of the ledgers and the rulings of the overlays and nothing else, and
every gate is one that calls have led to. -/
structure Stored (site : Site) : Prop where
  records : ∀ identity data, site.storage.blobs.get? (Ledger.key identity) = some data ↔
    ∃ entry, site.Admitted entry ∧ entry.identity = identity ∧ entry.canonicalBytes = data
  rulings : ∀ position data, site.storage.blobs.get? (Overlay.key position) = some data ↔
    ∃ place ruling, site.Ruled place ruling ∧ position = place + 1 ∧ ruling.bytes = data
  sound : ∀ gate ∈ site.gates, ∃ storage offered, Desk.Sound ⟨gate, storage, offered⟩

theorem stored_fresh (answers : Nat → WriteOutcome) : (fresh answers).Stored where
  records identity data := by
    refine iff_of_false (fun hstored ↦ ?_) ?_
    · cases hstored
    · rintro ⟨entry, ⟨gate, hgate, -⟩, -⟩
      cases hgate
  rulings position data := by
    refine iff_of_false (fun hstored ↦ ?_) ?_
    · cases hstored
    · rintro ⟨place, ruling, ⟨overlay, hoverlay, -⟩, -⟩
      cases hoverlay
  sound gate hgate := by cases hgate

variable {site : Site}

/-- A site with the same entries, rulings and bytes. -/
theorem Stored.congr (hstored : site.Stored) {next : Site}
    (hblobs : next.storage.blobs = site.storage.blobs)
    (hadmitted : ∀ entry, next.Admitted entry ↔ site.Admitted entry)
    (hruled : ∀ place ruling, next.Ruled place ruling ↔ site.Ruled place ruling)
    (hsound : ∀ gate ∈ next.gates, ∃ storage offered, Desk.Sound ⟨gate, storage, offered⟩) :
    next.Stored where
  records identity data := by
    rw [hblobs, hstored.records]
    simp only [hadmitted]
  rulings position data := by
    rw [hblobs, hstored.rulings]
    simp only [hruled]
  sound := hsound

/-- A gate that a call leaves is again one that calls have led to. -/
theorem Stored.sound_set (hstored : site.Stored) {index : Nat} {gate next : Gate}
    (hgate : site.gates[index]? = some gate)
    (hnext : ∀ storage offered, Desk.Sound ⟨gate, storage, offered⟩ →
      ∃ storage offered, Desk.Sound ⟨next, storage, offered⟩) :
    ∀ other ∈ site.gates.set index next, ∃ storage offered, Desk.Sound
      ⟨other, storage, offered⟩ := by
  intro other hother
  rcases mem_or_eq_of_mem_set hother with hmem | rfl
  · exact hstored.sound other hmem
  · obtain ⟨storage, offered, hsound⟩ := hstored.sound gate (mem_of_getElem? hgate)
    exact hnext storage offered hsound

variable {call : SiteCall}

/-- A call that writes nothing and admits nothing. -/
theorem keeps_of_blobs_eq (hblobs : (site.step call).storage.blobs = site.storage.blobs)
    (hidle : ∀ index record gate position, call = .offer index record →
      site.gates[index]? = some gate →
        (gate.admitRecord site.storage record).result ≠ .ok (.admitted position)) :
    site.Keeps call where
  records identity data hdata := by rwa [hblobs]
  rulings position data hdata := by rwa [hblobs]
  units index record gate position hcall hgate hadmitted :=
    absurd hadmitted (hidle index record gate position hcall hgate)

/-! ### A record is offered -/

section Offer

variable {index : Nat} {gate : Gate} {record : Record}

theorem step_offer (hgate : site.gates[index]? = some gate) : site.step (.offer index record) =
      { site with
        storage := (gate.admitRecord site.storage record).storage
        gates := site.gates.set index (gate.admitRecord site.storage record).gate } := by
  rw [step, hgate]

theorem sound_offer (hstored : site.Stored) (hgate : site.gates[index]? = some gate) :
    ∀ other ∈ site.gates.set index (gate.admitRecord site.storage record).gate,
      ∃ storage offered, Desk.Sound ⟨other, storage, offered⟩ :=
  hstored.sound_set hgate fun _ _ hsound ↦
    ⟨_, _, (hsound.over site.storage).step (.offer record)⟩

/-- A record that the ledger does not take leaves all bytes and entries. -/
theorem stored_offer_refused (hstored : site.Stored) (hgate : site.gates[index]? = some gate)
    (hrefused : ¬gate.Takes site.storage record) : (site.step (.offer index record)).Stored ∧
      (site.step (.offer index record)).storage.blobs = site.storage.blobs := by
  obtain ⟨hledger, hblobs, -⟩ := Gate.admit_kept hrefused
  rw [step_offer hgate]
  refine ⟨hstored.congr hblobs (fun entry ↦ ?_) (fun _ _ ↦ Iff.rfl) (sound_offer hstored hgate),
    hblobs⟩
  have hsame : entry ∈ gate.ledger.entries ↔
      entry ∈ (gate.admitRecord site.storage record).gate.ledger.entries := by rw [hledger]
  have hgate' := mem_of_getElem? hgate
  refine (exists_mem_set_iff hgate hsame.mp).trans (or_iff_left_of_imp fun hentry ↦ ?_)
  exact ⟨gate, hgate', hsame.mpr hentry⟩

theorem admitted_offer (hgate : site.gates[index]? = some gate)
    (htakes : gate.Takes site.storage record) (entry : Record) :
    (site.step (.offer index record)).Admitted entry ↔ site.Admitted entry ∨ entry = record := by
  have hentries : ∀ other, other ∈ (gate.admitRecord site.storage record).gate.ledger.entries ↔
      other ∈ gate.ledger.entries ∨ other = record := by
    intro other
    rw [htakes.appends.1, mem_append, mem_singleton]
  rw [step_offer hgate]
  refine (exists_mem_set_iff hgate fun hentry ↦ (hentries entry).mpr (.inl hentry)).trans ?_
  constructor
  · rintro (hadmitted | hentry)
    · exact .inl hadmitted
    · rcases (hentries entry).mp hentry with hold | rfl
      · exact .inl ⟨gate, mem_of_getElem? hgate, hold⟩
      · exact .inr rfl
  · rintro (hadmitted | rfl)
    · exact .inl hadmitted
    · exact .inr ((hentries entry).mpr (.inr rfl))

theorem get?_offer (hgate : site.gates[index]? = some gate)
    (htakes : gate.Takes site.storage record) (key : String) :
    (site.step (.offer index record)).storage.blobs.get? key =
      if Ledger.key record.identity = key then some record.canonicalBytes
      else site.storage.blobs.get? key := by
  rw [step_offer hgate]
  rw [htakes.appends.2, Storage.get?_write]
  simp only [htakes.committed, true_and]

theorem stored_offer (hstored : site.Stored) (hgate : site.gates[index]? = some gate)
    (htakes : gate.Takes site.storage record) (hheeds : SiteCall.Heeds site (.offer index record)) :
    (site.step (.offer index record)).Stored where
  records identity data := by
    rw [get?_offer hgate htakes]
    simp only [admitted_offer hgate htakes]
    split
    · next hkey =>
      cases Ledger.key_inj hkey
      constructor
      · rintro ⟨⟩
        exact ⟨record, .inr rfl, rfl, rfl⟩
      · rintro ⟨entry, hadmitted | rfl, hid, rfl⟩
        · rw [((hheeds gate hgate htakes entry hadmitted).2 hid)]
        · rfl
    · next hkey =>
      rw [hstored.records]
      refine exists_congr fun entry ↦ and_congr_left fun hentry ↦ (or_iff_left ?_).symm
      rintro rfl
      exact hkey (hentry.1 ▸ rfl)
  rulings position data := by
    rw [get?_offer hgate htakes, if_neg (Ledger.key_ne_overlay _ _), hstored.rulings,
      step_offer hgate]
    rfl
  sound := by
    rw [step_offer hgate]
    exact sound_offer hstored hgate

theorem keeps_offer_iff (hstored : site.Stored) (hgate : site.gates[index]? = some gate) :
    site.Keeps (.offer index record) ↔ SiteCall.Heeds site (.offer index record) := by
  by_cases htakes : gate.Takes site.storage record
  swap
  · refine iff_of_true (keeps_of_blobs_eq (stored_offer_refused hstored hgate htakes).2 ?_) ?_
    · rintro other offered called position ⟨⟩ hcalled
      cases hgate.symm.trans hcalled
      exact (Gate.admit_kept htakes).2.2 position
    · intro called hcalled htaken
      cases hgate.symm.trans hcalled
      exact absurd htaken htakes
  constructor
  · rintro hkeeps called hcalled - entry hadmitted
    cases hgate.symm.trans hcalled
    obtain ⟨position, hposition⟩ := htakes.admitted
    refine ⟨hkeeps.units index record gate position rfl hgate hposition entry hadmitted,
      fun hid ↦ ?_⟩
    have hbytes := hkeeps.records entry.identity entry.canonicalBytes
      ((hstored.records _ _).mpr ⟨entry, hadmitted, rfl, rfl⟩)
    rw [get?_offer hgate htakes, hid, if_pos rfl] at hbytes
    exact (Option.some.inj hbytes).symm
  · intro hheeds
    refine ⟨fun identity data hdata ↦ ?_, fun position data hdata ↦ ?_, ?_⟩
    · rw [get?_offer hgate htakes]
      split
      · next hkey =>
        obtain ⟨entry, hadmitted, hid, rfl⟩ := (hstored.records identity data).mp hdata
        rw [((hheeds gate hgate htakes entry hadmitted).2 (hid.trans (Ledger.key_inj hkey).symm))]
      · exact hdata
    · rwa [get?_offer hgate htakes, if_neg (Ledger.key_ne_overlay _ _)]
    · rintro other offered called position ⟨⟩ hcalled - entry hadmitted
      exact (hheeds gate hgate htakes entry hadmitted).1

end Offer

section Rule

variable {index : Nat} {overlay : Overlay} {note : Annotation}

section

variable (hoverlay : site.overlays[index]? = some overlay)

include hoverlay

theorem step_rule_committed
    (hanswer : site.storage.answer = .committed) : site.step (.rule index note) = { site with
        storage := site.storage.write (Overlay.key (overlay.currentPosition + 1)) note.bytes
        overlays := site.overlays.set index ⟨overlay.entries ++ [note]⟩ } := by
  rw [step, hoverlay]
  dsimp only [Overlay.append]
  rw [hanswer]

/-- A ruling that storage does not commit leaves all bytes and rulings. -/
theorem step_rule_refused (hanswer : site.storage.answer ≠ .committed) :
    (site.step (.rule index note)).storage.blobs = site.storage.blobs ∧
      (site.step (.rule index note)).gates = site.gates ∧
        (site.step (.rule index note)).overlays = site.overlays := by
  rw [step, hoverlay]
  dsimp only [Overlay.append]
  rcases hcase : site.storage.answer with _ | _ | _
  · exact absurd hcase hanswer
  · exact ⟨by simp [Storage.write, hcase], rfl, rfl⟩
  · exact ⟨by simp [Storage.write, hcase], rfl, rfl⟩

theorem ruled_rule
    (hanswer : site.storage.answer = .committed) (place : Nat) (ruling : Annotation) :
    (site.step (.rule index note)).Ruled place ruling ↔
      site.Ruled place ruling ∨ place = overlay.currentPosition ∧ ruling = note := by
  have hentries : (overlay.entries ++ [note])[place]? = some ruling ↔
      overlay.entries[place]? = some ruling ∨
        place = overlay.currentPosition ∧ ruling = note := by
    rw [getElem?_append]
    split
    · next hlt =>
      refine (or_iff_left ?_).symm
      rintro ⟨rfl, -⟩
      exact absurd hlt (Nat.lt_irrefl _)
    · next hge =>
      rw [getElem?_eq_none (Nat.not_lt.mp hge), getElem?_singleton]
      unfold Overlay.currentPosition
      constructor
      · intro hlast
        split at hlast
        · next hzero => exact .inr ⟨by omega, (Option.some.inj hlast).symm⟩
        · cases hlast
      · rintro (hnone | ⟨rfl, rfl⟩)
        · cases hnone
        · rw [if_pos (Nat.sub_self _)]
  rw [step_rule_committed hoverlay hanswer]
  refine (exists_mem_set_iff hoverlay fun hruling ↦ hentries.mpr (.inl hruling)).trans ?_
  constructor
  · rintro (hruled | hruling)
    · exact .inl hruled
    · rcases hentries.mp hruling with hold | hlast
      · exact .inl ⟨overlay, mem_of_getElem? hoverlay, hold⟩
      · exact .inr hlast
  · rintro (hruled | hlast)
    · exact .inl hruled
    · exact .inr (hentries.mpr (.inr hlast))

theorem get?_rule (hanswer : site.storage.answer = .committed) (key : String) :
    (site.step (.rule index note)).storage.blobs.get? key =
      if Overlay.key (overlay.currentPosition + 1) = key then some note.bytes
      else site.storage.blobs.get? key := by
  rw [step_rule_committed hoverlay hanswer]
  rw [Storage.get?_write]
  simp only [hanswer, true_and]

end

theorem stored_rule (hstored : site.Stored) (hoverlay : site.overlays[index]? = some overlay)
    (hheeds : SiteCall.Heeds site (.rule index note)) : (site.step (.rule index note)).Stored := by
  by_cases hanswer : site.storage.answer = .committed
  swap
  · obtain ⟨hblobs, hgates, hoverlays⟩ := @step_rule_refused site index overlay note
      hoverlay hanswer
    refine hstored.congr hblobs (fun entry ↦ ?_) (fun place ruling ↦ ?_) (hgates ▸ hstored.sound)
    · rw [Admitted, hgates, Admitted]
    · rw [Ruled, hoverlays, Ruled]
  constructor
  · intro identity data
    rw [get?_rule hoverlay hanswer, if_neg (Ledger.key_ne_overlay _ _).symm, hstored.records,
      step_rule_committed hoverlay hanswer]
    rfl
  · intro position data
    rw [get?_rule hoverlay hanswer]
    simp only [ruled_rule hoverlay hanswer]
    split
    · next hkey =>
      cases Overlay.key_inj hkey
      constructor
      · rintro ⟨⟩
        exact ⟨_, note, .inr ⟨rfl, rfl⟩, rfl, rfl⟩
      · rintro ⟨place, ruling, hruled | ⟨-, rfl⟩, hplace, rfl⟩
        · cases Nat.succ_injective hplace
          rw [hheeds overlay hoverlay hanswer ruling hruled]
        · rfl
    · next hkey =>
      rw [hstored.rulings]
      refine exists_congr fun place ↦ exists_congr fun ruling ↦ and_congr_left fun hruling ↦
        (or_iff_left ?_).symm
      rintro ⟨rfl, -⟩
      exact hkey (hruling.1 ▸ rfl)
  · rw [step_rule_committed hoverlay hanswer]
    exact hstored.sound

theorem keeps_rule_iff (hstored : site.Stored) (hoverlay : site.overlays[index]? = some overlay) :
    site.Keeps (.rule index note) ↔ SiteCall.Heeds site (.rule index note) := by
  by_cases hanswer : site.storage.answer = .committed
  swap
  · obtain ⟨hblobs, -, -⟩ := @step_rule_refused site index overlay note hoverlay hanswer
    refine iff_of_true (keeps_of_blobs_eq hblobs ?_) ?_
    · rintro _ _ _ _ ⟨⟩
    · rintro called hcalled hcommitted
      exact absurd hcommitted hanswer
  constructor
  · rintro hkeeps called hcalled - ruling hruled
    cases hoverlay.symm.trans hcalled
    have hbytes := hkeeps.rulings (overlay.currentPosition + 1) ruling.bytes
      ((hstored.rulings _ _).mpr ⟨_, ruling, hruled, rfl, rfl⟩)
    rw [get?_rule hoverlay hanswer, if_pos rfl] at hbytes
    exact (Option.some.inj hbytes).symm
  · intro hheeds
    refine ⟨fun identity data hdata ↦ ?_, fun position data hdata ↦ ?_, ?_⟩
    · rwa [get?_rule hoverlay hanswer, if_neg (Ledger.key_ne_overlay _ _).symm]
    · rw [get?_rule hoverlay hanswer]
      split
      · next hkey =>
        obtain ⟨place, ruling, hruled, hplace, rfl⟩ := (hstored.rulings position data).mp hdata
        cases Nat.succ_injective ((Overlay.key_inj hkey).trans hplace)
        rw [hheeds overlay hoverlay hanswer ruling hruled]
      · exact hdata
    · rintro _ _ _ _ ⟨⟩

end Rule

/-- Calls that write nothing. -/
theorem stored_quiet (hstored : site.Stored)
    (hquiet : (∀ index record, call ≠ .offer index record) ∧
      ∀ index note, call ≠ .rule index note) :
    (site.step call).Stored ∧ (site.step call).storage = site.storage := by
  cases call with
  | openLedger vocabulary =>
    refine ⟨hstored.congr rfl (fun entry ↦ ?_) (fun _ _ ↦ Iff.rfl) fun gate hgate ↦ ?_, rfl⟩
    · simp [Admitted, step, or_and_right, exists_or, Gate.new, Ledger.empty]
    · rcases mem_append.mp hgate with hold | hnew
      · exact hstored.sound gate hold
      · cases mem_singleton.mp hnew
        exact ⟨site.storage, [], Desk.sound_new vocabulary site.storage⟩
  | openOverlay =>
    refine ⟨hstored.congr rfl (fun _ ↦ Iff.rfl) (fun place ruling ↦ ?_) hstored.sound, rfl⟩
    simp [Ruled, step, or_and_right, exists_or, Overlay.empty]
  | adoptVocabulary index vocabulary =>
    rcases hgate : site.gates[index]? with _ | gate
    · rw [step, hgate]
      exact ⟨hstored, rfl⟩
    rcases hadopted : gate.adoptVocabulary vocabulary with refusal | next
    · simp only [step, hgate, hadopted]
      exact ⟨hstored, trivial⟩
    simp only [step, hgate, hadopted]
    unfold Gate.adoptVocabulary at hadopted
    split at hadopted <;> cases hadopted
    refine ⟨hstored.congr rfl (fun entry ↦ ?_) (fun _ _ ↦ Iff.rfl) (hstored.sound_set hgate ?_),
      trivial⟩
    · have hsame : entry ∈ gate.ledger.entries →
          entry ∈ ({ gate with vocabulary := vocabulary } : Gate).ledger.entries := id
      refine (exists_mem_set_iff hgate hsame).trans (or_iff_left_of_imp fun hentry ↦ ?_)
      exact ⟨gate, mem_of_getElem? hgate, hentry⟩
    · rintro storage offered hsound
      exact ⟨storage, offered, hsound.attestations, hsound.indexed, hsound.answers⟩
  | offer index record => exact absurd rfl (hquiet.1 index record)
  | rule index note => exact absurd rfl (hquiet.2 index note)

theorem Stored.keeps_iff_heeds (hstored : site.Stored) (call : SiteCall) :
    site.Keeps call ↔ call.Heeds site := by
  cases call with
  | offer index record =>
    rcases hgate : site.gates[index]? with _ | gate
    · refine iff_of_true (keeps_of_blobs_eq (by rw [step, hgate]) ?_) ?_
      · rintro other offered called position ⟨⟩ hcalled
        cases hgate.symm.trans hcalled
      · rintro called hcalled
        cases hgate.symm.trans hcalled
    · exact keeps_offer_iff hstored hgate
  | rule index note =>
    rcases hoverlay : site.overlays[index]? with _ | overlay
    · refine iff_of_true (keeps_of_blobs_eq (by rw [step, hoverlay]) (by simp)) ?_
      rintro called hcalled
      cases hoverlay.symm.trans hcalled
    · exact keeps_rule_iff hstored hoverlay
  | openLedger _ | openOverlay | adoptVocabulary _ _ =>
    refine iff_of_true (keeps_of_blobs_eq ?_ (by simp)) trivial
    rw [(stored_quiet hstored ⟨by simp, by simp⟩).2]

theorem Stored.step (hstored : site.Stored) (hheeds : call.Heeds site) :
    (site.step call).Stored := by
  cases call with
  | offer index record =>
    rcases hgate : site.gates[index]? with _ | gate
    · rwa [Site.step, hgate]
    by_cases htakes : gate.Takes site.storage record
    · exact stored_offer hstored hgate htakes hheeds
    · exact (stored_offer_refused hstored hgate htakes).1
  | rule index note =>
    rcases hoverlay : site.overlays[index]? with _ | overlay
    · rwa [Site.step, hoverlay]
    · exact stored_rule hstored hoverlay hheeds
  | openLedger _ | openOverlay | adoptVocabulary _ _ =>
    exact (stored_quiet hstored ⟨by simp, by simp⟩).1

/-- In a run, every call keeps what is stored, and admits no unit a second time, if and only if
every call heeds the instances opened before it. -/
theorem keeps_iff (answers : Nat → WriteOutcome) (calls : List SiteCall) :
    Chained (fun before call ↦ (run answers before).Keeps call) [] calls ↔
      Chained (fun before call ↦ call.Heeds (run answers before)) [] calls := by
  refine (chained_congr fun earlier call hheeds ↦ ?_).symm
  have hstored : (run answers ([] ++ earlier)).Stored :=
    hheeds.invariant (stored_fresh answers) fun before called hbefore hcalled ↦ hbefore.step hcalled
  exact (hstored.keeps_iff_heeds call).symm

theorem singleton_ne_nil (target : String) : [target] ≠ [] := List.cons_ne_nil _ _

/-- A ruling that deprecates one record. -/
def deprecating (target : String) : Annotation where
  kind := .deprecation
  targetIds := [target]
  reason := "r"
  citedEvidence := ["episode:e2"]
  targeted := singleton_ne_nil target
  reasoned := by decide
  cited := List.cons_ne_nil _ _

/-- A second overlay writes its first ruling over that of the first one, and a second ledger admits
the unit that the first one has admitted. -/
theorem not_keeps_reopened :
    (¬Chained (fun before call ↦ (run committing.answers before).Keeps call) []
      [.openOverlay, .rule 0 (deprecating "episode:e1"), .openOverlay,
        .rule 1 (deprecating "episode:e3")]) ∧
    ¬Chained (fun before call ↦ (run committing.answers before).Keeps call) []
      [.openLedger ⟨1, ["ros2"]⟩, .offer 0 (firstEpisode "trace:t1" (by decide)), .openLedger
        ⟨1, ["ros2"]⟩, .offer 1 (firstEpisode "trace:t1" (by decide))] := by
  constructor
  · intro hkeeps
    have hfirst := hkeeps.2.2.2.1.rulings 1 (deprecating "episode:e1").bytes (by decide +kernel)
    exact absurd hfirst (by decide +kernel)
  · intro hkeeps
    refine hkeeps.2.2.2.1.units 1 (firstEpisode "trace:t1" (by decide)) (.new ⟨1, ["ros2"]⟩) 1 rfl
      rfl (by decide +kernel) (firstEpisode "trace:t1" (by decide)) ⟨_, mem_cons_self, ?_⟩ rfl
    exact mem_cons_self

end Site

end AbsoluteZero.Lie

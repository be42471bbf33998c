import AbsoluteZero.Rsm.Registers
import AbsoluteZero.Rsm.Replay

/-!
# The metadata of a record

The journal metadata of a record is written at birth and by no reducer, so it names no applied event
at any later time (`World.metadata_truthful_iff`). The version and the numbers of the failure
entries do count what was applied (`World.counted`).
-/

namespace AbsoluteZero.Rsm

open Foundations List

def RequestRecord.NamesLast (record : RequestRecord) (entries : List JournalEntry) : Prop :=
  ∃ last, entries.getLast? = some last ∧ record.journalMeta.get? "seq" = some (.int last.seq) ∧
    record.journalMeta.get? "last_event_id" = some (.str last.eventId) ∧
    record.journalMeta.get? "reducer_version" = some (.int last.reducerVersion)

/-- The version counts the entries of the journal, and the failure entries are numbered. -/
structure RequestRecord.Counts (record : RequestRecord) (entries : List JournalEntry) : Prop where
  version : record.version + 1 = entries.length
  numbered : record.failure.map FailureEntry.seq = List.range record.failure.length

/-- A record as the calls leave it: it counts the entries, and its metadata is that of its birth. -/
structure RequestRecord.Stale (record : RequestRecord) (entries : List JournalEntry) : Prop
    extends record.Counts entries where
  unnamed : record.journalMeta.get? "last_event_id" = some .null

theorem Effect.numbered_failures (effect : Effect) (event : Event) {failure : List FailureEntry}
    (hnumbered : failure.map FailureEntry.seq = List.range failure.length) :
    (effect.failures event failure).map FailureEntry.seq =
      List.range (effect.failures event failure).length := by
  unfold Effect.failures
  split
  · exact hnumbered
  · rw [map_append, hnumbered, length_append, length_singleton, range_succ]
    rfl

/-- A reducer takes the version on by one and leaves the metadata. -/
theorem RequestRecord.Stale.reduce {floatSum : FloatSum} {record next : RequestRecord}
    {entries : List JournalEntry} {event : Event} {entry : JournalEntry}
    (hrecord : record.Stale entries) (hreduce : reduce floatSum record event = some (.ok next)) :
    next.Stale (entries ++ [entry]) := by
  obtain ⟨effect, changed, -, -, hfold, rfl⟩ := exists_changed_of_reduce hreduce
  obtain ⟨hversion, hmeta⟩ := Checked.foldlM_invariant (fun changed : RequestRecord ↦
      changed.version = record.version ∧ changed.journalMeta = record.journalMeta)
    (fun before change after _ hbefore happly ↦ by
      cases Change.makes_of_apply happly <;> exact hbefore) ⟨rfl, rfl⟩ hfold
  refine ⟨⟨?_, (effect event.payload).numbered_failures event hrecord.numbered⟩,
    hmeta.symm ▸ hrecord.unnamed⟩
  change changed.version + 1 + 1 = _
  rw [hversion, hrecord.version, length_append, length_singleton]

structure Request.Stale (request : Request) : Prop where
  absent : request.standing = .absent → request.entries = []
  record : ∀ record ∈ request.standing.record?, record.Stale request.entries

theorem Request.Stale.applies {floatSum : FloatSum} {request next : Request} {event : Event}
    (hrequest : request.Stale) (happlies : request.Applies floatSum event next) : next.Stale := by
  rcases request.process_cases floatSum event with ⟨-, hnot⟩ | ⟨standing, -, -, hreceive, happlied⟩
  · exact absurd (congrArg Prod.fst happlies) hnot
  obtain rfl : next = request.applied event standing :=
    congrArg Prod.snd (happlies.symm.trans happlied)
  obtain ⟨before, entries⟩ := request
  generalize hresult : Except.ok standing = result at hreceive
  cases receives_of_receive hreceive with
  | born =>
    cases hfields : birthReducer event <;> rw [hfields] at hresult <;> cases hresult
    refine ⟨nofun, ?_⟩
    rintro record ⟨⟩
    obtain rfl : entries = [] := hrequest.absent rfl
    exact ⟨⟨rfl, rfl⟩, rfl⟩
  | @goes record reduced hreduce | @ends record reduced hreduce | @late record reduced hreduce
  | @kept record since reduced hreduce =>
    cases reduced <;> cases hresult
    refine ⟨nofun, ?_⟩
    rintro other ⟨⟩
    exact (hrequest.record record rfl).reduce hreduce

namespace World

variable {floatSum : FloatSum} {operations : List Operation} {requestId : String}
  {record : RequestRecord}

/-- Assumes: no call plants a record. Every record is stale. -/
theorem stale_run (hplain : ∀ operation ∈ operations, operation.Plain)
    (hrecord : (empty.run floatSum operations).ingest.store.get? requestId = some record) :
    record.Stale ((empty.run floatSum operations).ingest.journal.entries requestId) := by
  have hrun := @represents_run empty _ Ingest.represents_empty floatSum operations
  have hlive : (empty.run floatSum operations).ingest.store.stateOf requestId ≠ .evicted := by
    rw [hrun.get?] at hrecord
    rw [hrun.stateOf]
    generalize Request.standing _ = standing at hrecord ⊢
    cases standing with
    | evicted => cases hrecord
    | absent | active | terminal | persisted => exact nofun
  obtain ⟨final, hreads, hfinal, hentries⟩ := reads_appliedEvents floatSum hplain requestId hlive
  have hstale := hreads.keeps ⟨fun _ ↦ rfl, nofun⟩ fun _ _ _ _ hstep hrequest ↦
    Request.Stale.applies hrequest hstep
  rw [hentries]
  exact hstale.record record (hfinal ▸ hrecord)

/-- Assumes: no call plants a record. The metadata names the last entry of the journal only where
there is no record; and the version and the failure entries are counted everywhere. -/
theorem metadata_truthful_iff (floatSum : FloatSum) (operations : List Operation)
    (hplain : ∀ operation ∈ operations, operation.Plain) (requestId : String) :
    let ingest := (empty.run floatSum operations).ingest
    ((∀ record, ingest.store.get? requestId = some record →
        record.NamesLast (ingest.journal.entries requestId)) ↔
      ingest.store.get? requestId = none) ∧
    ∀ record, ingest.store.get? requestId = some record →
      record.Counts (ingest.journal.entries requestId) := by
  refine ⟨⟨fun hnames ↦ ?_, fun hnone record hrecord ↦ ?_⟩, fun record hrecord ↦
    (stale_run hplain hrecord).toCounts⟩
  · by_contra hsome
    obtain ⟨record, hrecord⟩ := Option.ne_none_iff_exists'.mp hsome
    obtain ⟨last, -, -, hlast, -⟩ := hnames record hrecord
    cases hlast.symm.trans (stale_run hplain hrecord).unnamed
  · cases hnone.symm.trans hrecord

/-- A request that was born has a record, so its metadata does not name its last entry. -/
theorem metadata_truthful_iff_sample :
    let ingest := (empty.run noFloats [.process sampleBirth]).ingest
    ((∀ record, ingest.store.get? "r1" = some record →
        record.NamesLast (ingest.journal.entries "r1")) ↔ ingest.store.get? "r1" = none) ∧
    ∀ record, ingest.store.get? "r1" = some record →
      record.Counts (ingest.journal.entries "r1") :=
  metadata_truthful_iff noFloats _ (by simp [Operation.Plain]) "r1"

theorem metadata_not_truthful :
    ∃ record, (empty.run noFloats [.process sampleBirth]).ingest.store.get? "r1" = some record ∧
      ¬ record.NamesLast
        ((empty.run noFloats [.process sampleBirth]).ingest.journal.entries "r1") := by
  refine ⟨birth "r1" ((OrderedDict.empty.insert "declared_type" (.str "type.alpha")).insert "origin"
    (.str "frontend")), by decide +kernel, ?_⟩
  rintro ⟨last, -, -, hlast, -⟩
  cases hlast

end World

end AbsoluteZero.Rsm

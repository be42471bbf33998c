import AbsoluteZero.Foundations.SeparatedText
import AbsoluteZero.Rsm.Registers
import AbsoluteZero.Rsm.Retention

/-!
# Recovery from a checkpoint

A checkpoint holds the record of a request and the prefix of its journal under a key of its own
(`checkpointKey_inj`). Recovery plants it and folds the events applied since, which leads to the
live record and journal (`World.recovers`). It always plants an active request, also where the live
one is terminal.
-/

namespace AbsoluteZero.Rsm

open Foundations OrderedDict SeparatedText List

/-! ### String keys -/

/-- The values of the payload that the reducer of the event uses as keys: the task, the execution,
the step or the gate. -/
def Event.keys (event : Event) : List Json :=
  match OrderedDict.find event.family effects with
  | none => []
  | some effect => (effect event.payload).changes.filterMap Change.key?

def Event.TextKeyed (event : Event) : Prop := ∀ key ∈ event.keys, ∃ text, key = .str text

instance (key : Json) : Decidable (∃ text, key = .str text) :=
  match key with
  | .str text => .isTrue ⟨text, rfl⟩
  | .null | .bool _ | .int _ | .float _ _ | .arr _ | .obj _ => .isFalse nofun

instance (event : Event) : Decidable event.TextKeyed :=
  inferInstanceAs (Decidable (∀ key ∈ event.keys, ∃ text, key = .str text))

structure RequestRecord.TextKeyed (record : RequestRecord) : Prop where
  tasks : record.work.tasks.TextKeyed
  execs : record.work.execs.TextKeyed
  context : record.context.TextKeyed
  verification : record.verification.TextKeyed

variable {record : RequestRecord}

theorem RequestRecord.throughJson_eq_self (hrecord : record.TextKeyed) :
    record.throughJson = record := by
  unfold throughJson
  rw [PyDict.throughJson_eq_self hrecord.tasks, PyDict.throughJson_eq_self hrecord.execs,
    PyDict.throughJson_eq_self hrecord.context, PyDict.throughJson_eq_self hrecord.verification]

theorem textKeyed_birth (requestId : String) (fields : Block) :
    (birth requestId fields).TextKeyed :=
  ⟨PyDict.textKeyed_empty, PyDict.textKeyed_empty, PyDict.textKeyed_empty, PyDict.textKeyed_empty⟩

variable {floatSum : FloatSum}

theorem Change.textKeyed_apply {record next : RequestRecord} {change : Change}
    (hrecord : record.TextKeyed) (hkey : ∀ key ∈ change.key?, ∃ text, key = .str text)
    (happly : change.apply floatSum record = .ok next) : next.TextKeyed := by
  cases Change.makes_of_apply happly with
  | plan | commit | meter | lifecycle =>
    exact { hrecord with }
  | @task object key fields hobject =>
    obtain ⟨text, rfl⟩ := hkey object rfl
    cases hobject
    exact ⟨hrecord.tasks.write text _, hrecord.execs, hrecord.context, hrecord.verification⟩
  | @exec object key fields hobject =>
    obtain ⟨text, rfl⟩ := hkey object rfl
    cases hobject
    exact ⟨hrecord.tasks, hrecord.execs.write text _, hrecord.context, hrecord.verification⟩
  | @context object key value hobject =>
    obtain ⟨text, rfl⟩ := hkey object rfl
    cases hobject
    exact { hrecord with context := hrecord.context.write text value }
  | @gate object key entry hobject =>
    obtain ⟨text, rfl⟩ := hkey object rfl
    cases hobject
    exact { hrecord with verification := hrecord.verification.write text entry }

variable {event : Event}

/-- Assumes: the keys of the event are strings. A reducer keeps the dicts keyed by strings. -/
theorem textKeyed_reduce {record next : RequestRecord}
    (hrecord : record.TextKeyed) (hevent : event.TextKeyed)
    (hreduce : reduce floatSum record event = some (.ok next)) : next.TextKeyed := by
  obtain ⟨effect, changed, heffect, -, hfold, rfl⟩ := exists_changed_of_reduce hreduce
  have hkeys : event.keys = (effect event.payload).changes.filterMap Change.key? := by
    unfold Event.keys
    rw [heffect]
  have hchanged := Checked.foldlM_invariant RequestRecord.TextKeyed
    (fun record change next hchange hrecord happly ↦ change.textKeyed_apply hrecord
      (fun key hkey ↦ hevent key (hkeys ▸ mem_filterMap.mpr ⟨change, hchange, hkey⟩)) happly)
    hrecord hfold
  exact { hchanged with }

/-- The record of a standing, if it has one, is keyed by strings. -/
def Standing.TextKeyed (standing : Standing) : Prop :=
  ∀ record ∈ standing.record?, record.TextKeyed

theorem textKeyed_receive {standing next : Standing}
    (hstanding : standing.TextKeyed) (hevent : event.TextKeyed)
    (hreceive : standing.receive floatSum event = some (.ok next)) : next.TextKeyed := by
  generalize hresult : Except.ok next = result at hreceive
  cases receives_of_receive hreceive with
  | born =>
    cases hfields : birthReducer event <;> rw [hfields] at hresult <;> cases hresult
    rintro record ⟨⟩
    exact textKeyed_birth _ _
  | @goes record reduced hreduce | @ends record reduced hreduce | @late record reduced hreduce
  | @kept record since reduced hreduce =>
    cases reduced <;> cases hresult
    rintro other ⟨⟩
    exact textKeyed_reduce (hstanding record rfl) hevent hreduce

variable {start final : Request} {events : List Event}

/-- Along events with string keys the record stays keyed by strings. -/
theorem textKeyed_of_reads (hreads : Reads (Request.Applies floatSum) start events final)
    (hstart : start.standing.TextKeyed) (hevents : ∀ event ∈ events, event.TextKeyed) :
    final.standing.TextKeyed := by
  refine @Reads.keeps Request Event _ (fun request ↦ request.standing.TextKeyed) _ _ _ hreads hstart
    fun request event next hevent hstep hrequest ↦ ?_
  rcases request.process_cases floatSum event with ⟨-, hnot⟩ | ⟨standing, -, -, hreceive, happlied⟩
  · exact absurd (congrArg Prod.fst hstep) hnot
  · obtain rfl : next = request.applied event standing :=
      congrArg Prod.snd (hstep.symm.trans happlied)
    exact textKeyed_receive hrequest (hevents event hevent) hreceive

/-! ### Entries -/

/-- The entries are numbered from zero, under the reducer version 1. -/
def Kept (entries : List JournalEntry) : Prop :=
  ∀ (index : Nat) (entry : JournalEntry), entries[index]? = some entry →
    entry.seq = index ∧ entry.reducerVersion = 1

/-- The journal of a request as its own calls leave it: numbered, and without an id twice. -/
structure Request.Sound (request : Request) : Prop where
  kept : Kept request.entries
  nodup : request.ids.Nodup

theorem Request.sound_new : Request.new.Sound := ⟨nofun, nodup_nil⟩

theorem Request.Sound.applied {request : Request} (hrequest : request.Sound)
    (hnew : event.eventId ∉ request.ids) (standing : Standing) :
    (request.applied event standing).Sound where
  kept := by
    intro index entry hentry
    unfold Request.applied at hentry
    rw [getElem?_append] at hentry
    split at hentry
    · exact hrequest.kept index entry hentry
    · next hindex =>
      rw [getElem?_singleton] at hentry
      split at hentry
      · cases hentry
        exact ⟨show request.entries.length = index by omega, rfl⟩
      · cases hentry
  nodup := by
    unfold Request.ids Request.applied
    rw [map_append, map_singleton]
    exact List.nodup_append.mpr ⟨hrequest.nodup, nodup_singleton _, by
      intro id hid other hother heq
      have hother : other = event.eventId := mem_singleton.mp hother
      exact hnew ((heq.trans hother) ▸ hid)⟩

theorem Request.Sound.of_reads
    (hreads : Reads (Request.Applies floatSum) start events final) (hstart : start.Sound) :
    final.Sound := by
  refine @Reads.keeps Request Event _ Request.Sound _ _ _ hreads hstart
    fun request event next _ hstep hrequest ↦ ?_
  rcases request.process_cases floatSum event with ⟨-, hnot⟩ | ⟨standing, -, hnew, -, happlied⟩
  · exact absurd (congrArg Prod.fst hstep) hnot
  · obtain rfl : next = request.applied event standing :=
      congrArg Prod.snd (hstep.symm.trans happlied)
    exact hrequest.applied hnew standing

/-- The sequence number that `write_checkpoint` takes from the entries. -/
def seqOf (entries : List JournalEntry) : Int :=
  match entries.getLast? with
  | some entry => entry.seq
  | none => -1

theorem seqOf_eq {entries : List JournalEntry} (hentries : Kept entries) :
    seqOf entries = entries.length - 1 := by
  unfold seqOf
  rw [getLast?_eq_getElem?]
  cases hlast : entries[entries.length - 1]? with
  | none =>
    have hlength : entries.length ≤ entries.length - 1 := List.getElem?_eq_none_iff.mp hlast
    have hzero : entries.length = 0 := by omega
    simp [hzero]
  | some entry =>
    obtain ⟨hseq, -⟩ := hentries _ entry hlast
    have hlength : entries.length - 1 < entries.length := (List.getElem?_eq_some_iff.mp hlast).1
    simp only [hseq]
    omega

theorem notMem_toString_int {separator : Char} (hdigit : separator.isDigit = false)
    (hsign : separator ≠ '-') (number : Int) : separator ∉ (toString number).toList := by
  cases number with
  | ofNat number => exact notMem_toString number hdigit
  | negSucc number =>
    have htext : (toString (Int.negSucc number)).toList =
        '-' :: (toString (number + 1)).toList := by
      change ("-" ++ toString (number + 1)).toList = _
      rw [String.toList_append]
      rfl
    rw [htext]
    intro hmem
    rcases mem_cons.mp hmem with heq | hrest
    · exact hsign heq
    · exact notMem_toString (number + 1) hdigit hrest

theorem toString_int_inj {first second : Int} (htext : toString first = toString second) :
    first = second := by
  have hsign : ∀ number : Nat, '-' ∈ (toString (Int.negSucc number)).toList := by
    intro number
    change '-' ∈ ("-" ++ toString (number + 1)).toList
    rw [String.toList_append]
    exact mem_append_left _ (mem_singleton.mpr rfl)
  have hplain : ∀ number : Nat, '-' ∉ (toString (Int.ofNat number)).toList :=
    fun number ↦ notMem_toString number rfl
  cases first with
  | ofNat first =>
    cases second with
    | ofNat second => exact congrArg Int.ofNat (toString_inj htext)
    | negSucc second => exact absurd (htext ▸ hsign second) (hplain first)
  | negSucc first =>
    cases second with
    | ofNat second => exact absurd (htext ▸ hsign first) (hplain second)
    | negSucc second =>
      have hlist := congrArg String.toList htext
      change ("-" ++ toString (first + 1)).toList = ("-" ++ toString (second + 1)).toList at hlist
      rw [String.toList_append, String.toList_append] at hlist
      have hnumber := toString_inj (String.toList_inj.mp
        (append_cancel_left hlist))
      rw [Nat.succ.inj hnumber]

theorem checkpointKey_inj {requestId other : String} {seq seq' : Int}
    (hkey : checkpointKey requestId seq = checkpointKey other seq') :
    requestId = other ∧ seq = seq' := by
  have hslash : ∀ number : Int, '/' ∉ (toString number).toList :=
    notMem_toString_int rfl (by decide)
  obtain ⟨hfirst, hsecond⟩ := separator_append_inj '/' (hslash seq) (hslash seq') hkey
  have hlist := congrArg String.toList hfirst
  rw [String.toList_append, String.toList_append] at hlist
  exact ⟨String.toList_inj.mp (append_cancel_left hlist), toString_int_inj hsecond⟩

theorem checkpointKey_ne_index (requestId other : String) (seq : Int) :
    checkpointKey requestId seq ≠ checkpointIndexKey other := by
  intro heq
  have hchar := congrArg (fun text : String ↦ text.toList[14]?) heq
  unfold checkpointKey checkpointIndexKey at hchar
  simp only [String.toList_append, append_assoc] at hchar
  rw [getElem?_append_left (by decide), getElem?_append_left (by decide)] at hchar
  exact absurd hchar (by decide)

/-! ### Checkpoints in storage -/

/-- A call that feeds an event or writes a checkpoint. -/
def Operation.Feeds : Operation → Prop
  | .process _ | .writeCheckpoint _ _ _ | .maybeCheckpoint _ _ _ _ => True
  | .persistTerminal _ _ _ _ | .evictGate _ _ _ | .seed _ _ | .reapplyJournalIndex _ _ => False

variable {operation : Operation}

theorem Operation.Feeds.plain (hfeeds : operation.Feeds) :
    operation.Plain := by
  cases operation with
  | seed => exact hfeeds
  | process | persistTerminal | evictGate | writeCheckpoint | maybeCheckpoint
  | reapplyJournalIndex => trivial

/-- The checkpoint that a call writes, if it writes one. -/
def World.checkpointWritten (world : World) : Operation → Option Checkpoint
  | .writeCheckpoint requestId taken indexTaken =>
    (world.writeCheckpoint requestId taken indexTaken).1.toOption
  | .maybeCheckpoint requestId checkpointN taken indexTaken =>
    (world.maybeCheckpoint requestId checkpointN taken indexTaken).1.toOption.join
  | _ => none

namespace World

variable {world : World} {requests : String → Request} {requestId : String}

theorem checkpointOf_eq (hrep : world.ingest.Represents requests) {record : RequestRecord}
    (hrecord : (requests requestId).standing.record? = some record) :
    world.checkpointOf requestId = .ok {
        requestId := requestId
        seq := seqOf (requests requestId).entries
        journalPrefix := (requests requestId).entries
        record := record } := by
  unfold checkpointOf
  rw [hrep.get?, hrecord]
  simp only [hrep.entries]
  rfl

theorem checkpointOf_of_absent (hrep : world.ingest.Represents requests)
    (hrecord : (requests requestId).standing.record? = none) :
    world.checkpointOf requestId = .error .attributeError := by
  unfold checkpointOf
  rw [hrep.get?, hrecord]

/-- What `write_checkpoint` does to storage: nothing, or the document under its key, and perhaps the
index of the latest checkpoint. -/
theorem storage_writeCheckpoint (world : World) (requestId : String) (taken indexTaken : Bool) :
    (world.writeCheckpoint requestId taken indexTaken).2.storage = world.storage ∨
      ∃ document, world.checkpointOf requestId = .ok document ∧
        ((world.writeCheckpoint requestId taken indexTaken).2.storage =
            world.storage.insert (checkpointKey requestId document.seq) (.checkpoint document) ∨
          (world.writeCheckpoint requestId taken indexTaken).2.storage =
            (world.storage.insert (checkpointKey requestId document.seq)
              (.checkpoint document)).insert
              (checkpointIndexKey requestId) (.checkpointIndex document.seq)) := by
  unfold writeCheckpoint write
  cases world.checkpointOf requestId with
  | error error => exact .inl rfl
  | ok document =>
    cases taken with
    | false => exact .inl rfl
    | true =>
      cases indexTaken with
      | false => exact .inr ⟨document, rfl, .inl rfl⟩
      | true => exact .inr ⟨document, rfl, .inr rfl⟩

/-- A checkpoint that `write_checkpoint` returns is in storage, next to its index. -/
theorem writeCheckpoint_returns {taken indexTaken : Bool} {document : Checkpoint}
    (hwritten : (world.writeCheckpoint requestId taken indexTaken).1 = .ok document) :
    world.checkpointOf requestId = .ok document ∧
      (world.writeCheckpoint requestId taken indexTaken).2.storage =
        (world.storage.insert (checkpointKey requestId document.seq) (.checkpoint document)).insert
          (checkpointIndexKey requestId) (.checkpointIndex document.seq) := by
  unfold writeCheckpoint write at hwritten ⊢
  cases hdocument : world.checkpointOf requestId with
  | error error =>
    rw [hdocument] at hwritten
    cases hwritten
  | ok other =>
    rw [hdocument] at hwritten
    cases taken with
    | false => cases hwritten
    | true =>
      cases indexTaken with
      | false => cases hwritten
      | true =>
        cases hwritten
        exact ⟨rfl, rfl⟩

/-- The call that writes a checkpoint is a `write_checkpoint` of the request that it names. -/
theorem exists_writeCheckpoint {floatSum : FloatSum} {operation : Operation} {document : Checkpoint}
    (hwritten : world.checkpointWritten operation = some document) : ∃ taken indexTaken,
      (world.writeCheckpoint operation.target taken indexTaken).1 = .ok document ∧
        world.perform floatSum operation =
          (world.writeCheckpoint operation.target taken indexTaken).2 := by
  cases operation with
  | writeCheckpoint requestId taken indexTaken =>
    refine ⟨taken, indexTaken, ?_, rfl⟩
    change (world.writeCheckpoint requestId taken indexTaken).1.toOption = some document at hwritten
    exact Checked.toOption_eq_some_iff.mp hwritten
  | maybeCheckpoint requestId checkpointN taken indexTaken =>
    change (world.maybeCheckpoint requestId checkpointN taken indexTaken).1.toOption.join =
      some document at hwritten
    rcases maybeCheckpoint_cases world requestId checkpointN taken indexTaken with hnone | hcall
    · rw [hnone] at hwritten
      cases hwritten
    · refine ⟨taken, indexTaken, ?_, congrArg Prod.snd hcall⟩
      rw [hcall] at hwritten
      obtain ⟨other, hother, ⟨⟩⟩ := Checked.map_eq_ok_iff.mp
        (Checked.toOption_eq_some_iff.mp (Option.join_eq_some_iff.mp hwritten))
      exact hother
  | process | persistTerminal | evictGate | seed | reapplyJournalIndex => cases hwritten

/-- A feeding call leaves storage as it is, or writes a checkpoint of the request that it names. -/
theorem storage_perform {floatSum : FloatSum} (hfeeds : operation.Feeds) :
    (world.perform floatSum operation).storage = world.storage ∨
      ∃ document, world.checkpointOf operation.target = .ok document ∧
        ((world.perform floatSum operation).storage = world.storage.insert
            (checkpointKey operation.target document.seq) (.checkpoint document) ∨
          (world.perform floatSum operation).storage = (world.storage.insert
            (checkpointKey operation.target document.seq) (.checkpoint document)).insert
              (checkpointIndexKey operation.target) (.checkpointIndex document.seq)) := by
  cases operation with
  | process event => exact .inl rfl
  | writeCheckpoint requestId taken indexTaken =>
    exact storage_writeCheckpoint world requestId taken indexTaken
  | maybeCheckpoint requestId checkpointN taken indexTaken =>
    rcases maybeCheckpoint_cases world requestId checkpointN taken indexTaken with hnone | hcall
    · exact .inl (congrArg (fun result ↦ result.2.storage) hnone)
    · have hstorage : (world.perform floatSum
          (.maybeCheckpoint requestId checkpointN taken indexTaken)).storage =
          (world.writeCheckpoint requestId taken indexTaken).2.storage :=
        congrArg (fun result ↦ result.2.storage) hcall
      rw [hstorage]
      exact storage_writeCheckpoint world requestId taken indexTaken
  | persistTerminal | evictGate | seed | reapplyJournalIndex => exact absurd hfeeds id

/-- Storage holds the checkpoint, and the request has moved on from it by applied events alone. -/
structure Stores (world : World) (request : Request) (document : Checkpoint) : Prop where
  stored : world.storage.get? (checkpointKey document.requestId document.seq) =
    some (.checkpoint document)
  grown : document.journalPrefix <+: request.entries
  same : document.journalPrefix = request.entries → request.standing.record? = some document.record
  numbered : document.seq = document.journalPrefix.length - 1

theorem Stores.perform {document : Checkpoint}
    (hstores : world.Stores (requests document.requestId) document)
    (hrep : world.ingest.Represents requests)
    (hkept : Kept (requests document.requestId).entries) (floatSum : FloatSum)
    (hfeeds : operation.Feeds) :
    (world.perform floatSum operation).Stores (Function.update requests operation.target
      ((requests operation.target).perform floatSum operation) document.requestId) document := by
  have hstored : (world.perform floatSum operation).storage.get?
      (checkpointKey document.requestId document.seq) = some (.checkpoint document) := by
    have hinsert : ∀ other, world.checkpointOf operation.target = .ok other →
        (world.storage.insert (checkpointKey operation.target other.seq) (.checkpoint other)).get?
          (checkpointKey document.requestId document.seq) = some (.checkpoint document) := by
      intro other hother
      rw [get?_insert]
      by_cases hkey : checkpointKey operation.target other.seq =
          checkpointKey document.requestId document.seq
      · rw [if_pos hkey]
        obtain ⟨hrequest, hseq⟩ := checkpointKey_inj hkey
        rw [hrequest] at hother
        cases hrecord : (requests document.requestId).standing.record? with
        | none =>
          rw [checkpointOf_of_absent hrep hrecord] at hother
          cases hother
        | some record =>
          rw [checkpointOf_eq hrep hrecord] at hother
          obtain rfl := Except.ok.inj hother
          have hcount : seqOf (requests document.requestId).entries = document.seq := hseq
          have hlength : document.journalPrefix.length =
              (requests document.requestId).entries.length := by
            have hnumbered := hstores.numbered
            rw [← hcount, seqOf_eq hkept] at hnumbered
            omega
          have hentries : document.journalPrefix = (requests document.requestId).entries :=
            hstores.grown.eq_of_length hlength
          have hsame := hstores.same hentries
          rw [hrecord] at hsame
          rw [hcount, ← hentries, Option.some.inj hsame]
      · rw [if_neg hkey]
        exact hstores.stored
    rcases storage_perform hfeeds with hsame | ⟨other, hother, hwritten | hindexed⟩
    · rw [hsame]
      exact hstores.stored
    · rw [hwritten]
      exact hinsert other hother
    · rw [hindexed, get?_insert,
        if_neg (checkpointKey_ne_index document.requestId operation.target document.seq).symm]
      exact hinsert other hother
  by_cases htarget : document.requestId = operation.target
  · rw [htarget, Function.update_self]
    have hrequest := hstores
    rw [htarget] at hrequest
    cases operation with
    | process event =>
      rcases (requests event.requestId).process_cases floatSum event with
        ⟨hsame, -⟩ | ⟨standing, -, -, -, happlied⟩
      · have hperform : (requests event.requestId).perform floatSum (.process event) =
            requests event.requestId := hsame
        change World.Stores _ ((requests event.requestId).perform floatSum (.process event)) _
        rw [hperform]
        exact ⟨hstored, hrequest.grown, hrequest.same, hrequest.numbered⟩
      · have hperform : (requests event.requestId).perform floatSum (.process event) =
            (requests event.requestId).applied event standing := congrArg Prod.snd happlied
        change World.Stores _ ((requests event.requestId).perform floatSum (.process event)) _
        rw [hperform]
        refine ⟨hstored, hrequest.grown.trans (prefix_append _ _), fun heq ↦ ?_,
          hrequest.numbered⟩
        have hlength : document.journalPrefix.length ≤ (requests event.requestId).entries.length :=
          hrequest.grown.length_le
        rw [heq] at hlength
        change ((requests event.requestId).entries ++ _).length ≤ _ at hlength
        rw [length_append, length_singleton] at hlength
        exact absurd hlength (Nat.not_succ_le_self _)
    | writeCheckpoint | maybeCheckpoint =>
      exact ⟨hstored, hrequest.grown, hrequest.same, hrequest.numbered⟩
    | persistTerminal | evictGate | seed | reapplyJournalIndex => exact absurd hfeeds id
  · rw [Function.update_of_ne htarget]
    exact ⟨hstored, hstores.grown, hstores.same, hstores.numbered⟩

end World

/-! ### The live run -/

namespace Request

variable {request : Request}

/-- A feeding call keeps a request absent, active or terminal. -/
theorem rank_perform {floatSum : FloatSum}
    (hfeeds : operation.Feeds) (hrequest : request.standing.state.rank ≤ 2) :
    (request.perform floatSum operation).standing.state.rank ≤ 2 := by
  have hmoves := moves_of_perform floatSum request operation
  generalize (request.perform floatSum operation).standing = next at hmoves ⊢
  generalize request.standing = standing at hmoves hrequest
  cases hmoves with
  | stays hstate _ =>
    rw [hstate]
    exact hrequest
  | born => exact Nat.le_succ 1
  | ends => exact le_rfl
  | persists | evicts => exact absurd hfeeds id

theorem rank_run {floatSum : FloatSum} {request : Request} {operations : List Operation}
    (hfeeds : ∀ operation ∈ operations, operation.Feeds)
    (hrequest : request.standing.state.rank ≤ 2) :
    (request.run floatSum operations).standing.state.rank ≤ 2 := by
  induction operations generalizing request with
  | nil => exact hrequest
  | cons operation rest ih =>
    exact ih (fun other hother ↦ hfeeds other (mem_cons_of_mem _ hother))
      (rank_perform (hfeeds operation mem_cons_self) hrequest)

theorem unpersisted_eq_self (hrequest : request.standing.state.rank ≤ 2) :
    request.unpersisted = request := by
  refine congrArg (Request.mk · request.entries) ?_
  cases hstanding : request.standing with
  | absent | active | terminal | evicted => rfl
  | persisted record since =>
    rw [hstanding] at hrequest
    exact absurd hrequest (show ¬ 3 ≤ 2 by decide)

theorem Sound.perform {floatSum : FloatSum} (hfeeds : operation.Feeds) (hrequest : request.Sound) :
    (request.perform floatSum operation).Sound := by
  cases operation with
  | process event =>
    rcases request.process_cases floatSum event with ⟨hsame, -⟩ | ⟨standing, -, hnew, -, happlied⟩
    · rw [Request.perform, hsame]
      exact hrequest
    · rw [Request.perform, happlied]
      exact hrequest.applied hnew standing
  | writeCheckpoint | maybeCheckpoint => exact hrequest
  | persistTerminal | evictGate | seed | reapplyJournalIndex => exact absurd hfeeds id

/-- Assumes: every call is a feeding one. The events applied along them lead to the request. -/
theorem reads_run {floatSum : FloatSum} {request : Request} {operations : List Operation}
    (hfeeds : ∀ operation ∈ operations, operation.Feeds)
    (hrequest : request.standing.state.rank ≤ 2) :
    Reads (Applies floatSum) request (request.appliedEvents floatSum operations)
      (request.run floatSum operations) := by
  have hfinal := @rank_run floatSum request operations hfeeds hrequest
  have hreads := @follows_run floatSum request operations
    (fun operation hoperation ↦ (hfeeds operation hoperation).plain) fun hevicted ↦ by
      rw [hevicted] at hfinal
      exact absurd hfinal (by decide)
  rwa [unpersisted_eq_self hrequest, unpersisted_eq_self hfinal] at hreads

end Request

namespace World

variable {world : World} {requests : String → Request}

/-- Feeding calls keep a checkpoint. -/
theorem Stores.run {document : Checkpoint}
    (hstores : world.Stores (requests document.requestId) document)
    (hrep : world.ingest.Represents requests) (hsound : (requests document.requestId).Sound)
    (floatSum : FloatSum) {operations : List Operation}
    (hfeeds : ∀ operation ∈ operations, operation.Feeds) : (world.run floatSum operations).Stores
      ((requests document.requestId).run floatSum
        (operations.filter fun operation ↦ operation.target = document.requestId)) document := by
  induction operations generalizing world requests with
  | nil => exact hstores
  | cons operation rest ih =>
    have hoperation := hfeeds operation mem_cons_self
    have hnext := hstores.perform hrep hsound.kept floatSum hoperation
    have hrest := fun hsound' ↦ ih hnext (represents_perform hrep floatSum operation) hsound'
      fun other hother ↦ hfeeds other (mem_cons_of_mem _ hother)
    by_cases htarget : operation.target = document.requestId
    · rw [htarget, Function.update_self] at hrest
      rw [filter_cons_of_pos (by simpa using htarget)]
      exact hrest (hsound.perform hoperation)
    · rw [Function.update_of_ne (Ne.symm htarget)] at hrest
      rw [filter_cons_of_neg (by simpa using htarget)]
      exact hrest hsound

/-- The call that writes a checkpoint has it in storage, and leaves the request as it is in it. -/
theorem stores_of_written (floatSum : FloatSum) {document : Checkpoint}
    (hrep : world.ingest.Represents requests) (hkept : Kept (requests operation.target).entries)
    (hwritten : world.checkpointWritten operation = some document) :
    document.requestId = operation.target ∧
      (world.perform floatSum operation).ingest = world.ingest ∧
      (world.perform floatSum operation).Stores (requests document.requestId) document ∧
      document.journalPrefix = (requests document.requestId).entries ∧
      (requests document.requestId).standing.record? = some document.record := by
  obtain ⟨taken, indexTaken, hresult, hperform⟩ := @exists_writeCheckpoint _ floatSum _ _ hwritten
  obtain ⟨hdocument, hstorage⟩ := writeCheckpoint_returns hresult
  cases hrecord : (requests operation.target).standing.record? with
  | none =>
    rw [checkpointOf_of_absent hrep hrecord] at hdocument
    cases hdocument
  | some record =>
    rw [checkpointOf_eq hrep hrecord] at hdocument
    obtain rfl := Except.ok.inj hdocument
    refine ⟨rfl, ?_, ⟨?_, prefix_refl _, fun _ ↦ hrecord, seqOf_eq hkept⟩, rfl, hrecord⟩
    · rw [hperform, ingest_writeCheckpoint]
    · rw [hperform, hstorage, get?_insert,
        if_neg (checkpointKey_ne_index operation.target operation.target _).symm,
        get?_insert_self]

end World

/-- Assumes: the journal holds the first entries of the request. Replaying the others adds them. -/
theorem represents_journalOfPrefix {requestId : String} {done rest : List JournalEntry}
    (hkept : Kept (done ++ rest)) (hnodup : ((done ++ rest).map JournalEntry.eventId).Nodup)
    {journal : Journal} {entriesOf : String → List JournalEntry}
    (hjournal : journal.Represents entriesOf) (hdone : entriesOf requestId = done) :
    ∃ next, journalOfPrefix requestId rest journal = .ok next ∧
      next.Represents (Function.update entriesOf requestId (done ++ rest)) := by
  induction rest generalizing done journal entriesOf with
  | nil =>
    refine ⟨journal, rfl, ?_⟩
    rwa [append_nil, ← hdone, Function.update_eq_self]
  | cons entry rest ih =>
    obtain ⟨hseq, hversion⟩ := hkept done.length entry (by simp)
    have hentry : entry = ⟨entry.eventId, done.length, entry.reducerVersion⟩ := by
      rw [← hseq]
    have hnew : entry.eventId ∉ (entriesOf requestId).map JournalEntry.eventId := by
      rw [map_append, map_cons] at hnodup
      rw [hdone]
      intro hmem
      exact (List.nodup_append.mp hnodup).2.2 _ hmem _ mem_cons_self rfl
    obtain ⟨appended, happend, happended⟩ := hjournal.append hnew entry.reducerVersion
    rw [hdone, ← hentry] at happended
    obtain ⟨next, hrest, hnext⟩ := @ih (done ++ [entry]) (by simpa using hkept)
      (by simpa using hnodup) appended _ happended (Function.update_self _ _ _)
    refine ⟨next, ?_, ?_⟩
    · rw [journalOfPrefix, happend]
      exact hrest
    · rwa [Function.update_idem, append_assoc] at hnext

theorem Request.Applies.reactivated {entries : List JournalEntry} {next : Request}
    (happlies : Request.Applies floatSum ⟨.terminal record, entries⟩ event next) :
    ∃ reduced, next.standing = .terminal reduced ∧
      Request.Applies floatSum ⟨.active record, entries⟩ event ⟨.active reduced, next.entries⟩ := by
  rcases Request.process_cases floatSum ⟨.terminal record, entries⟩ event with
    ⟨-, hnot⟩ | ⟨standing, henvelope, hnew, hreceive, happlied⟩
  · exact absurd (congrArg Prod.fst happlies) hnot
  obtain rfl : next = Request.applied _ event standing :=
    congrArg Prod.snd (happlies.symm.trans happlied)
  generalize hresult : Except.ok standing = result at hreceive
  obtain - | - | - | @⟨record, reduced, hreduce, hlate⟩ := receives_of_receive hreceive
  cases reduced with
  | error error => cases hresult
  | ok reduced =>
    cases hresult
    refine ⟨reduced, rfl, process_of_received henvelope hnew ?_⟩
    have hending : event.family ∉ terminalFamilies := by
      rw [(lateTolerant_iff event).mp hlate]
      decide
    rw [Standing.receive, hreduce]
    change some (Except.ok (if event.family ∈ terminalFamilies then _ else _)) = _
    rw [if_neg hending]

theorem reads_reactivated (hreads : Reads (Request.Applies floatSum) start events final)
    (hstart : start.standing = .terminal record) : ∃ last, final.standing = .terminal last ∧
      Reads (Request.Applies floatSum) ⟨.active record, start.entries⟩ events
        ⟨.active last, final.entries⟩ := by
  induction hreads generalizing record with
  | nil => exact ⟨record, hstart, .nil _⟩
  | @cons request next final event rest hstep _ ih =>
    obtain ⟨standing, entries⟩ := request
    obtain rfl : standing = .terminal record := hstart
    obtain ⟨reduced, hnext, happlies⟩ := hstep.reactivated
    obtain ⟨last, hlast, hrest⟩ := ih hnext
    exact ⟨last, hlast, .cons happlies hrest⟩

/-- The pipelines treat the later events of the request in the same way: the same answers, and the
same state, record and journal after them. -/
def Ingest.TreatsAlike (floatSum : FloatSum) (first second : Ingest) (requestId : String) : Prop :=
  ∀ later : List Event, (∀ event ∈ later, event.requestId = requestId) →
    first.outcomes floatSum later = second.outcomes floatSum later ∧
      (first.feed floatSum later).store.stateOf requestId =
        (second.feed floatSum later).store.stateOf requestId ∧
      (first.feed floatSum later).store.get? requestId =
        (second.feed floatSum later).store.get? requestId ∧
      (first.feed floatSum later).journal.entries requestId =
        (second.feed floatSum later).journal.entries requestId

theorem Ingest.Represents.treatsAlike {first second : Ingest}
    {requests others : String → Request} (hfirst : first.Represents requests)
    (hsecond : second.Represents others) {requestId : String}
    (hsame : requests requestId = others requestId) :
    first.TreatsAlike floatSum second requestId := by
  intro later hlater
  induction later generalizing first second requests others with
  | nil =>
    refine ⟨rfl, ?_, ?_, ?_⟩
    · exact (hfirst.stateOf requestId).trans (hsame ▸ (hsecond.stateOf requestId).symm)
    · exact (hfirst.get? requestId).trans (hsame ▸ (hsecond.get? requestId).symm)
    · exact (hfirst.entries requestId).trans (hsame ▸ (hsecond.entries requestId).symm)
  | cons event rest ih =>
    obtain ⟨houtcome, hnext⟩ := hfirst.process floatSum event
    obtain ⟨houtcome', hnext'⟩ := hsecond.process floatSum event
    have hid : event.requestId = requestId := hlater event mem_cons_self
    rw [hid] at houtcome houtcome' hnext hnext'
    obtain ⟨houtcomes, hafter⟩ := ih hnext hnext'
      (by rw [Function.update_self, Function.update_self, hsame])
      fun other hother ↦ hlater other (mem_cons_of_mem _ hother)
    refine ⟨?_, hafter⟩
    rw [outcomes, outcomes, houtcome, houtcome', hsame]
    exact congrArg _ houtcomes

namespace World

variable {world : World}

/-- A checkpoint is named by its sequence number, or by the index of the latest one. -/
def Names (world : World) (document : Checkpoint) (seq : Option Int) : Prop :=
  seq = some document.seq ∨
    seq = none ∧ world.storage.get? (checkpointIndexKey document.requestId) =
      some (.checkpointIndex document.seq)

theorem readCheckpoint_eq {request : Request} {document : Checkpoint}
    (hstores : world.Stores request document) (hrecord : document.record.TextKeyed)
    {seq : Option Int} (hseq : world.Names document seq) :
    readCheckpoint world.storage document.requestId seq = .ok document := by
  have hread : ∀ seq, seq = some document.seq →
      readCheckpoint world.storage document.requestId seq = .ok document := by
    rintro _ rfl
    unfold readCheckpoint readDocument
    simp only [pure_bind, hstores.stored]
    change Except.ok _ = _
    rw [RequestRecord.throughJson_eq_self hrecord]
  rcases hseq with hseq | ⟨rfl, hindex⟩
  · exact hread seq hseq
  · rw [← hread (some document.seq) rfl]
    unfold readCheckpoint readDocument
    simp only [hindex]
    rfl

/-- Assumes: storage holds a checkpoint whose record is keyed by strings, and its journal is as the
calls of a request leave it. Recovery leads an active request along a reading of its tail. -/
theorem replayFromCheckpoint_of_reads {floatSum : FloatSum} {request final : Request}
    {document : Checkpoint} (hstores : world.Stores request document)
    (hrecord : document.record.TextKeyed)
    (hsound : Request.Sound ⟨.active document.record, document.journalPrefix⟩) {tail : List Event}
    (hreads : Reads (Request.Applies floatSum) ⟨.active document.record, document.journalPrefix⟩
      tail final) (htail : ∀ event ∈ tail, event.requestId = document.requestId)
    {eventSource : String → Option Event}
    (hsource : ∀ event ∈ tail, eventSource event.eventId = some event)
    {seq : Option Int} (hseq : world.Names document seq) : ∃ store journal,
      replayFromCheckpoint floatSum world.storage document.requestId (tail.map Event.eventId)
          eventSource seq =
        .ok (store, journal, if tail = [] then none else final.standing.record?) ∧
      (Ingest.new store journal).Represents
        (Function.update (fun _ ↦ .new) document.requestId final) := by
  obtain ⟨store, hseed, hstore⟩ :=
    @Store.Represents.seed _ document.requestId _ Store.Represents.empty rfl document.record
  obtain ⟨journal, hextends, hjournal⟩ := @represents_journalOfPrefix document.requestId []
    document.journalPrefix hsound.kept hsound.nodup _ _ Journal.represents_empty rfl
  have hplanted : (Ingest.new store journal).Represents (Function.update (fun _ ↦ .new)
      document.requestId ⟨.active document.record, document.journalPrefix⟩) :=
    Ingest.Represents.update hstore hjournal
  obtain ⟨after, hreplay, hafter⟩ := replayEvents_of_reads hreads htail hsource hplanted
    (Function.update_self _ _ _) none
  rw [Function.update_idem] at hafter
  refine ⟨after.store, after.journal, ?_, hafter.of_counters _⟩
  have hread := readCheckpoint_eq hstores hrecord hseq
  unfold replayFromCheckpoint replayJournal
  unfold Ingest.new at hreplay
  simp only [bind, Except.bind, pure, Except.pure, Except.mapError, hread, hseed, hextends, hreplay]
  by_cases hempty : tail = []
  · rw [if_pos hempty, if_pos hempty]
    rfl
  · rw [if_neg hempty, if_neg hempty, Option.bind_some, hafter.get?, Function.update_self]

/-- Assumes: every call is a feeding one. What a new request has become. -/
theorem fed {floatSum : FloatSum} {operations : List Operation}
    (hfeeds : ∀ operation ∈ operations, operation.Feeds) (requestId : String) :
    let request := Request.new.run floatSum
      (operations.filter fun operation ↦ operation.target = requestId)
    request.Sound ∧ request.standing.state.rank ≤ 2 ∧
      ((∀ event ∈ empty.appliedEvents floatSum requestId operations, event.TextKeyed) →
        request.standing.TextKeyed) := by
  have hcalls : ∀ operation ∈ operations.filter fun operation ↦ operation.target = requestId,
      operation.Feeds := fun operation hoperation ↦ hfeeds operation (mem_of_mem_filter hoperation)
  have hreads := @Request.reads_run floatSum .new _ hcalls (Nat.zero_le 2)
  refine ⟨.of_reads hreads Request.sound_new, Request.rank_run hcalls (Nat.zero_le 2),
    fun hkeys ↦ ?_⟩
  rw [appliedEvents_eq Ingest.represents_empty] at hkeys
  exact textKeyed_of_reads hreads nofun hkeys

/-- Assumes: from the empty pipeline and storage on, every call feeds an event or writes a
checkpoint, one of them writes this checkpoint, the keys of the events that were applied to its
request before are strings, the tail is what was applied to the request afterwards, and the event
source resolves it. Recovery from the checkpoint gives the live record and the live journal. From a
checkpoint of an active request it gives the live state, and the request is treated alike by both
pipelines from then on; from one of a terminal request, which is terminal for good, it gives an
active request. -/
theorem recovers (floatSum : FloatSum) {before after : List Operation} {operation : Operation}
    (hfeeds : ∀ call ∈ before ++ operation :: after, call.Feeds) {document : Checkpoint}
    (hwritten : (empty.run floatSum before).checkpointWritten operation = some document)
    (hkeys : ∀ event ∈ empty.appliedEvents floatSum document.requestId before, event.TextKeyed)
    {eventSource : String → Option Event}
    (hsource : ∀ event ∈ ((empty.run floatSum before).perform floatSum operation).appliedEvents
      floatSum document.requestId after, eventSource event.eventId = some event) {seq : Option Int}
    (hseq : (empty.run floatSum (before ++ operation :: after)).Names document seq) :
    let taken := empty.run floatSum before
    let tail := (taken.perform floatSum operation).appliedEvents floatSum document.requestId after
    let live := empty.run floatSum (before ++ operation :: after)
    ∃ store journal record,
      replayFromCheckpoint floatSum live.storage document.requestId (tail.map Event.eventId)
          eventSource seq = .ok (store, journal, record) ∧
        store.get? document.requestId = live.ingest.store.get? document.requestId ∧
        journal.entries document.requestId = live.ingest.journal.entries document.requestId ∧
        (tail ≠ [] → record = live.ingest.store.get? document.requestId) ∧
        (taken.ingest.store.stateOf document.requestId = .active ∧
            store.stateOf document.requestId = live.ingest.store.stateOf document.requestId ∧
            (Ingest.new store journal).TreatsAlike floatSum live.ingest document.requestId ∨
          taken.ingest.store.stateOf document.requestId = .terminal ∧
            store.stateOf document.requestId = .active ∧
            live.ingest.store.stateOf document.requestId = .terminal) := by
  intro taken tail live
  have hbefore : ∀ call ∈ before, call.Feeds := fun call hcall ↦
    hfeeds call (mem_append_left _ hcall)
  have hafter : ∀ call ∈ after, call.Feeds := fun call hcall ↦
    hfeeds call (mem_append_right _ (mem_cons_of_mem _ hcall))
  have hrep : taken.ingest.Represents fun requestId ↦ Request.new.run floatSum
      (before.filter fun call ↦ call.target = requestId) :=
    represents_run Ingest.represents_empty floatSum before
  obtain ⟨hsound, -, -⟩ := @fed floatSum before hbefore operation.target
  obtain ⟨-, hsame, hstores, hentries, hrecord⟩ :=
    stores_of_written floatSum hrep hsound.kept hwritten
  obtain ⟨hsound, hrank, htext⟩ := @fed floatSum before hbefore document.requestId
  have htext := htext hkeys document.record hrecord
  have hrep' : (taken.perform floatSum operation).ingest.Represents _ := hsame ▸ hrep
  have hlive : live = (taken.perform floatSum operation).run floatSum after :=
    run_append floatSum empty before (operation :: after)
  have hstores := hstores.run hrep' hsound floatSum hafter
  obtain ⟨lives, hrepLive, hfinal⟩ : ∃ lives, (World.run floatSum _ after).ingest.Represents lives ∧
      lives document.requestId = _ := ⟨_, represents_run hrep' floatSum after, rfl⟩
  rw [← hlive] at hstores hrepLive
  have hreads := @Request.reads_run floatSum _ _ (fun call hcall ↦ hafter call
    (mem_of_mem_filter (p := fun call ↦ call.target = document.requestId) hcall)) hrank
  rw [← appliedEvents_eq hrep', ← hfinal] at hreads
  have hstate := hrep.stateOf document.requestId
  have hget := hrepLive.get? document.requestId
  have hstateLive := hrepLive.stateOf document.requestId
  have hjournal := hrepLive.entries document.requestId
  generalize Request.new.run floatSum (before.filter fun call ↦ call.target = document.requestId) =
    request at hentries hrecord hsound hrank hreads hstate
  have htail : ∀ event ∈ tail, event.requestId = document.requestId :=
    fun _ hevent ↦ requestId_of_mem_appliedEvents hevent
  obtain ⟨standing, entries⟩ := request
  obtain rfl : document.journalPrefix = entries := hentries
  -- the request that the recovered pipeline holds
  obtain ⟨last, hlast, hrecord', hentries', hstates⟩ : ∃ last : Request,
      Reads (Request.Applies floatSum) ⟨.active document.record, document.journalPrefix⟩ tail last ∧
        last.standing.record? = (lives document.requestId).standing.record? ∧
        last.entries = (lives document.requestId).entries ∧
        (taken.ingest.store.stateOf document.requestId = .active ∧
            last = lives document.requestId ∨
          taken.ingest.store.stateOf document.requestId = .terminal ∧
            last.standing.state = .active ∧
            live.ingest.store.stateOf document.requestId = .terminal) := by
    cases standing with
    | active record =>
      obtain rfl : record = document.record := Option.some.inj hrecord
      exact ⟨_, hreads, rfl, rfl, .inl ⟨hstate, rfl⟩⟩
    | terminal record =>
      obtain rfl : record = document.record := Option.some.inj hrecord
      obtain ⟨last, hlast, hreactivated⟩ := reads_reactivated hreads rfl
      refine ⟨_, hreactivated, by rw [hlast]; rfl, rfl, .inr ⟨hstate, rfl, ?_⟩⟩
      rw [hstateLive, hlast]
      rfl
    | persisted record since => exact absurd hrank (show ¬ 3 ≤ 2 by decide)
    | absent | evicted => cases hrecord
  obtain ⟨store, journal, hreplay, hrecovered⟩ := replayFromCheckpoint_of_reads hstores htext
    ⟨hsound.kept, hsound.nodup⟩ hlast htail hsource hseq
  have hget' := hrecovered.get? document.requestId
  have hjournal' := hrecovered.entries document.requestId
  have hstate' := hrecovered.stateOf document.requestId
  rw [Function.update_self] at hget' hjournal' hstate'
  have hlast' : last.standing.record? = live.ingest.store.get? document.requestId := by
    rw [hget, hrecord']
  refine ⟨store, journal, _, hreplay, hget'.trans hlast', ?_, fun htail' ↦ ?_, ?_⟩
  · rw [hjournal, ← hentries']
    exact hjournal'
  · rw [if_neg htail', hlast']
  · rcases hstates with ⟨hactive, rfl⟩ | ⟨hterminal, hlastState, hliveState⟩
    · exact .inl ⟨hactive, hstate'.trans hstateLive.symm,
        hrecovered.treatsAlike hrepLive (Function.update_self _ _ _)⟩
    · exact .inr ⟨hterminal, hstate'.trans hlastState, hliveState⟩

def sampleTask (eventId : String) (taskId : Json) : Event where
  eventId := eventId
  family := "task.started"
  requestId := "r1"
  schemaVersion := .int 1
  payload := .obj [("task_id", taskId)]

/-- A checkpoint between two tasks, with another one written after the second. -/
theorem recovers_sample :
    let before : List Operation := [.process sampleBirth, .process (sampleTask "e2" (.str "t1"))]
    let after : List Operation :=
      [.process (sampleTask "e3" (.str "t2")), .maybeCheckpoint "r1" 3 true true]
    let live := empty.run noFloats (before ++ .writeCheckpoint "r1" true true :: after)
    ∃ store journal record,
      replayFromCheckpoint noFloats live.storage "r1" ["e3"]
          (fun _ ↦ some (sampleTask "e3" (.str "t2"))) (some 1) = .ok (store, journal, record) ∧
        store.get? "r1" = live.ingest.store.get? "r1" ∧
        journal.entries "r1" = live.ingest.journal.entries "r1" ∧
        record = live.ingest.store.get? "r1" ∧
        store.stateOf "r1" = live.ingest.store.stateOf "r1" ∧
        (Ingest.new store journal).TreatsAlike noFloats live.ingest "r1" := by
  intro before after live
  have hchecked : ((empty.run noFloats before).checkpointWritten
      (.writeCheckpoint "r1" true true)).map (fun document ↦ (document.requestId, document.seq)) =
        some ("r1", 1) := by decide +kernel
  obtain ⟨document, hwritten, hdocument⟩ := Option.map_eq_some_iff.mp hchecked
  obtain ⟨hrequest, hnumber⟩ := Prod.mk.inj hdocument
  have htail : ((empty.run noFloats before).perform noFloats
      (.writeCheckpoint "r1" true true)).appliedEvents noFloats "r1" after =
        [sampleTask "e3" (.str "t2")] := by decide +kernel
  obtain ⟨store, journal, record, hreplay, hrecord, hentries, hreturned, hactive | hterminal⟩ :=
    @recovers noFloats before after (.writeCheckpoint "r1" true true) (by simp
      [before, after, Operation.Feeds]) document hwritten (by rw [hrequest]; decide +kernel)
      (fun _ ↦ some (sampleTask "e3" (.str "t2"))) (by rw [hrequest, htail]; simp) (some 1)
      (.inl (congrArg some hnumber.symm))
  · rw [hrequest, htail] at *
    exact ⟨store, journal, record, hreplay, hrecord, hentries, hreturned (by simp), hactive.2.1,
      hactive.2.2⟩
  · rw [hrequest] at hterminal
    exact absurd hterminal.1 (by decide +kernel)

/-- From a checkpoint taken after the end, recovery gives an active request, and a second end is
applied to it that the live one refuses. From a checkpoint with a task numbered 1, it gives a record
with the task named "1". -/
theorem recovers_not_live :
    let ended := empty.run noFloats
      [.process sampleBirth, .process sampleEnd, .writeCheckpoint "r1" true true]
    let numbered := empty.run noFloats
      [.process sampleBirth, .process (sampleTask "e2" (.int 1)), .writeCheckpoint "r1" true true]
    let second : Event := { sampleEnd with eventId := "e3" }
    ((replayFromCheckpoint noFloats ended.storage "r1" [] (fun _ ↦ none) none).map fun result ↦
        (result.1.stateOf "r1", (Ingest.new result.1 result.2.1).outcome noFloats second)) =
        .ok (.active, .ok .applied) ∧
      ended.ingest.store.stateOf "r1" = .terminal ∧
      ended.ingest.outcome noFloats second = .ok .faulted ∧
      ((replayFromCheckpoint noFloats numbered.storage "r1" [] (fun _ ↦ none) none).map fun result ↦
        decide (result.1.get? "r1" = numbered.ingest.store.get? "r1")) = .ok false := by
  decide +kernel

end World

end AbsoluteZero.Rsm

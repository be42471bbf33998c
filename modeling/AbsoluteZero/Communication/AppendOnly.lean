import AbsoluteZero.Communication.BusLog
import AbsoluteZero.Communication.Delivery
import Mathlib.Data.Set.List

/-!
# When the log is append-only

While no stored log has a gap or an unreadable entry, every write appends and a replay ends with
what was accepted since the last restart. `World.append_only_iff` says that this is also needed:
over any other contents enough publishes overwrite an entry, or the log cannot be replayed.
-/

namespace AbsoluteZero.Communication

open Foundations OrderedDict List World Option

theorem validate_envelope {topic : String} {registry : Registry}
    (hregistered : (registry.get? topic).isSome) :
    validate topic (envelope topic "e") registry = .ok () := by
  have hshape : checkEnvelope topic (envelope topic "e") = .ok () := by
    simp [checkEnvelope, missingField, envelopeFields, envelope, Json.get?, Json.item,
      Json.getD, OrderedDict.find, Json.pyEq, Json.nonemptyStr, Json.fields?]
  obtain ⟨kind, hkind⟩ := isSome_iff_exists.mp hregistered
  rw [validate, hkind]
  cases kind with
  | envelope => simpa [envelope, Json.fields?] using hshape
  | record => simp [envelope, Json.fields?]

def publishing (topic : String) (count : Nat) : List Operation :=
  .registerTopic topic .record :: List.replicate count (.publish topic (envelope topic "e"))

/-- The world after a number of publishes on a topic, over a port that takes every write: the
numbers from the end of the topic's log on are written. -/
structure World.Filled (world : World) (entries : OrderedDict String Entry) (topic : String)
    (first count : Nat) : Prop where
  registered : (world.bus.registry.get? topic).isSome
  queues : world.bus.queues = .empty
  port : ∃ port, world.bus.storage = some port ∧ (∀ turn, port.refuses turn = false) ∧
    world.bus.seqOf port topic = first + count ∧ ∀ seq, port.entries.get? (logKey topic seq) =
      if first ≤ seq ∧ seq < first + count then some (.message (envelope topic "e").canonical)
      else entries.get? (logKey topic seq)
  events : acceptedOn topic world.events = List.replicate count (envelope topic "e")

namespace World.Filled

variable {world : World} {entries : OrderedDict String Entry} {topic : String} {first count : Nat}

theorem accepts (hfilled : world.Filled entries topic first count) :
    world.bus.Accepts topic (envelope topic "e") := by
  refine ⟨validate_envelope hfilled.registered, ?_, ?_⟩
  · rw [Bus.full_eq_none_iff]
    intro subscriber queue hqueue
    rw [hfilled.queues] at hqueue
    cases hqueue
  · intro port hport
    obtain ⟨port', hstorage, htakes, -⟩ := hfilled.port
    obtain rfl : port' = port := Option.some.inj (hstorage.symm.trans hport)
    exact htakes _

theorem publish (hfilled : world.Filled entries topic first count) :
    (world.perform (.publish topic (envelope topic "e"))).Filled entries topic first
      (count + 1) := by
  obtain ⟨hok, hafter⟩ := publish_accepted hfilled.accepts
  have hworld : world.perform (.publish topic (envelope topic "e")) =
      { world with
        bus := world.bus.published topic (envelope topic "e")
        events := world.events ++ [.accepted topic (envelope topic "e")] } := by
    show world.call _ _ = _
    unfold World.call
    rw [hok, hafter]
  obtain ⟨port, hstorage, htakes, hseq, hentries⟩ := hfilled.port
  rw [hworld]
  refine ⟨hfilled.registered, ?_, ⟨world.bus.written port topic (envelope topic "e"), ?_, ?_, ?_,
    ?_⟩, ?_⟩
  · show world.bus.enqueued topic _ = _
    have hnone : world.bus.subscribers topic = [] := by
      unfold Bus.subscribers
      rw [hfilled.queues]
      rfl
    unfold Bus.enqueued
    rw [hnone, hfilled.queues]
    rfl
  · show world.bus.storage.map _ = _
    rw [hstorage]
    rfl
  · intro turn
    exact htakes turn
  · have hlogSeq : (world.bus.published topic (envelope topic "e")).logSeq =
        world.bus.logSeq.insert topic (world.bus.seqOf port topic + 1) := by
      unfold Bus.published
      rw [hstorage]
    show ((world.bus.published topic (envelope topic "e")).logSeq.get? topic).getD _ = _
    rw [hlogSeq, get?_insert_self, getD_some, hseq, Nat.add_assoc]
  · intro seq
    show (port.entries.insert _ _).get? _ = _
    rw [get?_insert, hseq, hentries]
    by_cases hlast : seq = first + count
    · rw [if_pos (by rw [hlast]), if_pos (by omega)]
    · rw [if_neg fun hkey ↦ hlast (logKey_inj hkey).2.symm]
      by_cases hwritten : first ≤ seq ∧ seq < first + count
      · rw [if_pos hwritten, if_pos (by omega)]
      · rw [if_neg hwritten, if_neg (by omega)]
  · rw [acceptedOn_append, acceptedOn_accepted, if_pos rfl, hfilled.events, replicate_succ']

end World.Filled

variable (entries : OrderedDict String Entry)

/-- The end of the log of a topic, over a port that takes every write. -/
def firstUnreadable (topic : String) : Nat :=
  Port.floor ⟨entries, fun _ ↦ false, 0⟩ topic

/-- After a number of publishes on a topic, over a port that takes every write. -/
theorem World.filled_publishing (topic : String) (count : Nat) :
    ((World.start entries (fun _ ↦ false) 1 1).run (publishing topic count)).Filled entries topic
      (firstUnreadable entries topic) count := by
  induction count with
  | zero =>
    have hworld : (World.start entries (fun _ ↦ false) 1 1).run (publishing topic 0) =
        { World.start entries (fun _ ↦ false) 1 1 with
          bus := (registerTopic topic .record).after
            (World.start entries (fun _ ↦ false) 1 1).bus } :=
      call_quiet _ _
    rw [hworld]
    unfold registerTopic
    rw [Call.after_get_bind]
    by_cases hpresent : ((World.start entries (fun _ ↦ false) 1 1).bus.registry.get? topic).isSome
    · rw [if_pos hpresent]
      refine ⟨hpresent, rfl, ⟨_, rfl, fun _ ↦ rfl, rfl, fun seq ↦ ?_⟩, rfl⟩
      rw [if_neg (by omega)]
    · rw [if_neg hpresent]
      refine ⟨?_, rfl, ⟨_, rfl, fun _ ↦ rfl, rfl, fun seq ↦ ?_⟩, rfl⟩
      · show ((OrderedDict.insert _ topic _).get? topic).isSome
        rw [get?_insert_self]
        rfl
      · rw [if_neg (by omega)]
  | succ count ih =>
    have hrun : (World.start entries (fun _ ↦ false) 1 1).run (publishing topic (count + 1)) =
        ((World.start entries (fun _ ↦ false) 1 1).run (publishing topic count)).perform
          (.publish topic (envelope topic "e")) := by
      unfold publishing World.run
      rw [replicate_succ', foldl_cons, foldl_append, foldl_cons]
      rfl
    rw [hrun]
    exact ih.publish

theorem length_insert_of_mem {dict : OrderedDict String Entry} {key : String} (entry : Entry)
    (hkey : key ∈ dict.keys) : (dict.insert key entry).items.length = dict.items.length := by
  have hkeys : (dict.insert key entry).items.map Prod.fst = dict.items.map Prod.fst :=
    map_fst_upsert_of_mem hkey
  simpa using congrArg List.length hkeys

section Converse

variable {entries : OrderedDict String Entry} {topic : String} {seq : Nat}

/-- Assumes: the log of the topic is replayed after one publish. What is below its end is a
message. -/
theorem World.message_below
    (hreplays : ((World.start entries (fun _ ↦ false) 1 1).run (publishing topic 1)).Replays)
    (hseq : seq < firstUnreadable entries topic) :
    ∃ message, entries.get? (logKey topic seq) = some (.message message) := by
  have hfilled := filled_publishing entries topic 1
  have hpublished : acceptedOn topic ((World.start entries (fun _ ↦ false) 1 1).run
      (publishing topic 1)).events ≠ [] := by
    rw [hfilled.events]
    exact cons_ne_nil _ _
  obtain ⟨older, hreplay⟩ := hreplays topic hpublished
  obtain ⟨port, hstorage, -, hlength, hentries⟩ := hfilled.port
  rw [(replay_spec hstorage topic).1, hlength] at hreplay
  obtain ⟨message, hload⟩ := read_of_mapM_eq_ok hreplay seq (List.mem_range.mpr (by omega))
  unfold Port.load at hload
  rw [hentries, if_neg (by omega)] at hload
  cases hget : entries.get? (logKey topic seq) with
  | none =>
    rw [hget] at hload
    cases hload
  | some entry =>
    rw [hget] at hload
    cases entry with
    | message body => exact ⟨body, rfl⟩
    | foreign | damaged => cases hload

/-- Assumes: after the publishes that reach a number, the next one appends to the storage. There is
no entry under this number. -/
theorem World.missing_from_end (happends : ((World.start entries (fun _ ↦ false) 1 1).run
      (publishing topic (seq - firstUnreadable entries topic))).AppendsOnly)
    (hseq : firstUnreadable entries topic ≤ seq) : entries.get? (logKey topic seq) = none := by
  have hfilled := filled_publishing entries topic (seq - firstUnreadable entries topic)
  obtain ⟨port, hstorage, -, hlength, hentries⟩ := hfilled.port
  have hreached : ((World.start entries (fun _ ↦ false) 1 1).run (publishing topic
      (seq - firstUnreadable entries topic))).bus.seqOf port topic = seq := by
    rw [hlength]
    omega
  obtain ⟨hok, hafter⟩ := publish_accepted hfilled.accepts
  have hnext := happends port hstorage topic (envelope topic "e")
  rw [hok, hafter] at hnext
  obtain ⟨written, hitems⟩ := hnext
  have happended : (port.entries.insert (logKey topic seq)
      (.message (envelope topic "e").canonical)).items = port.entries.items ++
        [(logKey topic written, .message (envelope topic "e").canonical)] := by
    apply Option.some.inj
    rw [← hitems, Bus.published, hstorage, map_some, map_some, Bus.written, hreached]
  by_contra hpresent
  have hkey : logKey topic seq ∈ port.entries.keys := by
    by_contra hmissing
    have hnone := (get?_eq_none_iff _).mpr hmissing
    rw [hentries, if_neg (by omega)] at hnone
    exact hpresent hnone
  have hcount := congrArg List.length happended
  rw [length_insert_of_mem _ hkey, length_append, length_singleton] at hcount
  omega

/-- Assumes: below a bound there are messages, and nothing from it on. The log is intact. -/
theorem exists_holds {bound : Nat}
    (hbelow : ∀ seq < bound, ∃ message, entries.get? (logKey topic seq) = some (.message message))
    (habove : ∀ seq, bound ≤ seq → entries.get? (logKey topic seq) = none) :
    ∃ messages, Holds entries topic messages := by
  obtain ⟨list, hlist⟩ : ∃ list, Numbered (fun seq ↦ entries.get? (logKey topic seq)) list := by
    apply exists_numbered bound
    · intro seq hseq
      obtain ⟨message, hmessage⟩ := hbelow seq hseq
      rw [hmessage]
      rfl
    · exact habove
  have hmessages : list ∈ Set.range (List.map Entry.message) := by
    rw [Set.range_list_map]
    intro entry hentry
    obtain ⟨seq, hseq⟩ := mem_iff_getElem?.mp hentry
    have hget : entries.get? (logKey topic seq) = some entry := (hlist seq).trans hseq
    by_cases hlt : seq < bound
    · obtain ⟨message, hmessage⟩ := hbelow seq hlt
      rw [hmessage] at hget
      exact ⟨message, Option.some.inj hget⟩
    · rw [habove seq (by omega)] at hget
      cases hget
  obtain ⟨messages, rfl⟩ := hmessages
  exact ⟨messages, hlist⟩

end Converse

/-- Every write of every run over the stored entries appends, and every replay ends with what was
accepted since the last restart, exactly when the stored log of each topic is a list of messages
without a gap or an unreadable entry. -/
theorem World.append_only_iff :
    (∀ refuses maxQueueDepth maxAttempts operations,
        ((World.start entries refuses maxQueueDepth maxAttempts).run operations).AppendsOnly ∧
          ((World.start entries refuses maxQueueDepth maxAttempts).run operations).Replays) ↔
      ∀ topic, ∃ messages, Holds entries topic messages := by
  constructor
  · intro hruns topic
    apply exists_holds
    · intro seq hseq
      exact message_below (hruns _ 1 1 (publishing topic 1)).2 hseq
    · intro seq hseq
      exact missing_from_end (hruns _ 1 1 _).1 hseq
  · intro hintact refuses maxQueueDepth maxAttempts operations
    choose old hold using hintact
    have htracks := tracks_run (tracks_start hold refuses maxQueueDepth maxAttempts)
      operations
    exact ⟨htracks.appendsOnly, htracks.replays⟩

/-- A log of faults whose first entry is damaged and whose second one is intact. -/
def damagedLog : OrderedDict String Entry :=
  (OrderedDict.empty.insert (logKey "fault.recorded" 0) .damaged).insert (logKey "fault.recorded" 1)
    (.message (envelope "fault.recorded" "e2"))

/-- The first publish overwrites the damaged entry, and the second one the intact entry after it. -/
theorem World.damaged_overwritten :
    let world := (World.start damagedLog (fun _ ↦ false) 10 3).run
      [.publish "fault.recorded" (envelope "fault.recorded" "e3")]
    let next := world.perform (.publish "fault.recorded" (envelope "fault.recorded" "e4"))
    (world.bus.storage.bind fun port ↦ port.entries.get? (logKey "fault.recorded" 1)) =
        some (.message (envelope "fault.recorded" "e2")) ∧
      (next.bus.storage.bind fun port ↦ port.entries.get? (logKey "fault.recorded" 1)) =
        some (.message (envelope "fault.recorded" "e4").canonical) ∧ ¬ world.AppendsOnly := by
  intro world next
  refine ⟨by decide, by decide, fun happends ↦ ?_⟩
  obtain ⟨port, hstorage⟩ : ∃ port, world.bus.storage = some port := ⟨_, rfl⟩
  have hnext := happends port hstorage "fault.recorded" (envelope "fault.recorded" "e4")
  have hok : (publish "fault.recorded" (envelope "fault.recorded" "e4")).outcome world.bus =
      .ok ⟨⟩ := by decide
  rw [hok] at hnext
  obtain ⟨seq, hitems⟩ := hnext
  have hbefore : world.bus.storage.map (fun port ↦ port.entries.items.length) = some 2 := by decide
  have hafter : ((publish "fault.recorded" (envelope "fault.recorded" "e4")).after
      world.bus).storage.map (fun port ↦ port.entries.items.length) = some 2 := by decide
  have hcount := congrArg (Option.map List.length) hitems
  rw [Option.map_map] at hcount
  have hsame := hafter.symm.trans hcount
  rw [hstorage, map_some, some_inj] at hbefore
  rw [map_some, some_inj, length_append, length_singleton] at hsame
  omega

end AbsoluteZero.Communication

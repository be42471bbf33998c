import AbsoluteZero.Communication.Bus
import AbsoluteZero.Foundations.SeparatedText

/-!
# What a publish does

A message is accepted when it has the shape of its topic, every queue of the topic has room and the
port takes the write (`Bus.Accepts`). It goes to the log and to the end of every queue of its topic
(`publish_accepted`); a publish that raises leaves both as they are (`publish_refused`).
-/

namespace AbsoluteZero.Communication

open Foundations OrderedDict Call List

namespace Bus

variable (bus : Bus)

theorem mem_subscribers_iff {topic subscriber : String} :
    subscriber ∈ bus.subscribers topic ↔ (bus.queues.get? (topic, subscriber)).isSome := by
  unfold subscribers
  rw [mem_map]
  constructor
  · rintro ⟨⟨name, member⟩, hkey, rfl⟩
    obtain ⟨hmem, hname⟩ := mem_filter.mp hkey
    obtain rfl : name = topic := of_decide_eq_true hname
    by_contra hnone
    have hmissing : bus.queues.get? (name, member) = none := by simpa using hnone
    exact (get?_eq_none_iff _).mp hmissing hmem
  · intro hsome
    obtain ⟨queue, hqueue⟩ := Option.isSome_iff_exists.mp hsome
    have hitem := (get?_eq_some_iff _).mp hqueue
    exact ⟨(topic, subscriber), mem_filter.mpr
      ⟨mem_map_of_mem (f := Prod.fst) hitem, decide_eq_true rfl⟩, rfl⟩

theorem nodup_subscribers (topic : String) : (bus.subscribers topic).Nodup := by
  refine List.Nodup.map_on ?_ (bus.queues.nodup.filter _)
  rintro ⟨name, member⟩ hfirst ⟨name', member'⟩ hsecond hsame
  obtain rfl : name = topic := of_decide_eq_true (mem_filter.mp hfirst).2
  obtain rfl : name' = name := of_decide_eq_true (mem_filter.mp hsecond).2
  obtain rfl : member = member' := hsame
  rfl

theorem get?_foldl_enqueue (topic : String) (message : Json) {subscribers : List String}
    (hnodup : subscribers.Nodup) (queues : OrderedDict (String × String) (List Json))
    (key : String × String) :
    (subscribers.foldl (fun queues subscriber ↦ queues.insert (topic, subscriber)
        ((queues.get? (topic, subscriber)).getD [] ++ [message])) queues).get? key =
      if key.1 = topic ∧ key.2 ∈ subscribers then some ((queues.get? key).getD [] ++ [message])
      else queues.get? key := by
  induction subscribers generalizing queues with
  | nil => simp
  | cons head rest ih =>
    obtain ⟨hfresh, hrest⟩ := nodup_cons.mp hnodup
    rw [foldl_cons, ih hrest, get?_insert]
    by_cases hkey : (topic, head) = key
    · subst hkey
      simp [hfresh]
    · have hhead : key.1 = topic → key.2 ≠ head := by
        rintro rfl rfl
        exact hkey rfl
      rw [if_neg hkey]
      by_cases htopic : key.1 = topic
      · simp [htopic, hhead htopic]
      · simp [htopic]

theorem get?_enqueued (topic : String) (message : Json) (key : String × String) :
    (bus.enqueued topic message).get? key =
      if key.1 = topic then (bus.queues.get? key).map (· ++ [message])
      else bus.queues.get? key := by
  unfold enqueued
  rw [get?_foldl_enqueue topic message (bus.nodup_subscribers topic)]
  by_cases htopic : key.1 = topic
  · have hkey : (topic, key.2) = key := by
      rw [← htopic]
    have hmem : key.2 ∈ bus.subscribers topic ↔ (bus.queues.get? key).isSome := by
      rw [mem_subscribers_iff, hkey]
    rw [if_pos htopic]
    cases hqueue : bus.queues.get? key with
    | none =>
      have hnot : key.2 ∉ bus.subscribers topic := by
        rw [hmem, hqueue]
        exact nofun
      rw [if_neg fun hboth ↦ hnot hboth.2]
      rfl
    | some queue =>
      have hin : key.2 ∈ bus.subscribers topic := by
        rw [hmem, hqueue]
        rfl
      rw [if_pos ⟨htopic, hin⟩]
      rfl
  · rw [if_neg fun hboth ↦ htopic hboth.1, if_neg htopic]

theorem full_eq_none_iff {topic : String} : bus.full topic = none ↔
    ∀ subscriber queue, bus.queues.get? (topic, subscriber) = some queue →
      queue.length < bus.maxQueueDepth := by
  unfold full
  rw [find?_eq_none]
  constructor
  · intro hall subscriber queue hqueue
    have hmem : subscriber ∈ bus.subscribers topic := by
      rw [mem_subscribers_iff, hqueue]
      rfl
    have hroom := hall subscriber hmem
    rw [decide_eq_true_eq, Nat.not_le, pending, Bus.queue, hqueue] at hroom
    exact hroom
  · intro hall subscriber hmem
    obtain ⟨queue, hqueue⟩ := Option.isSome_iff_exists.mp (bus.mem_subscribers_iff.mp hmem)
    rw [decide_eq_true_eq, Nat.not_le, pending, Bus.queue, hqueue]
    exact hall subscriber queue hqueue

/-! ### Acceptance -/

/-- The next sequence number of a topic. -/
def seqOf (port : Port) (topic : String) : Nat := (bus.logSeq.get? topic).getD (port.floor topic)

/-- The message is published: it has the shape of its topic, no queue of the topic is full, and the
port, if there is one, takes the next write. -/
structure Accepts (topic : String) (message : Json) : Prop where
  valid : validate topic message bus.registry = .ok ()
  room : bus.full topic = none
  stored : ∀ port ∈ bus.storage, port.refuses port.writes = false

instance (topic : String) (message : Json) : Decidable (bus.Accepts topic message) :=
  decidable_of_iff (validate topic message bus.registry = .ok () ∧ bus.full topic = none ∧
      ∀ port ∈ bus.storage, port.refuses port.writes = false)
    ⟨fun ⟨hvalid, hroom, hstored⟩ ↦ ⟨hvalid, hroom, hstored⟩,
      fun ⟨hvalid, hroom, hstored⟩ ↦ ⟨hvalid, hroom, hstored⟩⟩

def written (port : Port) (topic : String) (message : Json) : Port :=
  { port with
    entries := port.entries.insert (logKey topic (bus.seqOf port topic))
      (.message message.canonical)
    writes := port.writes + 1 }

def published (topic : String) (message : Json) : Bus :=
  { bus with
    storage := bus.storage.map fun port ↦ bus.written port topic message
    logSeq := match bus.storage with
      | none => bus.logSeq
      | some port => bus.logSeq.insert topic (bus.seqOf port topic + 1)
    queues := bus.enqueued topic message }

/-- The second bus differs from the first one in the writes that were tried and the sequence numbers
that were looked up. -/
structure Same (next : Bus) : Prop where
  maxQueueDepth : next.maxQueueDepth = bus.maxQueueDepth
  maxAttempts : next.maxAttempts = bus.maxAttempts
  registry : next.registry = bus.registry
  deadLetters : next.deadLetters = bus.deadLetters
  queues : next.queues = bus.queues
  entries : next.storage.map Port.entries = bus.storage.map Port.entries
  refuses : next.storage.map Port.refuses = bus.storage.map Port.refuses
  seq : ∀ topic, (next.storage.map fun port ↦ next.seqOf port topic) =
    bus.storage.map fun port ↦ bus.seqOf port topic

end Bus

variable {bus : Bus} {topic : String} {message : Json}

def Bus.lookedUp (bus : Bus) (port : Port) (topic : String) : Bus :=
  { bus with logSeq := bus.logSeq.insert topic (bus.seqOf port topic) }

theorem Bus.seqOf_lookedUp (bus : Bus) (port : Port) (topic other : String) :
    (bus.lookedUp port topic).seqOf port other = bus.seqOf port other := by
  unfold seqOf lookedUp
  rw [get?_insert]
  split
  · next heq =>
    rw [← heq]
    rfl
  · rfl

/-- Looking up a sequence number. -/
theorem seqFloor_spec (bus : Bus) (port : Port) (topic : String) :
    (seqFloor port topic).outcome bus = .ok (bus.seqOf port topic) ∧
      (seqFloor port topic).after bus = bus.lookedUp port topic := by
  unfold seqFloor Bus.lookedUp Bus.seqOf
  rw [outcome_get_bind, after_get_bind]
  cases hseq : bus.logSeq.get? topic with
  | some seq =>
    have hsame : bus.logSeq.insert topic seq = bus.logSeq := insert_of_get? _ hseq
    simp only [Option.getD_some, hsame]
    exact ⟨rfl, rfl⟩
  | none => exact ⟨rfl, rfl⟩

theorem Port.floor_congr (first second : Port) (hentries : first.entries = second.entries)
    (topic : String) : first.floor topic = second.floor topic := by
  have hprobe : ∀ turns seq, first.probe topic turns seq = second.probe topic turns seq := by
    intro turns
    induction turns with
    | zero => exact fun _ ↦ rfl
    | succ turns ih =>
      intro seq
      have hreadable : first.readable (logKey topic seq) = second.readable (logKey topic seq) := by
        unfold readable
        rw [hentries]
      rw [probe, probe, hreadable, ih]
  unfold floor
  rw [hentries, hprobe]

theorem persist_without (topic : String) (message : Json) (hstorage : bus.storage = none) :
    (persist topic message).outcome bus = .ok ⟨⟩ ∧ (persist topic message).after bus = bus := by
  unfold persist
  rw [outcome_get_bind, after_get_bind]
  simp only [hstorage]
  exact ⟨rfl, rfl⟩

theorem persist_stored {port : Port} (topic : String) (message : Json)
    (hstorage : bus.storage = some port)
    (htakes : port.refuses port.writes = false) : (persist topic message).outcome bus = .ok ⟨⟩ ∧
      (persist topic message).after bus = { bus with
          storage := some (bus.written port topic message)
          logSeq := bus.logSeq.insert topic (bus.seqOf port topic + 1) } := by
  obtain ⟨hok, hafter⟩ := seqFloor_spec bus port topic
  unfold persist
  rw [outcome_get_bind, after_get_bind]
  simp only [hstorage]
  rw [outcome_bind, after_bind, hok, hafter]
  simp only [htakes, Bool.false_eq_true, if_false]
  refine ⟨rfl, ?_⟩
  simp only [after_modify, Bus.lookedUp, insert_insert, Bus.written]

theorem persist_failed {port : Port} (topic : String) (message : Json)
    (hstorage : bus.storage = some port) (hraises : port.refuses port.writes = true) :
    (persist topic message).outcome bus = .error .storageFailed ∧
      bus.Same ((persist topic message).after bus) := by
  obtain ⟨hok, hafter⟩ := seqFloor_spec bus port topic
  unfold persist
  rw [outcome_get_bind, after_get_bind]
  simp only [hstorage]
  rw [outcome_bind, after_bind, hok, hafter]
  simp only [hraises, if_true]
  refine ⟨rfl, rfl, rfl, rfl, rfl, rfl, ?_, ?_, fun other ↦ ?_⟩
  · rw [hstorage]
    rfl
  · rw [hstorage]
    rfl
  · rw [hstorage]
    have hseq := bus.seqOf_lookedUp port topic other
    show some ((bus.lookedUp port topic).seqOf { port with writes := port.writes + 1 } other) = _
    rw [Option.map_some, ← hseq]
    have hfloor : Port.floor { port with writes := port.writes + 1 } other = port.floor other :=
      Port.floor_congr { port with writes := port.writes + 1 } port rfl other
    unfold Bus.seqOf
    rw [hfloor]

theorem publish_accepted (haccepts : bus.Accepts topic message) :
    (publish topic message).outcome bus = .ok ⟨⟩ ∧
      (publish topic message).after bus = bus.published topic message := by
  obtain ⟨hvalid, hroom, hstored⟩ := haccepts
  unfold publish
  rw [outcome_get_bind, after_get_bind]
  simp only [hvalid, hroom]
  rw [outcome_bind, after_bind]
  unfold Bus.published
  cases hstorage : bus.storage with
  | none =>
    obtain ⟨hok, hafter⟩ := persist_without topic message hstorage
    rw [hok, hafter]
    obtain ⟨storage, depth, attempts, registry, letters, queues, logSeq⟩ := bus
    obtain rfl : storage = none := hstorage
    exact ⟨rfl, rfl⟩
  | some port =>
    obtain ⟨hok, hafter⟩ := persist_stored topic message hstorage (hstored port hstorage)
    rw [hok, hafter]
    exact ⟨rfl, rfl⟩

theorem publish_refused (hrefused : ¬ bus.Accepts topic message) :
    (∃ error, (publish topic message).outcome bus = .error error) ∧
      bus.Same ((publish topic message).after bus) := by
  have hsame : bus.Same bus := ⟨rfl, rfl, rfl, rfl, rfl, rfl, rfl, fun _ ↦ rfl⟩
  unfold publish
  rw [outcome_get_bind, after_get_bind]
  cases hvalid : validate topic message bus.registry with
  | error text => exact ⟨⟨_, rfl⟩, hsame⟩
  | ok valid =>
    cases hroom : bus.full topic with
    | some subscriber => exact ⟨⟨_, rfl⟩, hsame⟩
    | none =>
      have hraises : ∃ port, bus.storage = some port ∧ port.refuses port.writes = true := by
        by_contra hnone
        refine hrefused ⟨hvalid, hroom, fun port hport ↦ ?_⟩
        by_contra htrue
        exact hnone ⟨port, hport, by simpa using htrue⟩
      obtain ⟨port, hstorage, hraises⟩ := hraises
      obtain ⟨herror, hafter⟩ := persist_failed topic message hstorage hraises
      rw [outcome_bind, after_bind, herror]
      exact ⟨⟨_, rfl⟩, hafter⟩

end AbsoluteZero.Communication

import AbsoluteZero.Communication.Publishing
import AbsoluteZero.Foundations.NumberedLog
import Mathlib.Data.List.Perm.Subperm

/-!
# The log of a bus

Buses are created one after another over one storage port. While the stored log of every topic has
no gap and no unreadable entry, every write appends to the storage and a replay ends with what was
accepted since the last restart; over any other contents some run breaks this
(`World.append_only_iff`).
-/

namespace AbsoluteZero.Communication

open Foundations OrderedDict Call SeparatedText List Option

/-! ### Runs over a port -/

/-- What a call on a bus does that returns. -/
inductive Event
  | subscribed (topic subscriber : String)
  | accepted (topic : String) (message : Json)
  | drained (topic subscriber : String) (messages : List Json)
  deriving DecidableEq

/-- A call on the bus in use, or a new bus over the same port. -/
inductive Operation
  | registerTopic (topic : String) (kind : TopicKind)
  | subscribe (topic subscriber : String) (durable : Bool)
  | publish (topic : String) (message : Json)
  | drain (topic subscriber : String)
  | replay (topic : String)
  | restart (maxQueueDepth maxAttempts : Nat)

/-- The bus in use, what happened on the buses before it, and what happened on it. -/
structure World where
  bus : Bus
  past : List Event
  events : List Event

/-- A call on the bus in use, with the event it answers when it returns. -/
def World.call {Result : Type} (world : World) (call : BusCall Result)
    (event : Result → List Event) : World where
  bus := call.after world.bus
  past := world.past
  events := match call.outcome world.bus with
    | .ok result => world.events ++ event result
    | .error _ => world.events

variable (world : World)

def World.perform : Operation → World
  | .registerTopic topic kind => world.call (registerTopic topic kind) fun _ ↦ []
  | .subscribe topic subscriber durable =>
    world.call (subscribe topic subscriber durable) fun _ ↦ [.subscribed topic subscriber]
  | .publish topic message => world.call (publish topic message) fun _ ↦ [.accepted topic message]
  | .drain topic subscriber =>
    world.call (drain topic subscriber) fun messages ↦ [.drained topic subscriber messages]
  | .replay topic => world.call (replay topic) fun _ ↦ []
  | .restart maxQueueDepth maxAttempts =>
    { bus := Bus.new world.bus.storage maxQueueDepth maxAttempts
      past := world.past ++ world.events
      events := [] }

def World.run (operations : List Operation) : World :=
  operations.foldl World.perform world

def World.start (entries : OrderedDict String Entry) (refuses : Nat → Bool)
    (maxQueueDepth maxAttempts : Nat) : World where
  bus := Bus.new (some ⟨entries, refuses, 0⟩) maxQueueDepth maxAttempts
  past := []
  events := []

def Event.acceptedOn (topic : String) : Event → Option Json
  | .accepted name message => if name = topic then some message else none
  | .subscribed _ _ | .drained _ _ _ => none

def acceptedOn (topic : String) (events : List Event) : List Json :=
  events.filterMap (Event.acceptedOn topic)

/-- Every publish that returns appends one entry to the storage, on the topic's log, and every
publish that raises leaves the entries as they are. -/
def World.AppendsOnly : Prop :=
  ∀ port ∈ world.bus.storage, ∀ topic message,
    match (publish topic message).outcome world.bus with
    | .ok _ => ∃ seq, ((publish topic message).after world.bus).storage.map
        (fun next ↦ next.entries.items) =
          some (port.entries.items ++ [(logKey topic seq, .message message.canonical)])
    | .error _ => ((publish topic message).after world.bus).storage.map Port.entries =
        some port.entries

/-- A replay ends with what was accepted since the last restart. -/
def World.Replays : Prop :=
  ∀ topic, acceptedOn topic world.events ≠ [] → ∃ older,
    (replay topic).outcome world.bus =
      .ok (older ++ (acceptedOn topic world.events).map Json.canonical)

/-- The stored log of a topic is this list of messages, without a gap or an unreadable entry. -/
def Holds (entries : OrderedDict String Entry) (topic : String) (messages : List Json) : Prop :=
  Numbered (fun seq ↦ entries.get? (logKey topic seq)) (messages.map Entry.message)

theorem logKey_inj {topic other : String} {seq position : Nat}
    (hkey : logKey topic seq = logKey other position) : topic = other ∧ seq = position := by
  have hslash : ("/" : String) = String.singleton '/' := by decide
  unfold logKey at hkey
  rw [hslash, String.append_assoc, String.append_assoc, String.append_assoc, String.append_assoc,
    String.append_right_inj, ← String.append_assoc, ← String.append_assoc] at hkey
  obtain ⟨htopic, hseq⟩ := separator_append_inj '/' (notMem_toString seq (by decide))
    (notMem_toString position (by decide)) hkey
  exact ⟨htopic, toString_inj hseq⟩

namespace Port

variable {port : Port} {topic : String}

/-- The probe stops at a number that cannot be read, after numbers that can, or its turns run
out. -/
theorem probe_spec (port : Port) (topic : String) (turns seq : Nat) :
    seq ≤ port.probe topic turns seq ∧
      (∀ position, seq ≤ position → position < port.probe topic turns seq →
        port.readable (logKey topic position) = true) ∧
      (port.readable (logKey topic (port.probe topic turns seq)) = false ∨
        port.probe topic turns seq = seq + turns) := by
  induction turns generalizing seq with
  | zero =>
    refine ⟨le_rfl, fun position hlow hhigh ↦ ?_, .inr rfl⟩
    have hsame : port.probe topic 0 seq = seq := rfl
    omega
  | succ turns ih =>
    unfold probe
    by_cases hreadable : port.readable (logKey topic seq) = true
    · rw [if_pos hreadable]
      obtain ⟨hlow, hbetween, hstop⟩ := ih (seq + 1)
      refine ⟨by omega, fun position hposition hhigh ↦ ?_, ?_⟩
      · by_cases heq : position = seq
        · rw [heq]
          exact hreadable
        · exact hbetween position (by omega) hhigh
      · rcases hstop with hstop | hstop
        · exact .inl hstop
        · exact .inr (by omega)
    · rw [if_neg hreadable]
      refine ⟨le_rfl, fun position hlow hhigh ↦ by omega, .inl ?_⟩
      simpa using hreadable

theorem mem_keys_of_readable {key : String} (hreadable : port.readable key = true) :
    key ∈ port.entries.keys := by
  by_contra hmissing
  have hnone := (get?_eq_none_iff _).mpr hmissing
  unfold readable at hreadable
  rw [hnone] at hreadable
  cases hreadable

theorem readable_below_floor {seq : Nat} (hseq : seq < port.floor topic) :
    port.readable (logKey topic seq) = true :=
  (probe_spec port topic (port.entries.items.length + 1) 0).2.1 seq (Nat.zero_le seq) hseq

theorem readable_floor (port : Port) (topic : String) :
    port.readable (logKey topic (port.floor topic)) = false := by
  obtain ⟨-, hbelow, hstop⟩ := probe_spec port topic (port.entries.items.length + 1) 0
  rcases hstop with hstop | hstop
  · exact hstop
  · have hall : ∀ seq < port.entries.items.length + 1, logKey topic seq ∈ port.entries.keys :=
      fun seq hseq ↦ mem_keys_of_readable (hbelow seq (Nat.zero_le seq) (by omega))
    have hnodup : ((List.range (port.entries.items.length + 1)).map (logKey topic)).Nodup :=
      List.Nodup.map (fun _ _ hkey ↦ (logKey_inj hkey).2) nodup_range
    have hsubset : (List.range (port.entries.items.length + 1)).map (logKey topic) ⊆
        port.entries.keys := by
      intro key hkey
      obtain ⟨seq, hseq, rfl⟩ := mem_map.mp hkey
      exact hall seq (List.mem_range.mp hseq)
    have hlength := (subperm_of_subset hnodup hsubset).length_le
    simp only [OrderedDict.keys, length_map, length_range] at hlength
    omega

theorem floor_of_holds {messages : List Json} (hholds : Holds port.entries topic messages) :
    port.floor topic = messages.length := by
  have hlength : port.floor topic = (messages.map Entry.message).length := by
    apply hholds.first_missing
    · intro earlier hearlier
      have hmem := mem_keys_of_readable (readable_below_floor hearlier)
      by_contra hnone
      exact (get?_eq_none_iff _).mp (by simpa using hnone) hmem
    · have hunreadable := readable_floor port topic
      have hget : port.entries.get? (logKey topic (port.floor topic)) =
          (messages[port.floor topic]?).map Entry.message := by
        rw [← getElem?_map]
        exact hholds _
      unfold readable at hunreadable
      rw [hget] at hunreadable
      rw [hget]
      cases hmessage : messages[port.floor topic]? with
      | none => rfl
      | some message =>
        rw [hmessage] at hunreadable
        cases hunreadable
  rw [hlength, length_map]

end Port

/-! ### What one operation does -/

/-- The queues, the entries and the next sequence numbers are the same. -/
structure Bus.Still (bus next : Bus) : Prop where
  queues : next.queues = bus.queues
  entries : next.storage.map Port.entries = bus.storage.map Port.entries
  seq : ∀ topic, (next.storage.map fun port ↦ next.seqOf port topic) =
    bus.storage.map fun port ↦ bus.seqOf port topic

theorem Bus.Still.refl (bus : Bus) : bus.Still bus := ⟨rfl, rfl, fun _ ↦ rfl⟩

theorem Bus.Same.still {bus next : Bus} (hsame : bus.Same next) : bus.Still next :=
  { hsame with }

variable {port : Port}

theorem Bus.still_lookedUp {bus : Bus} (hstorage : bus.storage = some port)
    (topic : String) : bus.Still (bus.lookedUp port topic) := by
  refine ⟨rfl, rfl, fun other ↦ ?_⟩
  show (bus.storage.map fun port' ↦ (bus.lookedUp port topic).seqOf port' other) = _
  rw [hstorage, map_some, map_some, bus.seqOf_lookedUp]

inductive World.Effect (world : World) : World → Prop
  | quiet (bus : Bus) (hstill : world.bus.Still bus) : world.Effect { world with bus := bus }
  | subscribed (topic subscriber : String)
      (hnew : world.bus.queues.get? (topic, subscriber) = none) :
      world.Effect { world with
        bus.queues := world.bus.queues.insert (topic, subscriber) []
        events := world.events ++ [.subscribed topic subscriber] }
  | accepted (topic : String) (message : Json) (haccepts : world.bus.Accepts topic message) :
      world.Effect { world with
        bus := world.bus.published topic message
        events := world.events ++ [.accepted topic message] }
  | drained (topic subscriber : String) (messages : List Json)
      (hqueue : world.bus.queues.get? (topic, subscriber) = some messages) :
      world.Effect { world with
        bus.queues := world.bus.queues.insert (topic, subscriber) []
        events := world.events ++ [.drained topic subscriber messages] }
  | restarted (maxQueueDepth maxAttempts : Nat) :
      world.Effect {
        bus := Bus.new world.bus.storage maxQueueDepth maxAttempts
        past := world.past ++ world.events
        events := [] }

section Effects

variable {bus : Bus} {topic subscriber : String} {message : Json}

/-- A subscription raises and changes nothing, or it adds an empty queue. -/
theorem subscribe_cases (bus : Bus) (topic subscriber : String) (durable : Bool) :
    (∃ error, (subscribe topic subscriber durable).outcome bus = .error error ∧
        (subscribe topic subscriber durable).after bus = bus) ∨
      ((subscribe topic subscriber durable).outcome bus = .ok ⟨⟩ ∧
        bus.queues.get? (topic, subscriber) = none ∧
        (subscribe topic subscriber durable).after bus =
          { bus with queues := bus.queues.insert (topic, subscriber) [] }) := by
  unfold subscribe
  rw [outcome_get_bind, after_get_bind]
  by_cases hunknown : (bus.registry.get? topic).isNone
  · simp only [if_pos hunknown]
    exact .inl ⟨_, rfl, rfl⟩
  · simp only [if_neg hunknown]
    by_cases hdurable : durable ∧ bus.storage.isNone
    · simp only [if_pos hdurable]
      exact .inl ⟨_, rfl, rfl⟩
    · simp only [if_neg hdurable]
      by_cases hpresent : (bus.queues.get? (topic, subscriber)).isSome
      · simp only [if_pos hpresent]
        exact .inl ⟨_, rfl, rfl⟩
      · simp only [if_neg hpresent]
        exact .inr ⟨rfl, by simpa using hpresent, rfl⟩

/-- A drain raises and changes nothing, or it empties a queue and returns what it held. -/
theorem drain_cases (bus : Bus) (topic subscriber : String) :
    (∃ error, (drain topic subscriber).outcome bus = .error error ∧
        (drain topic subscriber).after bus = bus) ∨
      ∃ queue, bus.queues.get? (topic, subscriber) = some queue ∧
        (drain topic subscriber).outcome bus = .ok queue ∧ (drain topic subscriber).after bus =
          { bus with queues := bus.queues.insert (topic, subscriber) [] } := by
  unfold drain
  rw [outcome_get_bind, after_get_bind]
  cases hqueue : bus.queues.get? (topic, subscriber) with
  | none => exact .inl ⟨_, rfl, rfl⟩
  | some queue => exact .inr ⟨queue, rfl, rfl, rfl⟩

theorem still_registerTopic (bus : Bus) (topic : String) (kind : TopicKind) :
    bus.Still ((registerTopic topic kind).after bus) := by
  unfold registerTopic
  rw [after_get_bind]
  by_cases hpresent : (bus.registry.get? topic).isSome
  · rw [if_pos hpresent]
    exact Bus.Still.refl bus
  · rw [if_neg hpresent]
    exact ⟨rfl, rfl, fun _ ↦ rfl⟩

/-- The answer of a replay, over a port. -/
theorem replay_spec (hstorage : bus.storage = some port) (topic : String) :
    (replay topic).outcome bus =
        ((List.range (bus.seqOf port topic)).mapM fun seq ↦ port.load (logKey topic seq)) ∧
      (replay topic).after bus = bus.lookedUp port topic := by
  obtain ⟨hok, hafter⟩ := seqFloor_spec bus port topic
  unfold replay
  rw [outcome_get_bind, after_get_bind]
  simp only [hstorage]
  rw [outcome_bind, after_bind, hok, hafter]
  simp only
  cases (List.range (bus.seqOf port topic)).mapM fun seq ↦ port.load (logKey topic seq) with
  | ok messages | error error => exact ⟨rfl, rfl⟩

theorem still_replay (bus : Bus) (topic : String) : bus.Still ((replay topic).after bus) := by
  cases hstorage : bus.storage with
  | none =>
    unfold replay
    rw [after_get_bind]
    simp only [hstorage]
    exact Bus.Still.refl bus
  | some port =>
    rw [(replay_spec hstorage topic).2]
    exact Bus.still_lookedUp hstorage topic

end Effects

theorem World.call_quiet {Result : Type} (world : World) (call : BusCall Result) :
    (world.call call fun _ ↦ []) = { world with bus := call.after world.bus } := by
  unfold World.call
  cases call.outcome world.bus <;> simp

theorem World.effect_perform (operation : Operation) :
    world.Effect (world.perform operation) := by
  cases operation with
  | registerTopic topic kind =>
    show world.Effect (world.call _ _)
    rw [World.call_quiet]
    exact .quiet _ (still_registerTopic world.bus topic kind)
  | subscribe topic subscriber durable =>
    show world.Effect (world.call _ _)
    rcases subscribe_cases world.bus topic subscriber durable with
      ⟨error, herror, hafter⟩ | ⟨hok, hnew, hafter⟩
    · unfold World.call
      rw [herror, hafter]
      exact .quiet world.bus (Bus.Still.refl world.bus)
    · unfold World.call
      rw [hok, hafter]
      exact .subscribed topic subscriber hnew
  | publish topic message =>
    show world.Effect (world.call _ _)
    unfold World.call
    by_cases haccepts : world.bus.Accepts topic message
    · obtain ⟨hok, hafter⟩ := publish_accepted haccepts
      rw [hok, hafter]
      exact .accepted topic message haccepts
    · obtain ⟨⟨error, herror⟩, hsame⟩ := publish_refused haccepts
      rw [herror]
      exact .quiet _ hsame.still
  | drain topic subscriber =>
    show world.Effect (world.call _ _)
    unfold World.call
    rcases drain_cases world.bus topic subscriber with
      ⟨error, herror, hafter⟩ | ⟨messages, hqueue, hok, hafter⟩
    · rw [herror, hafter]
      exact .quiet world.bus (Bus.Still.refl world.bus)
    · rw [hok, hafter]
      exact .drained topic subscriber messages hqueue
  | replay topic =>
    show world.Effect (world.call _ _)
    rw [World.call_quiet]
    exact .quiet _ (still_replay world.bus topic)
  | restart maxQueueDepth maxAttempts => exact .restarted maxQueueDepth maxAttempts

/-! ### The log of a run -/

@[simp] theorem acceptedOn_append (topic : String) (first second : List Event) :
    acceptedOn topic (first ++ second) = acceptedOn topic first ++ acceptedOn topic second :=
  filterMap_append

theorem acceptedOn_accepted (topic name : String) (message : Json) :
    acceptedOn topic [.accepted name message] = if name = topic then [message] else [] := by
  unfold acceptedOn
  by_cases hname : name = topic <;> simp [Event.acceptedOn, hname]

/-- The log of a topic: what it held at first, and what was accepted since. -/
def World.log (old : String → List Json) (topic : String) : List Json :=
  old topic ++ (acceptedOn topic (world.past ++ world.events)).map Json.canonical

/-- The storage holds the logs, and the bus knows where they end. -/
def World.Tracks (old : String → List Json) : Prop :=
  ∃ port, world.bus.storage = some port ∧ ∀ topic,
    Holds port.entries topic (world.log old topic) ∧
      world.bus.seqOf port topic = (world.log old topic).length

section Tracks

variable {world next : World} {old : String → List Json}

/-- Writing a message under the next number of its topic appends it to the topic's log and to no
other. -/
theorem holds_written {bus : Bus} {topic : String} {messages : List Json}
    (hholds : Holds port.entries topic messages) (name : String) (message : Json)
    (hseq : name = topic → bus.seqOf port name = messages.length) :
    Holds (bus.written port name message).entries topic
      (messages ++ if name = topic then [message.canonical] else []) := by
  by_cases hname : name = topic
  · obtain rfl := hname
    have hlength : (messages.map Entry.message).length = messages.length := length_map _
    rw [if_pos rfl]
    unfold Holds
    rw [map_append, map_singleton]
    refine hholds.write fun seq ↦ ?_
    show (port.entries.insert _ _).get? _ = _
    rw [get?_insert, hseq rfl, hlength]
    by_cases heq : seq = messages.length
    · rw [if_pos heq, if_pos (by rw [heq])]
    · rw [if_neg heq, if_neg fun hkey ↦ heq (logKey_inj hkey).2.symm]
  · rw [if_neg hname, append_nil]
    intro seq
    show (port.entries.insert _ _).get? _ = _
    rw [get?_insert, if_neg fun hkey ↦ hname (logKey_inj hkey).1]
    exact hholds seq

theorem World.Tracks.effect (htracks : world.Tracks old) (heffect : world.Effect next) :
    next.Tracks old := by
  obtain ⟨port, hstorage, hlogs⟩ := htracks
  cases heffect with
  | quiet bus hstill =>
    have hentries := hstill.entries
    rw [hstorage, map_some, map_eq_some_iff] at hentries
    obtain ⟨port', hstorage', hsame⟩ := hentries
    refine ⟨port', hstorage', fun topic ↦ ⟨?_, ?_⟩⟩
    · rw [hsame]
      exact (hlogs topic).1
    · have hseq := hstill.seq topic
      rw [hstorage, hstorage', map_some, map_some] at hseq
      exact (Option.some.inj hseq).trans (hlogs topic).2
  | subscribed name subscriber hnew =>
    refine ⟨port, hstorage, fun topic ↦ ?_⟩
    have hlog : World.log { world with events := world.events ++ [.subscribed name subscriber] }
        old topic = world.log old topic := by
      simp [World.log, acceptedOn, Event.acceptedOn]
    exact hlog ▸ hlogs topic
  | accepted name message haccepts =>
    refine ⟨world.bus.written port name message, by
      show world.bus.storage.map _ = _
      rw [hstorage]
      rfl, fun topic ↦ ?_⟩
    obtain ⟨hholds, hlength⟩ := hlogs topic
    have hlog : World.log { world with
        bus := world.bus.published name message
        events := world.events ++ [.accepted name message] } old topic =
          world.log old topic ++ if name = topic then [message.canonical] else [] := by
      simp only [World.log, acceptedOn_append, acceptedOn_accepted, map_append, append_assoc]
      by_cases hname : name = topic <;> simp [hname]
    have hnext : name = topic → world.bus.seqOf port name = (world.log old topic).length := by
      rintro rfl
      exact hlength
    have hwritten := holds_written hholds name message hnext
    rw [hlog]
    refine ⟨hwritten, ?_⟩
    show ((world.bus.published name message).logSeq.get? topic).getD _ = _
    have hlogSeq : (world.bus.published name message).logSeq =
        world.bus.logSeq.insert name (world.bus.seqOf port name + 1) := by
      unfold Bus.published
      rw [hstorage]
    rw [hlogSeq, get?_insert]
    by_cases hname : name = topic
    · rw [if_pos hname, if_pos hname, getD_some, hname, hlength, length_append, length_singleton]
    · -- The next number of another topic is known, or the probe of its log finds it.
      rw [if_neg hname]
      rw [if_neg hname, append_nil] at hwritten ⊢
      unfold Bus.seqOf at hlength
      cases hknown : world.bus.logSeq.get? topic with
      | some seq =>
        rw [hknown] at hlength
        exact hlength
      | none => exact Port.floor_of_holds hwritten
  | drained name subscriber messages hqueue =>
    refine ⟨port, hstorage, fun topic ↦ ?_⟩
    have hlog : World.log { world with
        events := world.events ++ [.drained name subscriber messages] } old topic =
          world.log old topic := by
      simp [World.log, acceptedOn, Event.acceptedOn]
    exact hlog ▸ hlogs topic
  | restarted maxQueueDepth maxAttempts =>
    refine ⟨port, hstorage, fun topic ↦ ?_⟩
    obtain ⟨hholds, -⟩ := hlogs topic
    have hlog : World.log ⟨Bus.new world.bus.storage maxQueueDepth maxAttempts,
        world.past ++ world.events, []⟩ old topic = world.log old topic := by
      simp [World.log]
    rw [hlog]
    exact ⟨hholds, Port.floor_of_holds hholds⟩

theorem World.tracks_run (htracks : world.Tracks old) (operations : List Operation) :
    (world.run operations).Tracks old := by
  induction operations generalizing world with
  | nil => exact htracks
  | cons operation rest ih => exact ih (htracks.effect (world.effect_perform operation))

theorem World.tracks_start {entries : OrderedDict String Entry}
    (hintact : ∀ topic, Holds entries topic (old topic)) (refuses : Nat → Bool)
    (maxQueueDepth maxAttempts : Nat) :
    (World.start entries refuses maxQueueDepth maxAttempts).Tracks old := by
  refine ⟨⟨entries, refuses, 0⟩, rfl, fun topic ↦ ?_⟩
  have hlog : (World.start entries refuses maxQueueDepth maxAttempts).log old topic =
      old topic := by
    simp [World.log, World.start, acceptedOn]
  rw [hlog]
  exact ⟨hintact topic, Port.floor_of_holds (hintact topic)⟩

theorem World.Tracks.replay_eq (htracks : world.Tracks old) (topic : String) :
    (replay topic).outcome world.bus = .ok (world.log old topic) := by
  obtain ⟨port, hstorage, hlogs⟩ := htracks
  obtain ⟨hholds, hlength⟩ := hlogs topic
  rw [(replay_spec hstorage topic).1, hlength]
  apply mapM_range_eq_ok
  intro seq message hmessage
  have hget : port.entries.get? (logKey topic seq) = some (.message message) := by
    refine (hholds seq).trans ?_
    rw [getElem?_map, hmessage, map_some]
  unfold Port.load
  rw [hget]

theorem World.Tracks.replays (htracks : world.Tracks old) : world.Replays := by
  intro topic _
  refine ⟨old topic ++ (acceptedOn topic world.past).map Json.canonical, ?_⟩
  rw [htracks.replay_eq]
  unfold World.log
  rw [acceptedOn_append, map_append, append_assoc]

theorem items_insert_of_missing {dict : OrderedDict String Entry} {key : String} (entry : Entry)
    (hmissing : dict.get? key = none) :
    (dict.insert key entry).items = dict.items ++ [(key, entry)] :=
  upsert_of_notMem ((get?_eq_none_iff dict).mp hmissing)

theorem World.Tracks.appendsOnly (htracks : world.Tracks old) : world.AppendsOnly := by
  obtain ⟨port, hstorage, hlogs⟩ := htracks
  intro port' hport topic message
  obtain rfl : port = port' := Option.some.inj (hstorage.symm.trans hport)
  by_cases haccepts : world.bus.Accepts topic message
  · obtain ⟨hok, hafter⟩ := publish_accepted haccepts
    obtain ⟨hholds, hlength⟩ := hlogs topic
    rw [hok, hafter]
    refine ⟨world.bus.seqOf port topic, ?_⟩
    have hmissing : port.entries.get? (logKey topic (world.bus.seqOf port topic)) = none := by
      rw [hlength, ← length_map (f := Entry.message)]
      exact hholds.at_length
    show (world.bus.storage.map _).map _ = _
    rw [hstorage, map_some, map_some]
    exact congrArg some (items_insert_of_missing _ hmissing)
  · obtain ⟨⟨error, herror⟩, hsame⟩ := publish_refused haccepts
    rw [herror]
    rw [hsame.entries, hstorage]
    rfl

end Tracks

end AbsoluteZero.Communication

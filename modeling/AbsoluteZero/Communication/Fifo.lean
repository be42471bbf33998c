import AbsoluteZero.Communication.BusLog
import AbsoluteZero.Communication.Delivery

/-!
# Order of delivery

What a subscription drained, followed by what is pending for it, is what was accepted on its topic
since it subscribed on the bus in use (`World.Queued`). `World.fifo` puts it beside the log: over
intact storage a replay gives what was accepted on all buses.
-/

namespace AbsoluteZero.Communication

open Foundations List

def Event.drainedFrom (topic subscriber : String) : Event → List Json
  | .drained name member messages => if name = topic ∧ member = subscriber then messages else []
  | .subscribed _ _ | .accepted _ _ => []

def drainsOf (topic subscriber : String) (events : List Event) : List Json :=
  events.flatMap (Event.drainedFrom topic subscriber)

def sinceSubscribed (topic subscriber : String) : List Event → List Json
  | [] => []
  | event :: rest =>
    if event = .subscribed topic subscriber then acceptedOn topic rest
    else sinceSubscribed topic subscriber rest

variable {topic subscriber : String}

theorem drainsOf_append (first second : List Event) : drainsOf topic subscriber (first ++ second) =
      drainsOf topic subscriber first ++ drainsOf topic subscriber second :=
  flatMap_append

/-- Before the subscription nothing counts, and after it everything that is accepted. -/
theorem sinceSubscribed_append (first second : List Event) :
    sinceSubscribed topic subscriber (first ++ second) =
      if .subscribed topic subscriber ∈ first then
        sinceSubscribed topic subscriber first ++ acceptedOn topic second
      else sinceSubscribed topic subscriber second := by
  induction first with
  | nil => simp
  | cons event rest ih =>
    rw [cons_append, sinceSubscribed, sinceSubscribed]
    by_cases hevent : event = .subscribed topic subscriber
    · rw [if_pos hevent, if_pos hevent, if_pos (by rw [hevent]; exact mem_cons_self),
        acceptedOn_append]
    · rw [if_neg hevent, if_neg hevent, ih]
      have hmem : (.subscribed topic subscriber ∈ event :: rest) ↔
          .subscribed topic subscriber ∈ rest := by
        rw [mem_cons]
        constructor
        · rintro (heq | hmem)
          · exact absurd heq.symm hevent
          · exact hmem
        · exact Or.inr
      simp only [hmem]

/-- A queue is in step with what happened. Without a queue there was no subscription and no drain;
with one, the drains followed by the queue are what was accepted since the subscription. -/
def InStep (topic subscriber : String) (events : List Event) : Option (List Json) → Prop
  | none => .subscribed topic subscriber ∉ events ∧ drainsOf topic subscriber events = []
  | some queue => .subscribed topic subscriber ∈ events ∧
      drainsOf topic subscriber events ++ queue = sinceSubscribed topic subscriber events

namespace InStep

variable {events : List Event} {queue : List Json} {found : Option (List Json)}

/-- Assumes: an event is no subscription of the subscriber. What it accepts on the topic goes to the
queue, and what it drains leaves it. -/
theorem event (hstep : InStep topic subscriber events found) {event : Event}
    (hevent : event ≠ .subscribed topic subscriber) {after : Option (List Json)}
    (hnone : found = none → after = none ∧ event.drainedFrom topic subscriber = [])
    (hsome : ∀ queue, found = some queue → ∃ rest, after = some rest ∧
      event.drainedFrom topic subscriber ++ rest = queue ++ acceptedOn topic [event]) :
    InStep topic subscriber (events ++ [event]) after := by
  have hmem : (.subscribed topic subscriber ∈ events ++ [event]) ↔
      .subscribed topic subscriber ∈ events := by
    rw [mem_append, mem_singleton]
    exact or_iff_left (Ne.symm hevent)
  have hdrains : drainsOf topic subscriber (events ++ [event]) =
      drainsOf topic subscriber events ++ event.drainedFrom topic subscriber := by
    rw [drainsOf_append]
    simp [drainsOf]
  cases found with
  | none =>
    obtain ⟨hfresh, hempty⟩ := hstep
    obtain ⟨rfl, hnothing⟩ := hnone rfl
    exact ⟨fun hin ↦ hfresh (hmem.mp hin), by rw [hdrains, hempty, hnothing, append_nil]⟩
  | some queue =>
    obtain ⟨hsubscribed, hequal⟩ := hstep
    obtain ⟨rest, rfl, hrest⟩ := hsome queue rfl
    refine ⟨hmem.mpr hsubscribed, ?_⟩
    rw [hdrains, append_assoc, hrest, ← append_assoc, hequal, sinceSubscribed_append,
      if_pos hsubscribed]

theorem subscribed (hstep : InStep topic subscriber events none) :
    InStep topic subscriber (events ++ [.subscribed topic subscriber]) (some []) := by
  obtain ⟨hfresh, hempty⟩ := hstep
  refine ⟨mem_append_right _ mem_cons_self, ?_⟩
  rw [drainsOf_append, hempty, sinceSubscribed_append, if_neg hfresh]
  simp [drainsOf, Event.drainedFrom, sinceSubscribed, acceptedOn]

end InStep

/-- Every queue is in step with what happened on the bus in use. -/
def World.Queued (world : World) : Prop :=
  ∀ topic subscriber,
    InStep topic subscriber world.events (world.bus.queues.get? (topic, subscriber))

variable {world next : World}

theorem World.Queued.effect (hqueued : world.Queued) (heffect : world.Effect next) :
    next.Queued := by
  intro topic subscriber
  have hbefore := hqueued topic subscriber
  cases heffect with
  | quiet bus hstill =>
    rw [hstill.queues]
    exact hbefore
  | subscribed name member hnew =>
    rw [OrderedDict.get?_insert]
    by_cases hkey : (name, member) = (topic, subscriber)
    · obtain ⟨rfl, rfl⟩ := Prod.mk.inj hkey
      rw [if_pos rfl]
      exact InStep.subscribed (hnew ▸ hbefore)
    · rw [if_neg hkey]
      refine hbefore.event ?_ (fun hnone ↦ ⟨hnone, rfl⟩) fun queue hqueue ↦ ⟨queue, hqueue, ?_⟩
      · rintro heq
        obtain ⟨rfl, rfl⟩ := Event.subscribed.inj heq
        exact hkey rfl
      · exact (append_nil queue).symm
  | accepted name message haccepts =>
    show InStep topic subscriber (world.events ++ [.accepted name message])
      ((world.bus.enqueued name message).get? (topic, subscriber))
    rw [world.bus.get?_enqueued]
    refine hbefore.event ?_ (fun hnone ↦ ?_) fun queue hqueue ↦ ?_
    · intro heq
      cases heq
    · rw [hnone]
      exact ⟨ite_self none, rfl⟩
    · rw [hqueue, acceptedOn_accepted]
      by_cases hname : topic = name
      · rw [if_pos hname, if_pos hname.symm]
        exact ⟨_, rfl, rfl⟩
      · rw [if_neg hname, if_neg (Ne.symm hname)]
        exact ⟨queue, rfl, (append_nil queue).symm⟩
  | drained name member messages hqueue =>
    rw [OrderedDict.get?_insert]
    by_cases hkey : (name, member) = (topic, subscriber)
    · obtain ⟨rfl, rfl⟩ := Prod.mk.inj hkey
      rw [if_pos rfl]
      refine hbefore.event ?_ (fun hnone ↦ ?_) fun queue hfound ↦ ⟨[], rfl, ?_⟩
      · intro heq
        cases heq
      · rw [hqueue] at hnone
        cases hnone
      · obtain rfl : messages = queue := Option.some.inj (hqueue.symm.trans hfound)
        simp [Event.drainedFrom, acceptedOn, Event.acceptedOn]
    · rw [if_neg hkey]
      have hother : ¬ (name = topic ∧ member = subscriber) := by
        rintro ⟨hname, hmember⟩
        exact hkey (Prod.ext hname hmember)
      have hnothing : (Event.drained name member messages).drainedFrom topic subscriber = [] :=
        if_neg hother
      refine hbefore.event ?_ (fun hnone ↦ ⟨hnone, hnothing⟩) fun queue hfound ↦
        ⟨queue, hfound, ?_⟩
      · intro heq
        cases heq
      · rw [hnothing]
        exact (append_nil queue).symm
  | restarted maxQueueDepth maxAttempts => exact ⟨fun hnone ↦ (by cases hnone), rfl⟩

theorem World.queued_run (hqueued : world.Queued) (operations : List Operation) :
    (world.run operations).Queued := by
  induction operations generalizing world with
  | nil => exact hqueued
  | cons operation rest ih => exact ih (hqueued.effect (world.effect_perform operation))

/-- Assumes: every log is intact at first. Over every run, a publish that raises leaves the queues
and the entries as they are; the drains of every subscription, followed by what is pending for it,
are what was accepted on its topic since it subscribed on the bus in use; and a replay is what the
log held at first, followed by what was accepted on all the buses. -/
theorem World.fifo (entries : OrderedDict String Entry) (old : String → List Json)
    (hintact : ∀ topic, Holds entries topic (old topic)) (refuses : Nat → Bool)
    (maxQueueDepth maxAttempts : Nat) (operations : List Operation) :
    let world := (World.start entries refuses maxQueueDepth maxAttempts).run operations
    (∀ topic message error, (publish topic message).outcome world.bus = .error error →
        ((publish topic message).after world.bus).queues = world.bus.queues ∧
          ((publish topic message).after world.bus).storage.map Port.entries =
            world.bus.storage.map Port.entries) ∧
      (∀ topic subscriber queue, world.bus.queues.get? (topic, subscriber) = some queue →
        drainsOf topic subscriber world.events ++ queue =
          sinceSubscribed topic subscriber world.events) ∧
      ∀ topic, (replay topic).outcome world.bus =
        .ok (old topic ++ (acceptedOn topic (world.past ++ world.events)).map Json.canonical) := by
  intro world
  refine ⟨fun topic message error herror ↦ ?_, fun topic subscriber queue hqueue ↦ ?_, ?_⟩
  · have hrefused : ¬ world.bus.Accepts topic message := by
      intro haccepts
      rw [(publish_accepted haccepts).1] at herror
      cases herror
    obtain ⟨-, hsame⟩ := publish_refused hrefused
    exact ⟨hsame.queues, hsame.entries⟩
  · have hstart : (World.start entries refuses maxQueueDepth maxAttempts).Queued :=
      fun _ _ ↦ ⟨nofun, rfl⟩
    have hstep := World.queued_run hstart operations topic subscriber
    rw [hqueue] at hstep
    exact hstep.2
  · have htracks := World.tracks_run
      (World.tracks_start hintact refuses maxQueueDepth maxAttempts) operations
    exact htracks.replay_eq

def faultLog : OrderedDict String Entry :=
  OrderedDict.empty.insert (logKey "fault.recorded" 0) (.message (envelope "fault.recorded" "e1"))

/-- What the logs of `faultLog` hold. -/
def faultMessages (topic : String) : List Json :=
  if topic = "fault.recorded" then [envelope "fault.recorded" "e1"] else []

theorem holds_faultLog (topic : String) : Holds faultLog topic (faultMessages topic) := by
  intro seq
  show faultLog.get? (logKey topic seq) = _
  unfold faultLog faultMessages
  rw [OrderedDict.get?_insert]
  by_cases htopic : topic = "fault.recorded"
  · rw [if_pos htopic]
    cases seq with
    | zero => rw [if_pos (by rw [htopic]), map_singleton, getElem?_cons_zero]
    | succ seq => rw [if_neg fun hkey ↦ absurd (logKey_inj hkey).2 (Nat.succ_ne_zero seq).symm]; rfl
  · rw [if_neg htopic, if_neg fun hkey ↦ htopic (logKey_inj hkey).1.symm]
    rfl

/-- A bus accepts one fault, and the next one another before a drain and one after it. -/
theorem World.fifo_sample :
    let world := (World.start faultLog (fun _ ↦ false) 10 3).run
      [.publish "fault.recorded" (envelope "fault.recorded" "e2"), .restart 10 3,
        .subscribe "fault.recorded" "obs" true,
        .publish "fault.recorded" (envelope "fault.recorded" "e3"),
        .drain "fault.recorded" "obs",
        .publish "fault.recorded" (envelope "fault.recorded" "e4")]
    drainsOf "fault.recorded" "obs" world.events ++ [envelope "fault.recorded" "e4"] =
        sinceSubscribed "fault.recorded" "obs" world.events ∧
      (replay "fault.recorded").outcome world.bus = .ok (faultMessages "fault.recorded" ++
        (acceptedOn "fault.recorded" (world.past ++ world.events)).map Json.canonical) := by
  intro world
  obtain ⟨-, hqueues, hreplay⟩ := World.fifo faultLog faultMessages holds_faultLog (fun _ ↦ false)
    10 3 [.publish "fault.recorded" (envelope "fault.recorded" "e2"), .restart 10 3,
      .subscribe "fault.recorded" "obs" true,
      .publish "fault.recorded" (envelope "fault.recorded" "e3"),
      .drain "fault.recorded" "obs",
      .publish "fault.recorded" (envelope "fault.recorded" "e4")]
  exact ⟨hqueues _ _ _ (by decide), hreplay _⟩

end AbsoluteZero.Communication

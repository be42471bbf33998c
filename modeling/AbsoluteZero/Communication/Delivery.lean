import AbsoluteZero.Communication.Publishing

/-!
# Push delivery

`deliver_with` drains a subscription and hands each message to a handler, a bounded number of times;
a message that the handler never takes becomes a dead letter, and `delivery.failed` is published for
it. When that publish raises, the rest of what was drained is lost (`Bus.deliver_keeps_iff`).
-/

namespace AbsoluteZero.Communication

open Foundations Call List

/-! ### The call -/

def deliveryFailedTopic : String := "delivery.failed"

/-- What a handler does with the message at a position at each attempt: it returns, or it raises an
error with this `repr`. -/
abbrev Handler := Nat → Nat → Option String

/-- How a drained message ends: the handler takes it, or it is a dead letter, with its position,
that was announced. -/
inductive Fate
  | handled
  | announced (letter : Nat)

/-- A bus during a delivery, with what was accepted and the fates of the drained messages so far. -/
structure Delivery where
  bus : Bus
  accepted : List (String × Json)
  fates : List (Nat × Fate)

abbrev DeliveryCall := Call Delivery BusError

def Delivery.busPart : Call.Part Delivery Bus where
  read := Delivery.bus
  replace := fun bus delivery ↦ { delivery with bus := bus }
  read_replace := fun _ _ ↦ rfl

/-- The result of the attempts with one message. -/
inductive Attempted
  | handled
  | failed (reason : String)
  | untried

/-- The loop over the attempts, from one of them on and for a number of them. -/
def attempt (answers : Nat → Option String) : (number left : Nat) → Attempted
  | _, 0 => .untried
  | number, left + 1 =>
    match answers number with
    | none => .handled
    | some reason => if left = 0 then .failed reason else attempt answers (number + 1) left

def announcement (number : Nat) (letter : DeadLetter) : Json :=
  .obj [("event_id", .str ("dlq-" ++ toString number)),
    ("event_name", .str deliveryFailedTopic),
    ("request_id", letter.message.item "request_id"),
    ("timestamp", .int 0),
    ("payload", .obj [("topic", .str letter.topic), ("subscriber", .str letter.subscriber),
      ("reason", .str letter.reason)])]

/-- A message is dead-lettered, and `delivery.failed` is published for it. -/
def bury (index : Nat) (letter : DeadLetter) : DeliveryCall Unit := do
  let delivery ← get
  let number := delivery.bus.deadLetters.length
  modify fun delivery ↦
    { delivery with bus.deadLetters := delivery.bus.deadLetters ++ [letter] }
  (publish deliveryFailedTopic (announcement (number + 1) letter)).on Delivery.busPart
  modify fun delivery ↦ { delivery with
    accepted := delivery.accepted ++ [(deliveryFailedTopic, announcement (number + 1) letter)]
    fates := delivery.fates ++ [(index, .announced number)] }

/-- The loop over the drained messages, from a position on. -/
def deliverEach (topic subscriber : String) (handler : Handler) :
    (messages : List Json) → (index delivered dead : Nat) → DeliveryCall (Nat × Nat)
  | [], _, delivered, dead => pure (delivered, dead)
  | message :: rest, index, delivered, dead => do
    let delivery ← get
    match attempt (handler index) 1 delivery.bus.maxAttempts with
    | .handled => do
      modify fun delivery ↦ { delivery with fates := delivery.fates ++ [(index, .handled)] }
      deliverEach topic subscriber handler rest (index + 1) (delivered + 1) dead
    | .failed reason => do
      bury index ⟨topic, subscriber, message, reason⟩
      deliverEach topic subscriber handler rest (index + 1) delivered (dead + 1)
    | .untried => deliverEach topic subscriber handler rest (index + 1) delivered dead

def deliverWith (topic subscriber : String) (handler : Handler) : DeliveryCall (Nat × Nat) := do
  let messages ← (drain topic subscriber).on Delivery.busPart
  deliverEach topic subscriber handler messages 0 0 0

/-! ### When nothing is lost -/

/-- The number of messages that the handler takes at no attempt, from a position on. -/
def failures (handler : Handler) (attempts : Nat) : (messages : List Json) → (index : Nat) → Nat
  | [], _ => 0
  | _ :: rest, index =>
    match attempt (handler index) 1 attempts with
    | .failed _ => failures handler attempts rest (index + 1) + 1
    | .handled | .untried => failures handler attempts rest (index + 1)

/-- The bus accepts this many announcements: every subscriber of `delivery.failed` has room for
them, and the port takes the next writes. The topic is registered on every bus. -/
def Bus.Announces (bus : Bus) (count : Nat) : Prop :=
  count ≠ 0 → (bus.registry.get? deliveryFailedTopic).isSome ∧
    (∀ subscriber queue, bus.queues.get? (deliveryFailedTopic, subscriber) = some queue →
      queue.length + count ≤ bus.maxQueueDepth) ∧
    ∀ port ∈ bus.storage, ∀ turn < count, port.refuses (port.writes + turn) = false

def Bus.drained (bus : Bus) (topic subscriber : String) : Bus :=
  match bus.queues.get? (topic, subscriber) with
  | none => bus
  | some _ => { bus with queues := bus.queues.insert (topic, subscriber) [] }

/-- The fate of a drained message is known: the handler took it, or it is a dead letter and
`delivery.failed` was published for it. -/
def Delivery.Settled (delivery : Delivery) (topic subscriber : String) (index : Nat)
    (message : Json) : Prop :=
  (index, .handled) ∈ delivery.fates ∨ ∃ number reason,
    (index, .announced number) ∈ delivery.fates ∧
      delivery.bus.deadLetters[number]? = some ⟨topic, subscriber, message, reason⟩ ∧
      (deliveryFailedTopic, announcement (number + 1) ⟨topic, subscriber, message, reason⟩) ∈
        delivery.accepted

def Delivery.acceptedOn (delivery : Delivery) (topic : String) : List Json :=
  (delivery.accepted.filter fun entry ↦ entry.1 = topic).map Prod.snd

/-- The message at a position among those that were pending is settled, or it is still pending: the
queue holds the old messages from this position or an earlier one on, followed by what was accepted
during the delivery. -/
def Delivery.Keeps (delivery : Delivery) (topic subscriber : String) (messages : List Json)
    (index : Nat) (message : Json) : Prop :=
  delivery.Settled topic subscriber index message ∨ ∃ position ≤ index,
    delivery.bus.queue topic subscriber =
      messages.drop position ++ delivery.acceptedOn topic

section Announcements

variable (bus : Bus) (number : Nat) (letter : DeadLetter)

theorem validate_announcement (registry : Registry) :
    validate deliveryFailedTopic (announcement number letter) registry = .ok () ↔
      (registry.get? deliveryFailedTopic).isSome := by
  have hshape : checkEnvelope deliveryFailedTopic (announcement number letter) = .ok () := by
    simp [checkEnvelope, missingField, envelopeFields, announcement, Json.get?, Json.item,
      Json.getD, OrderedDict.find, Json.pyEq, Json.nonemptyStr, Json.fields?]
  unfold validate
  cases registry.get? deliveryFailedTopic with
  | none => simp
  | some kind =>
    cases kind with
    | envelope => simpa [announcement, Json.fields?] using hshape
    | record => simp [announcement, Json.fields?]

/-- One more announcement is accepted when the next one is, and the others are afterwards. -/
theorem Bus.announces_succ_iff (count : Nat) : bus.Announces (count + 1) ↔
    bus.Accepts deliveryFailedTopic (announcement number letter) ∧
      (bus.published deliveryFailedTopic (announcement number letter)).Announces count := by
  have hqueue : ∀ subscriber, (bus.published deliveryFailedTopic
      (announcement number letter)).queues.get? (deliveryFailedTopic, subscriber) =
        (bus.queues.get? (deliveryFailedTopic, subscriber)).map
          (· ++ [announcement number letter]) := by
    intro subscriber
    exact (bus.get?_enqueued _ _ _).trans (if_pos rfl)
  constructor
  · intro hannounces
    obtain ⟨hregistered, hroom, hstored⟩ := hannounces (Nat.succ_ne_zero count)
    refine ⟨⟨(validate_announcement number letter _).mpr hregistered, ?_, ?_⟩, fun hcount ↦
      ⟨hregistered, ?_, ?_⟩⟩
    · rw [bus.full_eq_none_iff]
      intro subscriber queue hget
      have hlength := hroom subscriber queue hget
      omega
    · intro port hport
      exact hstored port hport 0 (Nat.succ_pos count)
    · intro subscriber queue hget
      rw [hqueue, Option.map_eq_some_iff] at hget
      obtain ⟨old, hold, rfl⟩ := hget
      have hlength := hroom subscriber old hold
      show (old ++ [_]).length + count ≤ bus.maxQueueDepth
      rw [length_append, length_singleton]
      omega
    · intro port hport turn hturn
      obtain ⟨old, hold, rfl⟩ := Option.map_eq_some_iff.mp hport
      show old.refuses (old.writes + 1 + turn) = false
      rw [Nat.add_assoc, Nat.add_comm 1 turn]
      exact hstored old hold (turn + 1) (Nat.succ_lt_succ hturn)
  · rintro ⟨⟨hvalid, hfree, htakes⟩, hrest⟩ -
    refine ⟨(validate_announcement number letter _).mp hvalid, fun subscriber queue hget ↦ ?_,
      fun port hport turn hturn ↦ ?_⟩
    · by_cases hcount : count = 0
      · have hlength := bus.full_eq_none_iff.mp hfree subscriber queue hget
        omega
      · have hlength := (hrest hcount).2.1 subscriber (queue ++ [announcement number letter])
          (by rw [hqueue, hget]; rfl)
        rw [length_append, length_singleton] at hlength
        have hdepth : (bus.published deliveryFailedTopic
            (announcement number letter)).maxQueueDepth = bus.maxQueueDepth := rfl
        omega
    · cases turn with
      | zero => exact htakes port hport
      | succ turn =>
        have hlater := (hrest (by omega)).2.2 _ (Option.map_eq_some_iff.mpr ⟨port, hport, rfl⟩)
          turn (by omega)
        have hsame : port.writes + (turn + 1) = port.writes + 1 + turn := by omega
        rw [hsame]
        exact hlater

end Announcements

/-- What a delivery goes through after some position keeps: nothing recorded is lost, later fates
are of later positions, and a queue only grows by what is accepted. -/
structure Delivery.Onward (index : Nat) (before after : Delivery) : Prop where
  fates : ∃ more, after.fates = before.fates ++ more ∧ ∀ entry ∈ more, index ≤ entry.1
  letters : ∃ more, after.bus.deadLetters = before.bus.deadLetters ++ more
  accepted : ∃ more, after.accepted = before.accepted ++ more
  queue : ∀ topic subscriber, (before.bus.queues.get? (topic, subscriber)).isSome → ∃ added,
    after.acceptedOn topic = before.acceptedOn topic ++ added ∧
      after.bus.queue topic subscriber = before.bus.queue topic subscriber ++ added ∧
      (after.bus.queues.get? (topic, subscriber)).isSome

namespace Delivery.Onward

variable {index : Nat} {first second third : Delivery}

theorem refl (index : Nat) (delivery : Delivery) : Delivery.Onward index delivery delivery where
  fates := ⟨[], (append_nil _).symm, nofun⟩
  letters := ⟨[], (append_nil _).symm⟩
  accepted := ⟨[], (append_nil _).symm⟩
  queue := fun _ _ hsome ↦ ⟨[], (append_nil _).symm, (append_nil _).symm, hsome⟩

theorem trans (hfirst : Delivery.Onward index first second)
    (hsecond : Delivery.Onward (index + 1) second third) : Delivery.Onward index first third where
  fates := by
    obtain ⟨more, hmore, hbound⟩ := hfirst.fates
    obtain ⟨other, hother, hbound'⟩ := hsecond.fates
    refine ⟨more ++ other, by rw [hother, hmore, append_assoc], fun entry hentry ↦ ?_⟩
    rcases mem_append.mp hentry with hmem | hmem
    · exact hbound entry hmem
    · exact Nat.le_of_succ_le (hbound' entry hmem)
  letters := by
    obtain ⟨more, hmore⟩ := hfirst.letters
    obtain ⟨other, hother⟩ := hsecond.letters
    exact ⟨more ++ other, by rw [hother, hmore, append_assoc]⟩
  accepted := by
    obtain ⟨more, hmore⟩ := hfirst.accepted
    obtain ⟨other, hother⟩ := hsecond.accepted
    exact ⟨more ++ other, by rw [hother, hmore, append_assoc]⟩
  queue := by
    intro topic subscriber hsome
    obtain ⟨added, haccepted, hqueue, hmiddle⟩ := hfirst.queue topic subscriber hsome
    obtain ⟨more, haccepted', hqueue', hlast⟩ := hsecond.queue topic subscriber hmiddle
    refine ⟨added ++ more, ?_, ?_, hlast⟩
    · rw [haccepted', haccepted, append_assoc]
    · rw [hqueue', hqueue, append_assoc]

theorem settled (honward : Delivery.Onward index first second) {topic subscriber : String}
    {position : Nat} {message : Json} (hsettled : first.Settled topic subscriber position message) :
    second.Settled topic subscriber position message := by
  obtain ⟨fates, hfates, -⟩ := honward.fates
  obtain ⟨letters, hletters⟩ := honward.letters
  obtain ⟨accepted, haccepted⟩ := honward.accepted
  rcases hsettled with hhandled | ⟨number, reason, hfate, hletter, hannounced⟩
  · left
    rw [hfates]
    exact mem_append_left _ hhandled
  · right
    refine ⟨number, reason, ?_, ?_, ?_⟩
    · rw [hfates]
      exact mem_append_left _ hfate
    · obtain ⟨hbound, -⟩ := List.getElem?_eq_some_iff.mp hletter
      rw [hletters, getElem?_append_left hbound]
      exact hletter
    · rw [haccepted]
      exact mem_append_left _ hannounced

end Delivery.Onward

def Bus.buried (bus : Bus) (letter : DeadLetter) : Bus :=
  { bus with deadLetters := bus.deadLetters ++ [letter] }

section Messages

variable {delivery : Delivery} {letter : DeadLetter} {topic subscriber : String} {handler : Handler}
  {message : Json} {rest : List Json} {index delivered dead : Nat}

def Delivery.announcedAfter (delivery : Delivery) (index : Nat) (letter : DeadLetter) :
    Delivery where
  bus := (delivery.bus.buried letter).published deliveryFailedTopic
    (announcement (delivery.bus.deadLetters.length + 1) letter)
  accepted := delivery.accepted ++
    [(deliveryFailedTopic, announcement (delivery.bus.deadLetters.length + 1) letter)]
  fates := delivery.fates ++ [(index, .announced delivery.bus.deadLetters.length)]

theorem bury_accepted (index : Nat) (haccepts : (delivery.bus.buried letter).Accepts
      deliveryFailedTopic (announcement (delivery.bus.deadLetters.length + 1) letter)) :
    (bury index letter).outcome delivery = .ok ⟨⟩ ∧
      (bury index letter).after delivery = delivery.announcedAfter index letter := by
  obtain ⟨hok, hafter⟩ := publish_accepted haccepts
  unfold bury
  rw [outcome_get_bind, after_get_bind]
  rw [outcome_bind, after_modify_bind]
  simp only [outcome_modify, after_modify]
  rw [outcome_bind, after_bind, outcome_on, after_on]
  have hread : Delivery.busPart.read
      { delivery with bus.deadLetters := delivery.bus.deadLetters ++ [letter] } =
        delivery.bus.buried letter := rfl
  rw [hread, hok, hafter]
  exact ⟨rfl, rfl⟩

/-- Assumes: the announcement is not accepted. The call raises, and the message has no fate. -/
theorem bury_refused (index : Nat) (hrefused : ¬ (delivery.bus.buried letter).Accepts
      deliveryFailedTopic (announcement (delivery.bus.deadLetters.length + 1) letter)) :
    (∃ error, (bury index letter).outcome delivery = .error error) ∧
      ∃ bus, (delivery.bus.buried letter).Same bus ∧
        (bury index letter).after delivery = { delivery with bus := bus } := by
  obtain ⟨⟨error, herror⟩, hsame⟩ := publish_refused hrefused
  have hread : Delivery.busPart.read
      { delivery with bus.deadLetters := delivery.bus.deadLetters ++ [letter] } =
        delivery.bus.buried letter := rfl
  unfold bury
  rw [outcome_get_bind, after_get_bind]
  rw [outcome_bind, after_modify_bind]
  simp only [outcome_modify, after_modify]
  rw [outcome_bind, after_bind, outcome_on, after_on, hread, herror]
  exact ⟨⟨error, rfl⟩, _, hsame, rfl⟩

theorem Delivery.Onward.handled (delivery : Delivery) (index : Nat) : Delivery.Onward index delivery
      { delivery with fates := delivery.fates ++ [(index, .handled)] } where
  fates := by
    refine ⟨[(index, .handled)], rfl, fun entry hentry ↦ ?_⟩
    obtain rfl := mem_singleton.mp hentry
    exact Nat.le_refl index
  letters := ⟨[], (append_nil _).symm⟩
  accepted := ⟨[], (append_nil _).symm⟩
  queue := fun _ _ hsome ↦ ⟨[], (append_nil _).symm, (append_nil _).symm, hsome⟩

theorem Delivery.Onward.announced (delivery : Delivery) (index : Nat) (letter : DeadLetter) :
    Delivery.Onward index delivery (delivery.announcedAfter index letter) where
  fates := by
    refine ⟨[_], rfl, fun entry hentry ↦ ?_⟩
    obtain rfl := mem_singleton.mp hentry
    exact Nat.le_refl index
  letters := ⟨[letter], rfl⟩
  accepted := ⟨[_], rfl⟩
  queue := by
    intro topic subscriber hsome
    obtain ⟨queue, hqueue⟩ := Option.isSome_iff_exists.mp hsome
    have hget : (delivery.announcedAfter index letter).bus.queues.get? (topic, subscriber) =
        if topic = deliveryFailedTopic then (delivery.bus.queues.get? (topic, subscriber)).map
          (· ++ [announcement (delivery.bus.deadLetters.length + 1) letter])
        else delivery.bus.queues.get? (topic, subscriber) :=
      (delivery.bus.buried letter).get?_enqueued _ _ _
    have haccepted : (delivery.announcedAfter index letter).acceptedOn topic =
        delivery.acceptedOn topic ++ if topic = deliveryFailedTopic then
          [announcement (delivery.bus.deadLetters.length + 1) letter] else [] := by
      unfold acceptedOn announcedAfter
      by_cases htopic : topic = deliveryFailedTopic
      · simp [htopic]
      · simp [htopic, Ne.symm htopic]
    refine ⟨_, haccepted, ?_, ?_⟩
    · unfold Bus.queue
      rw [hget, hqueue]
      split
      · rfl
      · rw [append_nil]
    · rw [hget, hqueue]
      split
      · rfl
      · rfl

theorem Delivery.Onward.refused (delivery : Delivery) (index : Nat) {letter : DeadLetter}
    {bus : Bus} (hsame : (delivery.bus.buried letter).Same bus) :
    Delivery.Onward index delivery { delivery with bus := bus } where
  fates := ⟨[], (append_nil _).symm, nofun⟩
  letters := ⟨[letter], hsame.deadLetters⟩
  accepted := ⟨[], (append_nil _).symm⟩
  queue := by
    intro topic subscriber hsome
    have hqueues : bus.queues = delivery.bus.queues := hsame.queues
    refine ⟨[], (append_nil _).symm, ?_, ?_⟩
    · rw [append_nil, Bus.queue, Bus.queue, hqueues]
    · rw [hqueues]
      exact hsome

/-! ### The loop -/

theorem deliverEach_handled (hattempt : attempt (handler index) 1 delivery.bus.maxAttempts =
      .handled) :
    (deliverEach topic subscriber handler (message :: rest) index delivered dead).after delivery =
      (deliverEach topic subscriber handler rest (index + 1) (delivered + 1) dead).after
        { delivery with fates := delivery.fates ++ [(index, .handled)] } := by
  rw [deliverEach, after_get_bind]
  simp only [hattempt]
  rfl

theorem deliverEach_untried (hattempt : attempt (handler index) 1 delivery.bus.maxAttempts =
      .untried) :
    (deliverEach topic subscriber handler (message :: rest) index delivered dead).after delivery =
      (deliverEach topic subscriber handler rest (index + 1) delivered dead).after delivery := by
  rw [deliverEach, after_get_bind]
  simp only [hattempt]

theorem deliverEach_failed {reason : String}
    (hattempt : attempt (handler index) 1 delivery.bus.maxAttempts = .failed reason) :
    (deliverEach topic subscriber handler (message :: rest) index delivered dead).after delivery =
      match (bury index ⟨topic, subscriber, message, reason⟩).outcome delivery with
      | .ok _ => (deliverEach topic subscriber handler rest (index + 1) delivered (dead + 1)).after
          ((bury index ⟨topic, subscriber, message, reason⟩).after delivery)
      | .error _ => (bury index ⟨topic, subscriber, message, reason⟩).after delivery := by
  rw [deliverEach, after_get_bind]
  simp only [hattempt]
  rw [after_bind]
  cases (bury index ⟨topic, subscriber, message, reason⟩).outcome delivery with
  | ok result | error error => rfl

end Messages

/-- The loop keeps what was recorded. -/
theorem onward_deliverEach (topic subscriber : String) (handler : Handler) (messages : List Json)
    (index delivered dead : Nat) (delivery : Delivery) : Delivery.Onward index delivery
      ((deliverEach topic subscriber handler messages index delivered dead).after delivery) := by
  induction messages generalizing index delivered dead delivery with
  | nil => exact .refl index delivery
  | cons message rest ih =>
    cases hattempt : attempt (handler index) 1 delivery.bus.maxAttempts with
    | handled =>
      rw [deliverEach_handled hattempt]
      exact (Delivery.Onward.handled delivery index).trans (ih _ _ _ _)
    | untried =>
      rw [deliverEach_untried hattempt]
      exact (Delivery.Onward.refl index delivery).trans (ih _ _ _ _)
    | failed reason =>
      rw [deliverEach_failed hattempt]
      by_cases haccepts : (delivery.bus.buried ⟨topic, subscriber, message, reason⟩).Accepts
          deliveryFailedTopic (announcement (delivery.bus.deadLetters.length + 1)
            ⟨topic, subscriber, message, reason⟩)
      · obtain ⟨hok, hafter⟩ := bury_accepted index haccepts
        rw [hok, hafter]
        exact (Delivery.Onward.announced delivery index _).trans (ih _ _ _ _)
      · obtain ⟨⟨error, herror⟩, bus, hsame, hafter⟩ := bury_refused index haccepts
        rw [herror, hafter]
        exact .refused delivery index hsame

theorem attempt_ne_untried (answers : Nat → Option String) (number : Nat) {left : Nat}
    (hleft : 1 ≤ left) : attempt answers number left ≠ .untried := by
  induction left generalizing number with
  | zero => omega
  | succ left ih =>
    unfold attempt
    cases answers number with
    | none => exact nofun
    | some reason =>
      by_cases hlast : left = 0
      · simp only [if_pos hlast]
        exact nofun
      · simp only [if_neg hlast]
        exact ih _ (by omega)

/-- Assumes: there is an attempt for each message, and the announcements are accepted. Every message
gets its fate. -/
theorem settled_deliverEach (topic subscriber : String) {handler : Handler}
    {messages : List Json} (index delivered dead : Nat) (delivery : Delivery)
    (hattempts : messages ≠ [] → 1 ≤ delivery.bus.maxAttempts) (hannounces : delivery.bus.Announces
      (failures handler delivery.bus.maxAttempts messages index)) :
    ∀ position message, messages[position]? = some message →
      ((deliverEach topic subscriber handler messages index delivered dead).after
        delivery).Settled topic subscriber (index + position) message := by
  induction messages generalizing index delivered dead delivery with
  | nil =>
    intro position message hmessage
    cases hmessage
  | cons head rest ih =>
    have hhead := hattempts (cons_ne_nil _ _)
    intro position message hmessage
    have honward := onward_deliverEach topic subscriber handler rest (index + 1)
    unfold failures at hannounces
    cases hattempt : attempt (handler index) 1 delivery.bus.maxAttempts with
    | untried => exact absurd hattempt (attempt_ne_untried _ _ hhead)
    | handled =>
      rw [hattempt] at hannounces
      rw [deliverEach_handled hattempt]
      cases position with
      | zero =>
        refine (honward _ _ _).settled (.inl ?_)
        exact mem_append_right _ mem_cons_self
      | succ position =>
        have hlater := ih (index + 1) (delivered + 1) dead
          { delivery with fates := delivery.fates ++ [(index, .handled)] }
          (fun _ ↦ hhead) hannounces position message hmessage
        rw [Nat.add_assoc, Nat.add_comm 1 position] at hlater
        exact hlater
    | failed reason =>
      rw [hattempt] at hannounces
      obtain ⟨haccepts, hrest⟩ := ((delivery.bus.buried ⟨topic, subscriber, head, reason⟩
        ).announces_succ_iff (delivery.bus.deadLetters.length + 1)
          ⟨topic, subscriber, head, reason⟩ _).mp hannounces
      obtain ⟨hok, hafter⟩ := bury_accepted index haccepts
      rw [deliverEach_failed hattempt, hok, hafter]
      cases position with
      | zero =>
        cases hmessage
        refine (honward _ _ _).settled (.inr ⟨delivery.bus.deadLetters.length, reason, ?_, ?_, ?_⟩)
        · exact mem_append_right _ mem_cons_self
        · exact getElem?_concat_length
        · exact mem_append_right _ mem_cons_self
      | succ position =>
        have hlater := ih (index + 1) delivered (dead + 1)
          (delivery.announcedAfter index ⟨topic, subscriber, head, reason⟩)
          (fun _ ↦ hhead) hrest position message hmessage
        rw [Nat.add_assoc, Nat.add_comm 1 position] at hlater
        exact hlater

/-- No fate is recorded for a position or a later one. -/
def Delivery.Before (delivery : Delivery) (index : Nat) : Prop :=
  ∀ entry ∈ delivery.fates, entry.1 < index

theorem Delivery.Before.not_settled {first second : Delivery} {index : Nat}
    (hbefore : first.Before index) (honward : Delivery.Onward (index + 1) first second)
    (topic subscriber : String) (message : Json) :
    ¬ second.Settled topic subscriber index message := by
  obtain ⟨more, hfates, hbound⟩ := honward.fates
  have hnone : ∀ fate, (index, fate) ∉ second.fates := by
    intro fate hmem
    rw [hfates] at hmem
    rcases mem_append.mp hmem with hold | hnew
    · exact absurd (hbefore _ hold) (Nat.lt_irrefl index)
    · exact absurd (hbound _ hnew) (Nat.not_succ_le_self index)
  rintro (hhandled | ⟨number, reason, hfate, -⟩)
  · exact hnone _ hhandled
  · exact hnone _ hfate

theorem Delivery.Before.succ {delivery next : Delivery} {index : Nat}
    (hbefore : delivery.Before index) {fate : Fate}
    (hnext : next.fates = delivery.fates ++ [(index, fate)]) : next.Before (index + 1) := by
  intro entry hentry
  rw [hnext] at hentry
  rcases mem_append.mp hentry with hold | hnew
  · exact Nat.lt_succ_of_lt (hbefore entry hold)
  · obtain rfl := mem_singleton.mp hnew
    exact Nat.lt_succ_self index

/-- Assumes: no attempt is made, or an announcement is not accepted. Some message gets no fate. -/
theorem unsettled_deliverEach {topic subscriber : String} {handler : Handler}
    {messages : List Json} (index delivered dead : Nat) (delivery : Delivery)
    (hbefore : delivery.Before index) (hlost : ¬ ((messages ≠ [] → 1 ≤ delivery.bus.maxAttempts) ∧
      delivery.bus.Announces (failures handler delivery.bus.maxAttempts messages index))) :
    ∃ position, ∃ message, messages[position]? = some message ∧
      ¬ ((deliverEach topic subscriber handler messages index delivered dead).after
        delivery).Settled topic subscriber (index + position) message := by
  induction messages generalizing index delivered dead delivery with
  | nil => exact absurd ⟨fun hne ↦ absurd rfl hne, fun hcount ↦ absurd rfl hcount⟩ hlost
  | cons head rest ih =>
    have honward := onward_deliverEach topic subscriber handler rest (index + 1)
    -- a message lost among the rest is lost here
    have hlater : ∀ (delivered' dead' : Nat) (next : Delivery),
        (deliverEach topic subscriber handler (head :: rest) index delivered dead).after delivery =
          (deliverEach topic subscriber handler rest (index + 1) delivered' dead').after next →
        next.Before (index + 1) →
        ¬ ((rest ≠ [] → 1 ≤ next.bus.maxAttempts) ∧
          next.bus.Announces (failures handler next.bus.maxAttempts rest (index + 1))) →
        ∃ position, ∃ message, (head :: rest)[position]? = some message ∧
          ¬ ((deliverEach topic subscriber handler (head :: rest) index delivered dead).after
            delivery).Settled topic subscriber (index + position) message := by
      intro delivered' dead' next hafter hnext hlost'
      obtain ⟨position, message, hmessage, hunsettled⟩ :=
        ih (index + 1) delivered' dead' next hnext hlost'
      refine ⟨position + 1, message, hmessage, ?_⟩
      rw [hafter, Nat.add_comm position 1, ← Nat.add_assoc]
      exact hunsettled
    cases hattempt : attempt (handler index) 1 delivery.bus.maxAttempts with
    | untried =>
      refine ⟨0, head, rfl, ?_⟩
      rw [deliverEach_untried hattempt]
      exact hbefore.not_settled (honward _ _ _) _ _ _
    | handled =>
      refine hlater _ _ _ (deliverEach_handled hattempt) (hbefore.succ rfl) fun hkept ↦ ?_
      have hattempts : 1 ≤ delivery.bus.maxAttempts := by
        by_contra hnone
        rw [Nat.eq_zero_of_not_pos hnone] at hattempt
        cases hattempt
      refine hlost ⟨fun _ ↦ hattempts, ?_⟩
      unfold failures
      rw [hattempt]
      exact hkept.2
    | failed reason =>
      by_cases haccepts : (delivery.bus.buried ⟨topic, subscriber, head, reason⟩).Accepts
          deliveryFailedTopic (announcement (delivery.bus.deadLetters.length + 1)
            ⟨topic, subscriber, head, reason⟩)
      · obtain ⟨hok, hafter⟩ := bury_accepted index haccepts
        refine hlater delivered (dead + 1)
          (delivery.announcedAfter index ⟨topic, subscriber, head, reason⟩) ?_
          (hbefore.succ rfl) fun hkept ↦ ?_
        · rw [deliverEach_failed hattempt, hok, hafter]
        · have hattempts : 1 ≤ delivery.bus.maxAttempts := by
            by_contra hnone
            rw [Nat.eq_zero_of_not_pos hnone] at hattempt
            cases hattempt
          refine hlost ⟨fun _ ↦ hattempts, ?_⟩
          unfold failures
          rw [hattempt]
          exact ((delivery.bus.buried ⟨topic, subscriber, head, reason⟩).announces_succ_iff _ _
            _).mpr ⟨haccepts, hkept.2⟩
      · obtain ⟨⟨error, herror⟩, bus, hsame, hafter⟩ := bury_refused index haccepts
        refine ⟨0, head, rfl, ?_⟩
        rw [deliverEach_failed hattempt, herror, hafter]
        exact hbefore.not_settled (.refused delivery (index + 1) hsame) _ _ _

/-- The delivery that a call on the bus leaves behind. -/
def Bus.deliver (bus : Bus) (topic subscriber : String) (handler : Handler) : Delivery :=
  (deliverWith topic subscriber handler).after ⟨bus, [], []⟩

/-- Every message that was pending is handled, or it is a dead letter that was announced, or it is
still pending, exactly when there is an attempt for each of them and the bus accepts the
announcement of each one that the handler never takes. -/
theorem Bus.deliver_keeps_iff (bus : Bus) (topic subscriber : String) (handler : Handler) :
    (∀ index message, (bus.queue topic subscriber)[index]? = some message →
        (bus.deliver topic subscriber handler).Keeps topic subscriber
          (bus.queue topic subscriber) index message) ↔
      (bus.queue topic subscriber ≠ [] → 1 ≤ bus.maxAttempts) ∧
        (bus.drained topic subscriber).Announces
          (failures handler bus.maxAttempts (bus.queue topic subscriber) 0) := by
  cases hqueue : bus.queues.get? (topic, subscriber) with
  | none =>
    have hempty : bus.queue topic subscriber = [] := by
      rw [Bus.queue, hqueue]
      rfl
    rw [hempty]
    refine iff_of_true (fun index message hmessage ↦ ?_) ⟨fun hne ↦ absurd rfl hne, fun hcount ↦
      absurd rfl hcount⟩
    cases hmessage
  | some messages =>
    have hmessages : bus.queue topic subscriber = messages := by
      rw [Bus.queue, hqueue]
      rfl
    have hdrained : bus.drained topic subscriber =
        { bus with queues := bus.queues.insert (topic, subscriber) [] } := by
      rw [drained, hqueue]
    have hdeliver : bus.deliver topic subscriber handler =
        (deliverEach topic subscriber handler messages 0 0 0).after
          ⟨bus.drained topic subscriber, [], []⟩ := by
      have hdrain : (drain topic subscriber).outcome bus = .ok messages ∧
          (drain topic subscriber).after bus = bus.drained topic subscriber := by
        unfold drain
        rw [outcome_get_bind, after_get_bind, hdrained]
        simp only [hqueue]
        exact ⟨rfl, rfl⟩
      unfold deliver deliverWith
      rw [after_bind, outcome_on, after_on]
      have hread : Delivery.busPart.read ⟨bus, [], []⟩ = bus := rfl
      rw [hread, hdrain.1, hdrain.2]
      rfl
    have hattempts : bus.maxAttempts = (bus.drained topic subscriber).maxAttempts := by
      rw [hdrained]
    rw [hmessages, hdeliver, hattempts]
    constructor
    · intro hkept
      by_contra hlost
      obtain ⟨position, message, hmessage, hunsettled⟩ :=
        unsettled_deliverEach 0 0 0 ⟨bus.drained topic subscriber, [], []⟩
          (fun _ hentry ↦ absurd hentry not_mem_nil) hlost
      rw [Nat.zero_add] at hunsettled
      rcases hkept position message hmessage with hsettled | ⟨start, hstart, hpending⟩
      · exact hunsettled hsettled
      · -- the queue holds nothing but what was accepted since it was drained
        have hempty : (bus.drained topic subscriber).queues.get? (topic, subscriber) = some [] := by
          rw [hdrained]
          exact OrderedDict.get?_insert_self _ _ _
        obtain ⟨added, haccepted, hadded, -⟩ := (onward_deliverEach topic subscriber handler
          messages 0 0 0 ⟨bus.drained topic subscriber, [], []⟩).queue topic subscriber
            (by rw [hempty]; rfl)
        have hqueue' : (bus.drained topic subscriber).queue topic subscriber = [] := by
          rw [Bus.queue, hempty]
          rfl
        rw [hpending, haccepted, hqueue', nil_append] at hadded
        have hdrop : messages.drop start = [] := append_left_eq_self.mp hadded
        obtain ⟨hbound, -⟩ := List.getElem?_eq_some_iff.mp hmessage
        have hlength := drop_eq_nil_iff.mp hdrop
        omega
    · rintro ⟨htried, hannounces⟩ index message hmessage
      have hsettled := settled_deliverEach topic subscriber 0 0 0 ⟨bus.drained topic subscriber, [],
        []⟩ htried hannounces index message hmessage
      rw [Nat.zero_add] at hsettled
      exact .inl hsettled

def envelope (topic eventId : String) : Json :=
  .obj [("event_id", .str eventId), ("event_name", .str topic), ("request_id", .null),
    ("timestamp", .int 0), ("payload", .obj [])]

/-- Two faults wait for one subscriber, and the queue of the subscriber of `delivery.failed` is
full. -/
def crowdedBus : Bus :=
  { Bus.new none 2 1 with
    queues := (OrderedDict.empty.insert ("fault.recorded", "obs")
      [envelope "fault.recorded" "e1", envelope "fault.recorded" "e2"]).insert
        ("delivery.failed", "ops")
      [envelope "delivery.failed" "d1", envelope "delivery.failed" "d2"] }

/-- The handler takes every message but the first one. The announcement of the first one is refused,
and the second one is gone: it was not handled, it is no dead letter, and nothing is pending. -/
theorem Bus.crowded_loses :
    let delivery := crowdedBus.deliver "fault.recorded" "obs" fun index _ ↦
      if index = 0 then some "ValueError('boom')" else none
    delivery.fates = [] ∧ delivery.bus.queue "fault.recorded" "obs" = [] ∧
      (crowdedBus.queue "fault.recorded" "obs")[1]? = some (envelope "fault.recorded" "e2") ∧
      ¬ delivery.Keeps "fault.recorded" "obs" (crowdedBus.queue "fault.recorded" "obs") 1
        (envelope "fault.recorded" "e2") := by
  intro delivery
  have hfates : delivery.fates = [] := by decide
  have hqueue : delivery.bus.queue "fault.recorded" "obs" = [] := by decide
  refine ⟨hfates, hqueue, rfl, ?_⟩
  rintro ((hhandled | ⟨number, reason, hannounced, -⟩) | ⟨position, hposition, hpending⟩)
  · rw [hfates] at hhandled
    exact not_mem_nil hhandled
  · rw [hfates] at hannounced
    exact not_mem_nil hannounced
  · rw [hqueue] at hpending
    have hdrop := (append_eq_nil_iff.mp hpending.symm).1
    have hlength : 2 ≤ position := drop_eq_nil_iff.mp hdrop
    omega

end AbsoluteZero.Communication

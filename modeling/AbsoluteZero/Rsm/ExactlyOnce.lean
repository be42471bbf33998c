import AbsoluteZero.Rsm.Requests

/-!
# Exactly-once application

The journal of a request never loses the id of an applied event, not even when the request is
evicted. A copy of an applied event is therefore dropped wherever it arrives, and a sequence of
calls with such copies inserted leaves the same as the one without them (`Redelivers.alike`).
-/

namespace AbsoluteZero.Rsm

open Foundations

structure World.Alike (first second : World) : Prop where
  store : first.ingest.store = second.ingest.store
  journal : first.ingest.journal = second.ingest.journal
  storage : first.storage = second.storage

namespace World.Alike

variable {first second third : World}

theorem refl (world : World) : world.Alike world := ⟨rfl, rfl, rfl⟩

theorem trans (hfirst : first.Alike second) (hsecond : second.Alike third) : first.Alike third :=
  ⟨hfirst.store.trans hsecond.store, hfirst.journal.trans hsecond.journal,
    hfirst.storage.trans hsecond.storage⟩

theorem eq_with_counters (halike : first.Alike second) :
    second = { first with ingest.counters := second.ingest.counters } := by
  obtain ⟨⟨store', journal', counters'⟩, storage'⟩ := second
  obtain ⟨rfl, rfl, rfl⟩ := halike
  rfl

theorem process_counters (floatSum : FloatSum) (ingest : Ingest) (counters : Counters)
    (event : Event) :
    let other := { ingest with counters := counters }
    ingest.outcome floatSum event = other.outcome floatSum event ∧
      (ingest.after floatSum event).store = (other.after floatSum event).store ∧
      (ingest.after floatSum event).journal = (other.after floatSum event).journal := by
  obtain ⟨store, journal, old⟩ := ingest
  unfold Ingest.outcome Ingest.after Ingest.process
  dsimp only
  split_ifs
  · exact ⟨rfl, rfl, rfl⟩
  · exact ⟨rfl, rfl, rfl⟩
  · exact ⟨rfl, rfl, rfl⟩
  · exact ⟨rfl, rfl, rfl⟩
  · cases store.perform floatSum (lookup (store.stateOf event.requestId) event.family false
      false).action event with
    | error error => cases error <;> exact ⟨rfl, rfl, rfl⟩
    | ok next => cases journal.append event.requestId event.eventId 1 <;> exact ⟨rfl, rfl, rfl⟩

theorem perform (halike : first.Alike second) (floatSum : FloatSum) (operation : Operation) :
    (first.perform floatSum operation).Alike (second.perform floatSum operation) := by
  rw [halike.eq_with_counters]
  obtain ⟨⟨store, journal, counters⟩, storage⟩ := first
  cases operation with
  | process event =>
    obtain ⟨-, hstore, hjournal⟩ :=
      process_counters floatSum ⟨store, journal, counters⟩ second.ingest.counters event
    exact ⟨hstore, hjournal, rfl⟩
  | persistTerminal requestId indexTaken snapshotTaken clock =>
    unfold World.perform persistTerminal writeJournalIndex writeTerminalSnapshot write
    dsimp only
    split_ifs
    · exact ⟨rfl, rfl, rfl⟩
    · dsimp only
      cases store.get? requestId with
      | none => exact ⟨rfl, rfl, rfl⟩
      | some record =>
        dsimp only
        cases store.markPersisted requestId clock <;> exact ⟨rfl, rfl, rfl⟩
    · dsimp only
      cases store.get? requestId <;> exact ⟨rfl, rfl, rfl⟩
    all_goals exact ⟨rfl, rfl, rfl⟩
  | evictGate requestId clock retentionWindow => exact ⟨rfl, rfl, rfl⟩
  | seed requestId record =>
    unfold World.perform
    dsimp only
    cases store.seed requestId record <;> exact ⟨rfl, rfl, rfl⟩
  | writeCheckpoint requestId taken indexTaken =>
    unfold World.perform writeCheckpoint checkpointOf write
    dsimp only
    cases store.get? requestId with
    | none => exact ⟨rfl, rfl, rfl⟩
    | some record => cases taken <;> cases indexTaken <;> exact ⟨rfl, rfl, rfl⟩
  | maybeCheckpoint requestId checkpointN taken indexTaken =>
    unfold World.perform maybeCheckpoint writeCheckpoint checkpointOf write
    dsimp only
    split_ifs
    · exact ⟨rfl, rfl, rfl⟩
    all_goals
      cases store.get? requestId with
      | none => exact ⟨rfl, rfl, rfl⟩
      | some record => cases taken <;> cases indexTaken <;> exact ⟨rfl, rfl, rfl⟩
  | reapplyJournalIndex requestId taken => cases taken <;> exact ⟨rfl, rfl, rfl⟩

end World.Alike

theorem Request.ids_subset_perform (floatSum : FloatSum) (request : Request)
    (operation : Operation) : request.ids ⊆ (request.perform floatSum operation).ids := by
  cases operation with
  | process event =>
    rcases request.process_cases floatSum event with ⟨hsame, -⟩ | ⟨standing, -, -, -, happlied⟩
    · exact fun _ hid ↦ by rwa [perform, hsame]
    · intro eventId hid
      rw [perform, happlied]
      unfold ids applied
      rw [List.map_append]
      exact List.mem_append_left _ hid
  | persistTerminal | evictGate | seed | writeCheckpoint | maybeCheckpoint
  | reapplyJournalIndex => exact fun _ hid ↦ hid

structure Remembers (world : World) (applied : List Event) : Prop where
  envelope : ∀ event ∈ applied, ¬ event.malformedEnvelope
  has : ∃ requests, world.ingest.Represents requests ∧
    ∀ event ∈ applied, event.eventId ∈ (requests event.requestId).ids

theorem Remembers.empty : Remembers .empty [] where
  envelope := nofun
  has := ⟨_, Ingest.represents_empty, nofun⟩

/-- The events applied so far, after one more call. -/
def appliedBy (floatSum : FloatSum) (world : World) (applied : List Event) : Operation → List Event
  | .process event =>
    if world.ingest.outcome floatSum event = .ok .applied then event :: applied else applied
  | _ => applied

variable {applied : List Event}

theorem Remembers.perform {world : World}
    (hworld : Remembers world applied) (floatSum : FloatSum) (operation : Operation) :
    Remembers (world.perform floatSum operation) (appliedBy floatSum world applied operation) := by
  obtain ⟨henvelope, requests, hrep, hhas⟩ := hworld
  have hnext := World.represents_perform hrep floatSum operation
  have hkept : ∀ event ∈ applied, event.eventId ∈ (Function.update requests operation.target
      ((requests operation.target).perform floatSum operation) event.requestId).ids := by
    intro event hevent
    by_cases htarget : event.requestId = operation.target
    · rw [htarget, Function.update_self]
      exact Request.ids_subset_perform floatSum _ operation (htarget ▸ hhas event hevent)
    · rw [Function.update_of_ne htarget]
      exact hhas event hevent
  cases operation with
  | process event =>
    by_cases happlied : world.ingest.outcome floatSum event = .ok .applied
    · have hlist : appliedBy floatSum world applied (.process event) = event :: applied :=
        if_pos happlied
      rw [hlist]
      rw [(hrep.process floatSum event).1] at happlied
      rcases (requests event.requestId).process_cases floatSum event with
        ⟨-, hnot⟩ | ⟨standing, hsound, -, -, hprocess⟩
      · exact absurd happlied hnot
      · constructor
        · intro other hother
          rcases List.mem_cons.mp hother with rfl | hother
          · exact hsound
          · exact henvelope other hother
        · refine ⟨_, hnext, fun other hother ↦ ?_⟩
          rcases List.mem_cons.mp hother with rfl | hother
          · change other.eventId ∈ (Function.update requests other.requestId
              ((requests other.requestId).process floatSum other).2 other.requestId).ids
            rw [Function.update_self, hprocess]
            unfold Request.ids Request.applied
            simp
          · exact hkept other hother
    · have hlist : appliedBy floatSum world applied (.process event) = applied := if_neg happlied
      rw [hlist]
      exact ⟨henvelope, _, hnext, hkept⟩
  | persistTerminal | evictGate | seed | writeCheckpoint | maybeCheckpoint
  | reapplyJournalIndex => exact ⟨henvelope, _, hnext, hkept⟩

theorem Remembers.drops {world : World} (hworld : Remembers world applied)
    (floatSum : FloatSum) {event : Event} (hevent : event ∈ applied) :
    world.ingest.outcome floatSum event = .ok .dropped ∧
      (world.perform floatSum (.process event)).Alike world := by
  obtain ⟨henvelope, requests, hrep, hhas⟩ := hworld
  have hknown : world.ingest.journal.has event.requestId event.eventId = true :=
    ((hrep.journal event.requestId).has event.eventId).mpr (hhas event hevent)
  have hprocess : world.ingest.process floatSum event = (.ok .dropped, world.ingest.countDrop) := by
    unfold Ingest.process
    rw [if_neg (henvelope event hevent), if_pos hknown]
  constructor
  · exact congrArg Prod.fst hprocess
  · have hafter : world.ingest.after floatSum event = world.ingest.countDrop :=
      congrArg Prod.snd hprocess
    change World.Alike { world with ingest := world.ingest.after floatSum event } world
    rw [hafter]
    exact ⟨rfl, rfl, rfl⟩

/-! ### Redelivery -/

/-- The second sequence of calls is the first one with copies inserted, at any places, of events
that were applied before. -/
inductive Redelivers (floatSum : FloatSum) :
    World → List Event → List Operation → List Operation → Prop
  | nil (world : World) (applied : List Event) : Redelivers floatSum world applied [] []
  | keep {world : World} {applied : List Event} (operation : Operation)
      {first second : List Operation}
      (hrest : Redelivers floatSum (world.perform floatSum operation)
        (appliedBy floatSum world applied operation) first second) :
      Redelivers floatSum world applied (operation :: first) (operation :: second)
  | again {world : World} {applied : List Event} {event : Event} {first second : List Operation}
      (hevent : event ∈ applied) (hrest : Redelivers floatSum world applied first second) :
      Redelivers floatSum world applied first (.process event :: second)

/-- Assumes: the journal of the world has the applied events, and another world is like it. The
sequence with the copies leads from there to where the one without them leads from the world. -/
theorem Redelivers.alike_of {floatSum : FloatSum} {world other : World}
    {first second : List Operation} (hredelivers : Redelivers floatSum world applied first second)
    (hworld : Remembers world applied) (halike : other.Alike world) :
    (other.run floatSum second).Alike (world.run floatSum first) := by
  induction hredelivers generalizing other with
  | nil => exact halike
  | keep operation _ ih =>
    exact ih (hworld.perform floatSum operation) (halike.perform floatSum operation)
  | @again world applied event _ _ hevent _ ih =>
    refine ih hworld ((halike.perform floatSum (.process event)).trans ?_)
    exact (hworld.drops floatSum hevent).2

/-- From the empty store and journal, a sequence of calls with copies of applied events inserted
leaves the same store, the same journals and the same documents as the sequence without them. -/
theorem Redelivers.alike {floatSum : FloatSum} {first second : List Operation}
    (hredelivers : Redelivers floatSum .empty [] first second) :
    (World.empty.run floatSum second).ingest.store = (World.empty.run floatSum first).ingest.store ∧
      (World.empty.run floatSum second).ingest.journal =
        (World.empty.run floatSum first).ingest.journal ∧
      (World.empty.run floatSum second).storage = (World.empty.run floatSum first).storage := by
  obtain ⟨hstore, hjournal, hstorage⟩ := hredelivers.alike_of .empty (.refl _)
  exact ⟨hstore, hjournal, hstorage⟩

def noFloats : FloatSum := fun _ _ ↦ .error .typeError

def sampleBirth : Event where
  eventId := "e0"
  family := "request.received"
  requestId := "r1"
  schemaVersion := .int 1
  payload := .obj [("declared_type", .str "type.alpha"), ("origin", .str "frontend")]

def sampleEnd : Event where
  eventId := "e1"
  family := "request.completed"
  requestId := "r1"
  schemaVersion := .int 1
  payload := .obj []

def sampleLife : List Operation :=
  [.process sampleBirth, .process sampleEnd, .persistTerminal "r1" true true 100,
    .evictGate "r1" 150 50]

/-- Both events arrive again, the first one after the eviction. -/
theorem Redelivers.alike_sample :
    let again : List Operation :=
      [.process sampleBirth, .process sampleEnd, .process sampleEnd,
        .persistTerminal "r1" true true 100, .evictGate "r1" 150 50, .process sampleBirth]
    (World.empty.run noFloats again).ingest.store =
        (World.empty.run noFloats sampleLife).ingest.store ∧
      (World.empty.run noFloats again).ingest.journal =
        (World.empty.run noFloats sampleLife).ingest.journal ∧
      (World.empty.run noFloats again).storage = (World.empty.run noFloats sampleLife).storage :=
  Redelivers.alike (.keep _ (.keep _ (.again (by decide +kernel) (.keep _ (.keep _
    (.again (by decide +kernel) (.nil _ _)))))))

end AbsoluteZero.Rsm

import AbsoluteZero.Rsm.Persistence

/-!
# One request at a time

What the maps of the store and of the journal encode: for each request id a standing, which carries
the record exactly when there is one, and the entries of its journal. An event changes the request
that it names and no other (`Ingest.Represents.process`, `World.Represents.perform`).
-/

namespace AbsoluteZero.Rsm

open Foundations OrderedDict List Option Function

inductive Standing
  | absent
  | active (record : RequestRecord)
  | terminal (record : RequestRecord)
  | persisted (record : RequestRecord) (since : Rat)
  | evicted

namespace Standing

def state : Standing → Materialization
  | absent => .absent
  | active _ => .active
  | terminal _ => .terminal
  | persisted _ _ => .persisted
  | evicted => .evicted

def record? : Standing → Option RequestRecord
  | absent | evicted => none
  | active record | terminal record | persisted record _ => some record

/-- When the request was marked as persisted. -/
def since? : Standing → Option Rat
  | persisted _ since => some since
  | absent | active _ | terminal _ | evicted => none

/-- The entry of the request in the state map of the store. -/
def mapped? : Standing → Option Materialization
  | absent | evicted => none
  | active _ => some .active
  | terminal _ => some .terminal
  | persisted _ _ => some .persisted

end Standing

structure Request where
  standing : Standing
  entries : List JournalEntry

namespace Request

def new : Request := ⟨.absent, []⟩

def ids (request : Request) : List String := request.entries.map JournalEntry.eventId

end Request

variable (floatSum : FloatSum)

def reduce (record : RequestRecord) (event : Event) :
    Option (Except ReducerError RequestRecord) :=
  (OrderedDict.find event.family (registry floatSum)).map fun reducer ↦ reducer record event

/-- Whether the table has the event applied to the record of a request past its end. -/
def lateTolerant (event : Event) : Bool := event.family ∈ lateTolerantFamilies

/-- What the table and the reducers make of an event: none where the table has it not applied. -/
def Standing.receive (event : Event) :
    Standing → Option (Except ReducerError Standing)
  | .absent =>
    if event.family = birthFamily then
      some ((birthReducer event).map fun fields ↦ .active (birth event.requestId fields))
    else none
  | .active record =>
    (reduce floatSum record event).map fun next ↦
      next.map fun next ↦ if event.family ∈ terminalFamilies then .terminal next else .active next
  | .terminal record =>
    if lateTolerant event then
      (reduce floatSum record event).map fun next ↦ next.map .terminal
    else none
  | .persisted record since =>
    if lateTolerant event then
      (reduce floatSum record event).map fun next ↦ next.map fun next ↦ .persisted next since
    else none
  | .evicted => none

/-- What a standing makes of an event that is applied to it: a birth, or the reduced record. -/
inductive Receives (floatSum : FloatSum) (event : Event) :
    Standing → Except ReducerError Standing → Prop
  | born (hfamily : event.family = birthFamily) : Receives floatSum event .absent
      ((birthReducer event).map fun fields ↦ .active (birth event.requestId fields))
  | goes {record : RequestRecord} {reduced : Except ReducerError RequestRecord}
      (hreduce : reduce floatSum record event = some reduced)
      (hopen : event.family ∉ terminalFamilies) :
      Receives floatSum event (.active record) (reduced.map .active)
  | ends {record : RequestRecord} {reduced : Except ReducerError RequestRecord}
      (hreduce : reduce floatSum record event = some reduced)
      (hends : event.family ∈ terminalFamilies) :
      Receives floatSum event (.active record) (reduced.map .terminal)
  | late {record : RequestRecord} {reduced : Except ReducerError RequestRecord}
      (hreduce : reduce floatSum record event = some reduced) (hlate : lateTolerant event = true) :
      Receives floatSum event (.terminal record) (reduced.map .terminal)
  | kept {record : RequestRecord} {since : Rat} {reduced : Except ReducerError RequestRecord}
      (hreduce : reduce floatSum record event = some reduced) (hlate : lateTolerant event = true) :
      Receives floatSum event (.persisted record since)
        (reduced.map fun next ↦ .persisted next since)

variable {standing : Standing} {result : Except ReducerError Standing} {event : Event}

theorem receives_of_receive {floatSum : FloatSum}
    (hreceive : standing.receive floatSum event = some result) :
    Receives floatSum event standing result := by
  cases standing with
  | absent =>
    rw [Standing.receive, ite_none_right_eq_some] at hreceive
    obtain ⟨hfamily, hborn⟩ := hreceive
    exact Option.some.inj hborn ▸ .born hfamily
  | active record =>
    obtain ⟨reduced, hreduce, rfl⟩ := map_eq_some_iff.mp hreceive
    by_cases hends : event.family ∈ terminalFamilies
    · simp only [hends, if_true]
      exact .ends hreduce hends
    · simp only [hends, if_false]
      exact .goes hreduce hends
  | terminal record =>
    rw [Standing.receive, ite_none_right_eq_some] at hreceive
    obtain ⟨reduced, hreduce, rfl⟩ := map_eq_some_iff.mp hreceive.2
    exact .late hreduce hreceive.1
  | persisted record since =>
    rw [Standing.receive, ite_none_right_eq_some] at hreceive
    obtain ⟨reduced, hreduce, rfl⟩ := map_eq_some_iff.mp hreceive.2
    exact .kept hreduce hreceive.1
  | evicted => cases hreceive

namespace Request

def applied (request : Request) (event : Event) (standing : Standing) : Request where
  standing := standing
  entries := request.entries ++ [⟨event.eventId, request.entries.length, 1⟩]

def process (request : Request) (event : Event) :
    Except ProcessError Outcome × Request :=
  if event.malformedEnvelope then (.ok .faulted, request)
  else if event.eventId ∈ request.ids then (.ok .dropped, request)
  else
    match request.standing.receive floatSum event with
    | none =>
      (.ok (if event.family ∈ registeredFamilies then .faulted else .unregistered), request)
    | some (.error (.fault _)) => (.ok .faulted, request)
    | some (.error (.raised error)) => (.error (.raised error), request)
    | some (.ok standing) => (.ok .applied, request.applied event standing)

end Request

/-- An event either leaves the request, or is applied: its envelope is sound, its id is new, and the
request receives it. -/
theorem Request.process_cases (request : Request) (event : Event) :
    ((request.process floatSum event).2 = request ∧
        (request.process floatSum event).1 ≠ .ok .applied) ∨
      ∃ standing, ¬ event.malformedEnvelope ∧ event.eventId ∉ request.ids ∧
        request.standing.receive floatSum event = some (.ok standing) ∧
        request.process floatSum event = (.ok .applied, request.applied event standing) := by
  unfold Request.process
  by_cases hmalformed : event.malformedEnvelope
  · rw [if_pos hmalformed]
    exact .inl ⟨rfl, nofun⟩
  rw [if_neg hmalformed]
  by_cases hdropped : event.eventId ∈ request.ids
  · rw [if_pos hdropped]
    exact .inl ⟨rfl, nofun⟩
  rw [if_neg hdropped]
  cases hreceive : request.standing.receive floatSum event with
  | none =>
    refine .inl ⟨rfl, fun happlied ↦ ?_⟩
    by_cases hregistered : event.family ∈ registeredFamilies
    · simp [hregistered] at happlied
    · simp [hregistered] at happlied
  | some result =>
    cases result with
    | error error => cases error <;> exact .inl ⟨rfl, nofun⟩
    | ok standing => exact .inr ⟨standing, hmalformed, hdropped, rfl, rfl⟩

theorem Request.process_of_received {floatSum : FloatSum} {request : Request}
    (henvelope : ¬ event.malformedEnvelope) (hnew : event.eventId ∉ request.ids)
    (hreceive : request.standing.receive floatSum event = some (.ok standing)) :
    request.process floatSum event = (.ok .applied, request.applied event standing) := by
  unfold Request.process
  rw [if_neg henvelope, if_neg hnew, hreceive]

/-! ### What the store says of a request -/

structure Store.Holds (store : Store) (requestId : String) (standing : Standing) : Prop where
  evicted : requestId ∈ store.evictedIds ↔ standing = .evicted
  mapped : store.state.get? requestId = standing.mapped?
  record : store.active.get? requestId = standing.record?
  retained : store.retained.get? requestId = none
  since : store.persistedAt.get? requestId = standing.since?

structure Journal.Holds (journal : Journal) (requestId : String) (entries : List JournalEntry) :
    Prop where
  listed : journal.entries requestId = entries
  has : ∀ eventId, journal.has requestId eventId = true ↔
    eventId ∈ entries.map JournalEntry.eventId

namespace Store

variable {store : Store} {requestId : String} {standing : Standing}

theorem Holds.stateOf (hstore : store.Holds requestId standing) :
    store.stateOf requestId = standing.state := by
  unfold Store.stateOf
  rw [hstore.mapped]
  by_cases hevicted : standing = .evicted
  · rw [if_pos (hstore.evicted.mpr hevicted), hevicted]
    rfl
  · rw [if_neg fun hmem ↦ hevicted (hstore.evicted.mp hmem)]
    cases standing with
    | evicted => exact absurd rfl hevicted
    | absent | active record | terminal record | persisted record since => rfl

theorem Holds.get? (hstore : store.Holds requestId standing) :
    store.get? requestId = standing.record? := by
  unfold Store.get?
  rw [hstore.record, hstore.retained, or_none]

theorem holds_empty (requestId : String) : Store.empty.Holds requestId .absent where
  evicted := by simp [Store.empty]
  mapped := rfl
  record := rfl
  retained := rfl
  since := rfl

/-- A store that says the same of a request in every map. -/
theorem Holds.congr {other : Store} (hstore : store.Holds requestId standing)
    (hevicted : requestId ∈ other.evictedIds ↔ requestId ∈ store.evictedIds)
    (hstate : other.state.get? requestId = store.state.get? requestId)
    (hactive : other.active.get? requestId = store.active.get? requestId)
    (hretained : other.retained.get? requestId = store.retained.get? requestId)
    (hsince : other.persistedAt.get? requestId = store.persistedAt.get? requestId) :
    other.Holds requestId standing where
  evicted := hevicted.trans hstore.evicted
  mapped := hstate.trans hstore.mapped
  record := hactive.trans hstore.record
  retained := hretained.trans hstore.retained
  since := hsince.trans hstore.since

def Represents (store : Store) (standings : String → Standing) : Prop :=
  ∀ requestId, store.Holds requestId (standings requestId)

namespace Represents

variable {standings : String → Standing}

theorem empty : Store.empty.Represents fun _ ↦ .absent := holds_empty

/-- Only one request changes. -/
theorem update {other : Store} (hstore : store.Represents standings)
    (hself : other.Holds requestId standing) (hother : ∀ requestId', requestId' ≠ requestId →
      (requestId' ∈ other.evictedIds ↔ requestId' ∈ store.evictedIds) ∧
      other.state.get? requestId' = store.state.get? requestId' ∧
      other.active.get? requestId' = store.active.get? requestId' ∧
      other.retained.get? requestId' = store.retained.get? requestId' ∧
      other.persistedAt.get? requestId' = store.persistedAt.get? requestId') :
    other.Represents (Function.update standings requestId standing) := by
  intro requestId'
  by_cases hid : requestId' = requestId
  · subst hid
    rwa [update_self]
  · obtain ⟨hevicted, hstate, hactive, hretained, hsince⟩ := hother requestId' hid
    rw [update_of_ne hid]
    exact (hstore requestId').congr hevicted hstate hactive hretained hsince

/-- A request with a record, written anew by one of the methods that set it. -/
theorem write {mapped : Materialization} (hstore : store.Represents standings)
    (requestId : String) (record : RequestRecord)
    (hevicted : standings requestId ≠ .evicted) (hsince : (standings requestId).since? = none)
    (hmapped : standing.mapped? = some mapped) (hrecord : standing.record? = some record)
    (hsince' : standing.since? = none) : Represents { store with
        active := store.active.insert requestId record
        state := store.state.insert requestId mapped }
      (Function.update standings requestId standing) := by
  refine hstore.update ⟨?_, ?_, ?_, (hstore requestId).retained, ?_⟩ fun other hother ↦ ?_
  · have hstanding : standing ≠ .evicted := by
      rintro rfl
      cases hrecord
    simp [(hstore requestId).evicted, hevicted, hstanding]
  · rw [get?_insert_self, hmapped]
  · rw [get?_insert_self, hrecord]
  · rw [hsince', ← hsince]
    exact (hstore requestId).since
  · rw [get?_insert, get?_insert, if_neg hother.symm, if_neg hother.symm]
    exact ⟨.rfl, rfl, rfl, rfl, rfl⟩

section

variable (hstore : store.Represents standings)

include hstore

/-- `create` at an id without a record. -/
theorem create (habsent : standings requestId = .absent)
    (fields : Block) : ∃ next, store.create requestId fields = .ok next ∧
      next.Represents (Function.update standings requestId (.active (birth requestId fields))) := by
  have hstate : store.stateOf requestId = .absent := by
    rw [(hstore requestId).stateOf, habsent]
    rfl
  refine ⟨_, if_neg (not_not.mpr hstate), ?_⟩
  exact hstore.write requestId _ (by rw [habsent]; exact nofun) (by rw [habsent]; rfl) rfl rfl rfl

/-- `seed` at an id without a record. -/
theorem seed (habsent : standings requestId = .absent)
    (record : RequestRecord) : ∃ next, store.seed requestId record = .ok next ∧
      next.Represents (Function.update standings requestId (.active record)) := by
  have hstate : store.stateOf requestId = .absent := by
    rw [(hstore requestId).stateOf, habsent]
    rfl
  refine ⟨_, if_neg (not_not.mpr hstate), ?_⟩
  exact hstore.write requestId _ (by rw [habsent]; exact nofun) (by rw [habsent]; rfl) rfl rfl rfl

/-- `seed` at an id that is taken. -/
theorem seed_refused (htaken : standings requestId ≠ .absent) (record : RequestRecord) :
    store.seed requestId record = .error ⟨"store.seed_conflict:" ++ requestId⟩ := by
  refine if_pos ?_
  rw [(hstore requestId).stateOf]
  cases hstanding : standings requestId with
  | absent => exact absurd hstanding htaken
  | active record | terminal record | persisted record since | evicted => exact nofun

end

section

variable (hstore : store.Represents standings)

include hstore

variable {record : RequestRecord}

/-- `apply_terminal` at an active request. -/
theorem applyTerminal (hactive : standings requestId = .active record) (next : RequestRecord) :
    ∃ after, store.applyTerminal requestId next = .ok after ∧
      after.Represents (Function.update standings requestId (.terminal next)) := by
  have hstate : store.stateOf requestId = .active := by
    rw [(hstore requestId).stateOf, hactive]
    rfl
  refine ⟨_, if_neg (not_not.mpr hstate), ?_⟩
  exact hstore.write requestId _ (by rw [hactive]; exact nofun) (by rw [hactive]; rfl) rfl rfl rfl

/-- `apply` at a request with a record: the record is swapped, and nothing else changes. -/
theorem apply (hrecord : (standings requestId).record? = some record) (next : RequestRecord)
    (hswapped : standing.record? = some next)
    (hmapped : standing.mapped? = (standings requestId).mapped?)
    (hsince : standing.since? = (standings requestId).since?) :
    ∃ after, store.apply requestId next = .ok after ∧
      after.Represents (Function.update standings requestId standing) := by
  have hactive : (store.active.get? requestId).isSome := by
    rw [(hstore requestId).record, hrecord]
    rfl
  refine ⟨_, if_pos hactive, hstore.update ⟨?_, ?_, ?_, (hstore requestId).retained, ?_⟩
    fun other hother ↦ ?_⟩
  · have hbefore : standings requestId ≠ .evicted := by
      intro heq
      rw [heq] at hrecord
      cases hrecord
    have hafter : standing ≠ .evicted := by
      rintro rfl
      cases hswapped
    simp [(hstore requestId).evicted, hbefore, hafter]
  · rw [hmapped]
    exact (hstore requestId).mapped
  · rw [get?_insert_self, hswapped]
  · rw [hsince]
    exact (hstore requestId).since
  · rw [get?_insert, if_neg hother.symm]
    exact ⟨.rfl, rfl, rfl, rfl, rfl⟩

/-- `mark_persisted` at a terminal request. -/
theorem markPersisted (hterminal : standings requestId = .terminal record) (clock : Rat) :
    ∃ after, store.markPersisted requestId clock = .ok after ∧
      after.Represents (Function.update standings requestId (.persisted record clock)) := by
  have hstate : store.stateOf requestId = .terminal := by
    rw [(hstore requestId).stateOf, hterminal]
    rfl
  refine ⟨_, if_neg (not_not.mpr hstate), hstore.update ⟨?_, ?_, ?_, (hstore requestId).retained,
    ?_⟩ fun other hother ↦ ?_⟩
  · simp [(hstore requestId).evicted, hterminal]
  · rw [get?_insert_self]
    rfl
  · rw [(hstore requestId).record, hterminal]
    rfl
  · rw [get?_insert_self]
    rfl
  · rw [get?_insert, get?_insert, if_neg hother.symm, if_neg hother.symm]
    exact ⟨.rfl, rfl, rfl, rfl, rfl⟩

theorem markEvicted (requestId : String) :
    (store.markEvicted requestId).Represents (Function.update standings requestId .evicted) := by
  refine hstore.update ⟨?_, ?_, ?_, ?_, ?_⟩ fun other hother ↦ ?_
  · simp [Store.markEvicted]
  · exact get?_erase_self _ _
  · exact get?_erase_self _ _
  · exact get?_erase_self _ _
  · exact get?_erase_self _ _
  · refine ⟨?_, ?_, ?_, ?_, ?_⟩
    · simp [Store.markEvicted, hother]
    all_goals exact get?_erase_of_ne _ hother.symm

end

end Represents

end Store

namespace Journal

def Represents (journal : Journal) (entriesOf : String → List JournalEntry) : Prop :=
  ∀ requestId, journal.Holds requestId (entriesOf requestId)

theorem represents_empty : Journal.empty.Represents fun _ ↦ [] :=
  fun _ ↦ ⟨rfl, fun _ ↦ by simp [has, empty]⟩

/-- `append` of an id that the request has not. -/
theorem Represents.append {journal : Journal} {entriesOf : String → List JournalEntry}
    (hjournal : journal.Represents entriesOf) {requestId eventId : String}
    (hnew : eventId ∉ (entriesOf requestId).map JournalEntry.eventId) (reducerVersion : Nat) :
    ∃ next, journal.append requestId eventId reducerVersion = .ok next ∧
      next.Represents (Function.update entriesOf requestId
        (entriesOf requestId ++ [⟨eventId, (entriesOf requestId).length, reducerVersion⟩])) := by
  have hhas : ¬ journal.has requestId eventId := fun hhas ↦
    hnew (((hjournal requestId).has eventId).mp hhas)
  refine ⟨_, if_neg hhas, fun other ↦ ?_⟩
  by_cases hother : other = requestId
  · subst hother
    rw [update_self]
    constructor
    · unfold Journal.entries appended
      rw [get?_insert_self, getD_some, (hjournal other).listed]
    · intro eventId'
      have hold := (hjournal other).has eventId'
      unfold Journal.has at hold ⊢
      unfold appended
      rw [get?_insert_self, getD_some, decide_eq_true_iff, Finset.mem_insert,
        map_append, mem_append, map_singleton, mem_singleton, or_comm]
      rw [decide_eq_true_iff] at hold
      rw [hold]
  · rw [update_of_ne hother]
    constructor
    · unfold Journal.entries appended
      rw [get?_insert, if_neg (Ne.symm hother)]
      exact (hjournal other).listed
    · intro eventId'
      unfold Journal.has appended
      rw [get?_insert, if_neg (Ne.symm hother)]
      exact (hjournal other).has eventId'

end Journal

/-! ### Families -/

theorem registeredFamilies_perm :
    registeredFamilies.Perm (birthFamily :: (registry floatSum).map Prod.fst) := by
  have hkeys : (registry floatSum).map Prod.fst =
      (registry fun _ _ ↦ .error .typeError).map Prod.fst := rfl
  rw [hkeys]
  decide +kernel

theorem birthFamily_registered : birthFamily ∈ registeredFamilies := mem_cons_self

theorem birthFamily_not_contributing :
    birthFamily ∉ (registry floatSum).map Prod.fst := by
  have hnodup : registeredFamilies.Nodup := by decide +kernel
  rw [(registeredFamilies_perm floatSum).nodup_iff] at hnodup
  exact (nodup_cons.mp hnodup).1

theorem exists_find_iff {Key Value : Type} [DecidableEq Key] {key : Key}
    {items : List (Key × Value)} :
    (∃ value, OrderedDict.find key items = some value) ↔ key ∈ items.map Prod.fst := by
  induction items with
  | nil => simp
  | cons item rest ih =>
    rw [find_cons, map_cons, mem_cons]
    by_cases hitem : item.1 = key
    · simp [hitem]
    · simp only [if_neg hitem, ih, Ne.symm hitem, false_or]

theorem exists_reducer_iff (family : String) :
    (∃ reducer, OrderedDict.find family (registry floatSum) = some reducer) ↔
      family ∈ registeredFamilies ∧ family ≠ birthFamily := by
  rw [exists_find_iff, (registeredFamilies_perm floatSum).mem_iff, mem_cons]
  constructor
  · intro hfamily
    refine ⟨.inr hfamily, ?_⟩
    rintro rfl
    exact birthFamily_not_contributing floatSum hfamily
  · rintro ⟨hbirth | hfamily, hne⟩
    · exact absurd hbirth hne
    · exact hfamily

theorem registered_of_terminal {family : String} (hfamily : family ∈ terminalFamilies) :
    family ∈ registeredFamilies := by
  unfold registeredFamilies
  simp [hfamily]

theorem lateTolerant_iff (event : Event) :
    lateTolerant event = true ↔ event.family = "cost.recorded" := by
  simp [lateTolerant, lateTolerantFamilies]

theorem ne_birth_of_lateTolerant (hlate : lateTolerant event = true) :
    event.family ≠ birthFamily := by
  rw [(lateTolerant_iff event).mp hlate]
  decide

theorem reduce_eq_none_iff (record : RequestRecord) (event : Event) :
    reduce floatSum record event = none ↔
      ¬ (event.family ∈ registeredFamilies ∧ event.family ≠ birthFamily) := by
  unfold reduce
  rw [map_eq_none_iff, ← exists_reducer_iff floatSum, eq_none_iff_forall_ne_some, not_exists]

theorem lookup_of_not_received {floatSum : FloatSum}
    (hreceive : standing.receive floatSum event = none) :
    (lookup standing.state event.family false false).action =
      if event.family ∈ registeredFamilies then .fault else .unregistered := by
  by_cases hregistered : event.family ∈ registeredFamilies
  · rw [if_pos hregistered]
    cases standing with
    | absent =>
      have hbirth : event.family ≠ birthFamily := by
        intro hbirth
        rw [Standing.receive, if_pos hbirth] at hreceive
        cases hreceive
      simp [lookup, Standing.state, hregistered, hbirth]
    | active record =>
      rw [Standing.receive, map_eq_none_iff, reduce_eq_none_iff] at hreceive
      have hbirth : event.family = birthFamily := by
        by_contra hbirth
        exact hreceive ⟨hregistered, hbirth⟩
      simp [lookup, Standing.state, hbirth, birthFamily_registered]
    | terminal record | persisted record since =>
      by_cases hlate : lateTolerant event = true
      · rw [Standing.receive, if_pos hlate, map_eq_none_iff, reduce_eq_none_iff] at hreceive
        exact absurd ⟨hregistered, ne_birth_of_lateTolerant hlate⟩ hreceive
      · have hfamily : event.family ∉ lateTolerantFamilies := by simpa [lateTolerant] using hlate
        simp [lookup, Standing.state, hregistered, hfamily]
    | evicted => simp [lookup, Standing.state, hregistered]
  · simp [lookup, hregistered]

def Standing.action (standing : Standing) (event : Event) : Action :=
  match standing with
  | .absent => .create
  | .active _ => if event.family ∈ terminalFamilies then .applyTerminal else .apply
  | .terminal _ | .persisted _ _ | .evicted => .apply

theorem lookup_of_received {floatSum : FloatSum}
    (hreceive : standing.receive floatSum event = some result) :
    (lookup standing.state event.family false false).action = standing.action event := by
  have hregistered : ∀ {record reduced}, reduce floatSum record event = some reduced →
      event.family ∈ registeredFamilies ∧ event.family ≠ birthFamily := by
    intro record reduced hreduce
    by_contra hfamily
    rw [(reduce_eq_none_iff floatSum record event).mpr hfamily] at hreduce
    cases hreduce
  cases receives_of_receive hreceive with
  | born hbirth => simp [lookup, Standing.state, Standing.action, hbirth, birthFamily_registered]
  | goes hreduce hfamily | ends hreduce hfamily =>
    simp [lookup, Standing.state, Standing.action, hregistered hreduce, hfamily]
  | late hreduce hlate | kept hreduce hlate =>
    have hfamily : event.family ∈ lateTolerantFamilies := by simpa [lateTolerant] using hlate
    simp [lookup, Standing.state, Standing.action, hregistered hreduce, hfamily]

/-! ### The pipeline, request by request -/

/-- The `try` block raises the error of the result, or leaves a store that says that the request has
the standing of the result. -/
def Follows (store : Store) (standings : String → Standing) (event : Event) :
    Except ReducerError Standing → Prop
  | .error error =>
    store.perform floatSum ((standings event.requestId).action event) event =
      .error (.ofReducer error)
  | .ok standing =>
    ∃ next, store.perform floatSum ((standings event.requestId).action event) event = .ok next ∧
      next.Represents (Function.update standings event.requestId standing)

section Perform

variable {store : Store} {standings : String → Standing} {floatSum : FloatSum} {event : Event}
variable {record : RequestRecord}

section

variable (hstore : store.Represents standings)

include hstore

theorem perform_of_raising {action : Action} {error : ReducerError} (haction : action ≠ .create)
    (hrecord : (standings event.requestId).record? = some record)
    (hreduce : reduce floatSum record event = some (.error error)) :
    store.perform floatSum action event = .error (.ofReducer error) := by
  obtain ⟨reducer, hreducer, hresult⟩ := map_eq_some_iff.mp hreduce
  unfold Store.perform
  rw [if_neg haction, hreducer, (hstore event.requestId).get?, hrecord]
  simp only [hresult]
  rfl

theorem perform_of_reducing {action : Action} {next : RequestRecord} (haction : action ≠ .create)
    (hrecord : (standings event.requestId).record? = some record)
    (hreduce : reduce floatSum record event = some (.ok next)) :
    store.perform floatSum action event = if action = .applyTerminal then
        (store.applyTerminal event.requestId next).mapError ProcessError.refused
      else (store.apply event.requestId next).mapError ProcessError.refused := by
  obtain ⟨reducer, hreducer, hresult⟩ := map_eq_some_iff.mp hreduce
  unfold Store.perform
  rw [if_neg haction, hreducer, (hstore event.requestId).get?, hrecord]
  simp only [hresult]
  rfl

theorem follows_swap {swap : RequestRecord → Standing} {reduced : Except ReducerError RequestRecord}
    (haction : (standings event.requestId).action event = .apply)
    (hrecord : (standings event.requestId).record? = some record)
    (hreduce : reduce floatSum record event = some reduced)
    (hswapped : ∀ next, (swap next).record? = some next)
    (hmapped : ∀ next, (swap next).mapped? = (standings event.requestId).mapped?)
    (hsince : ∀ next, (swap next).since? = (standings event.requestId).since?) :
    Follows floatSum store standings event (reduced.map swap) := by
  have hcreate : (standings event.requestId).action event ≠ .create := by
    rw [haction]
    exact nofun
  cases reduced with
  | error error => exact perform_of_raising hstore hcreate hrecord hreduce
  | ok next =>
    obtain ⟨after, hafter, hrep⟩ :=
      hstore.apply hrecord next (hswapped next) (hmapped next) (hsince next)
    refine ⟨after, ?_, hrep⟩
    rw [perform_of_reducing hstore hcreate hrecord hreduce, haction, if_neg
      (by exact nofun), hafter]
    rfl

/-- What happens inside the `try` block is what the request receives. -/
theorem perform_of_received
    (hreceive : (standings event.requestId).receive floatSum event = some result) :
    Follows floatSum store standings event result := by
  have hreceives := receives_of_receive hreceive
  generalize hstanding : standings event.requestId = standing at hreceives
  cases hreceives with
  | born =>
    cases hfields : birthReducer event with
    | error error =>
      unfold Follows Store.perform
      rw [hstanding, Standing.action, if_pos rfl, hfields]
      rfl
    | ok fields =>
      obtain ⟨next, hcreate, hnext⟩ := hstore.create hstanding fields
      refine ⟨next, ?_, hnext⟩
      unfold Store.perform
      rw [hstanding, Standing.action, if_pos rfl, hfields]
      change (store.create event.requestId fields).mapError ProcessError.refused = .ok next
      rw [hcreate]
      rfl
  | @ends record reduced hreduce hterminal =>
    have hrecord : (standings event.requestId).record? = some record := by rw [hstanding]; rfl
    have haction : (standings event.requestId).action event = .applyTerminal := by
      rw [hstanding]
      exact if_pos hterminal
    have hcreate : (standings event.requestId).action event ≠ .create := by
      rw [haction]
      exact nofun
    cases reduced with
    | error error => exact perform_of_raising hstore hcreate hrecord hreduce
    | ok next =>
      obtain ⟨after, hafter, hrep⟩ := hstore.applyTerminal hstanding next
      refine ⟨after, ?_, hrep⟩
      rw [perform_of_reducing hstore hcreate hrecord hreduce, if_pos haction, hafter]
      rfl
  | goes hreduce hopen =>
    refine follows_swap hstore ?_ (by rw [hstanding]; rfl) hreduce (fun _ ↦ rfl)
      (fun _ ↦ by rw [hstanding]; rfl) (fun _ ↦ by rw [hstanding]; rfl)
    rw [hstanding]
    exact if_neg hopen
  | late hreduce | kept hreduce =>
    exact follows_swap hstore (by rw [hstanding]; rfl) (by rw [hstanding]; rfl) hreduce
      (fun _ ↦ rfl) (fun _ ↦ by rw [hstanding]; rfl) (fun _ ↦ by rw [hstanding]; rfl)

end

end Perform

/-- The store and the journal of a pipeline say of every request what it is. -/
structure Ingest.Represents (ingest : Ingest) (requests : String → Request) : Prop where
  store : ingest.store.Represents fun requestId ↦ (requests requestId).standing
  journal : ingest.journal.Represents fun requestId ↦ (requests requestId).entries

namespace Ingest

variable {ingest : Ingest} {requests : String → Request}

theorem represents_empty : Ingest.empty.Represents fun _ ↦ .new where
  store := .empty
  journal := Journal.represents_empty

section

variable (hrep : ingest.Represents requests)

include hrep

theorem Represents.stateOf (requestId : String) :
    ingest.store.stateOf requestId = (requests requestId).standing.state :=
  (hrep.store requestId).stateOf

theorem Represents.get? (requestId : String) :
    ingest.store.get? requestId = (requests requestId).standing.record? :=
  (hrep.store requestId).get?

theorem Represents.entries (requestId : String) :
    ingest.journal.entries requestId = (requests requestId).entries :=
  (hrep.journal requestId).listed

theorem Represents.of_counters (counters : Counters) :
    Represents { ingest with counters := counters } requests :=
  ⟨hrep.store, hrep.journal⟩

end

theorem Represents.update {next : Ingest} {requestId : String} {request : Request}
    (hstore : next.store.Represents
      (Function.update (fun other ↦ (requests other).standing) requestId request.standing))
    (hjournal : next.journal.Represents
      (Function.update (fun other ↦ (requests other).entries) requestId request.entries)) :
    next.Represents (Function.update requests requestId request) := by
  constructor
  · convert hstore using 1
    funext other
    by_cases hother : other = requestId
    · subst hother
      simp
    · simp [update_of_ne hother]
  · convert hjournal using 1
    funext other
    by_cases hother : other = requestId
    · subst hother
      simp
    · simp [update_of_ne hother]

/-- An event takes the request that it names through a step of its own, and leaves every other. -/
theorem Represents.process (hrep : ingest.Represents requests) (floatSum : FloatSum)
    (event : Event) :
    ingest.outcome floatSum event = ((requests event.requestId).process floatSum event).1 ∧
      (ingest.after floatSum event).Represents (Function.update requests event.requestId
        ((requests event.requestId).process floatSum event).2) := by
  have hsame : Function.update requests event.requestId (requests event.requestId) = requests :=
    update_eq_self _ _
  unfold outcome after Ingest.process Request.process
  by_cases hmalformed : event.malformedEnvelope
  · rw [if_pos hmalformed, if_pos hmalformed, hsame]
    exact ⟨rfl, hrep.of_counters _⟩
  rw [if_neg hmalformed, if_neg hmalformed]
  have hhas := (hrep.journal event.requestId).has event.eventId
  by_cases hdropped : event.eventId ∈ (requests event.requestId).ids
  · rw [if_pos (hhas.mpr hdropped), if_pos hdropped, hsame]
    exact ⟨rfl, hrep.of_counters _⟩
  rw [if_neg fun hhad ↦ hdropped (hhas.mp hhad), if_neg hdropped,
    (hrep.store event.requestId).stateOf]
  cases hreceive : (requests event.requestId).standing.receive floatSum event with
  | none =>
    simp only [lookup_of_not_received hreceive]
    by_cases hregistered : event.family ∈ registeredFamilies
    · simp only [hregistered, if_true, reduceCtorEq, if_false, hsame]
      exact ⟨trivial, hrep.of_counters _⟩
    · simp only [hregistered, if_false, if_true, hsame]
      exact ⟨trivial, hrep.of_counters _⟩
  | some result =>
    have hunregistered : (requests event.requestId).standing.action event ≠ .unregistered := by
      unfold Standing.action
      split
      · exact nofun
      · split <;> exact nofun
      all_goals exact nofun
    have hfault : (requests event.requestId).standing.action event ≠ .fault := by
      unfold Standing.action
      split
      · exact nofun
      · split <;> exact nofun
      all_goals exact nofun
    have hperform := perform_of_received hrep.store hreceive
    simp only [lookup_of_received hreceive, hunregistered, hfault, if_false]
    cases result with
    | error error =>
      have hraises : ingest.store.perform floatSum
          ((requests event.requestId).standing.action event) event = .error (.ofReducer error) :=
        hperform
      rw [hraises]
      cases error with
      | fault reason =>
        simp only [ProcessError.ofReducer, hsame]
        exact ⟨trivial, hrep.of_counters _⟩
      | raised error =>
        simp only [ProcessError.ofReducer, hsame]
        exact ⟨trivial, hrep⟩
    | ok standing =>
      obtain ⟨store, hstore, hnext⟩ := hperform
      obtain ⟨journal, happend, hjournal⟩ := hrep.journal.append hdropped 1
      simp only [hstore, happend]
      exact ⟨trivial, Represents.update hnext hjournal⟩

end Ingest

/-! ### Every call, request by request -/

/-- The request that a call names. -/
def Operation.target : Operation → String
  | .process event => event.requestId
  | .persistTerminal requestId _ _ _ | .evictGate requestId _ _ | .seed requestId _
  | .writeCheckpoint requestId _ _ | .maybeCheckpoint requestId _ _ _
  | .reapplyJournalIndex requestId _ => requestId

namespace Standing

/-- A terminal request is persisted once storage has taken both writes. -/
def persist (indexTaken snapshotTaken : Bool) (clock : Rat) : Standing → Standing
  | .terminal record =>
    if indexTaken && snapshotTaken then .persisted record clock else .terminal record
  | standing => standing

/-- A persisted request is evicted once the retention window has elapsed. -/
def evict (clock retentionWindow : Rat) : Standing → Standing
  | .persisted record since =>
    if retentionWindow ≤ clock - since then .evicted else .persisted record since
  | standing => standing

def plant (record : RequestRecord) : Standing → Standing
  | .absent => .active record
  | standing => standing

end Standing

namespace Request

/-- The request after a call that names it. -/
def perform (request : Request) : Operation → Request
  | .process event => (request.process floatSum event).2
  | .persistTerminal _ indexTaken snapshotTaken clock =>
    { request with standing := request.standing.persist indexTaken snapshotTaken clock }
  | .evictGate _ clock retentionWindow =>
    { request with standing := request.standing.evict clock retentionWindow }
  | .seed _ record => { request with standing := request.standing.plant record }
  | .writeCheckpoint _ _ _ | .maybeCheckpoint _ _ _ _ | .reapplyJournalIndex _ _ => request

/-- One call after another. -/
def run (request : Request) (operations : List Operation) : Request :=
  operations.foldl (perform floatSum) request

theorem run_append (request : Request) (first second : List Operation) :
    request.run floatSum (first ++ second) = (request.run floatSum first).run floatSum second :=
  foldl_append

end Request

namespace World

variable {world : World} {requests : String → Request}

section

variable (world : World)

@[simp] theorem ingest_write (key : String) (document : Document) (taken : Bool) :
    (world.write key document taken).2.ingest = world.ingest := by
  unfold write
  split <;> rfl

@[simp] theorem ingest_writeJournalIndex (requestId : String) (taken : Bool) :
    (world.writeJournalIndex requestId taken).2.ingest = world.ingest :=
  ingest_write _ _ _ _

@[simp] theorem ingest_writeCheckpoint (requestId : String) (taken indexTaken : Bool) :
    (world.writeCheckpoint requestId taken indexTaken).2.ingest = world.ingest := by
  unfold writeCheckpoint write
  cases world.checkpointOf requestId with
  | error error => rfl
  | ok document => cases taken <;> cases indexTaken <;> rfl

/-- `maybe_checkpoint` leaves the world as it is, or writes a checkpoint. -/
theorem maybeCheckpoint_cases (requestId : String) (checkpointN : Int) (taken indexTaken : Bool) :
    world.maybeCheckpoint requestId checkpointN taken indexTaken = (.ok none, world) ∨
      world.maybeCheckpoint requestId checkpointN taken indexTaken =
        ((world.writeCheckpoint requestId taken indexTaken).1.map some,
          (world.writeCheckpoint requestId taken indexTaken).2) := by
  unfold maybeCheckpoint
  simp only
  split
  · exact .inl rfl
  · refine .inr ?_
    obtain ⟨result, after⟩ := world.writeCheckpoint requestId taken indexTaken
    cases result <;> rfl

@[simp] theorem ingest_maybeCheckpoint (requestId : String) (checkpointN : Int)
    (taken indexTaken : Bool) :
    (world.maybeCheckpoint requestId checkpointN taken indexTaken).2.ingest = world.ingest := by
  rcases maybeCheckpoint_cases world requestId checkpointN taken indexTaken with hnone | hwritten
  · rw [hnone]
  · rw [hwritten]
    exact ingest_writeCheckpoint _ _ _ _

end

section

variable (hrep : world.ingest.Represents requests)

include hrep

/-- A call that leaves the maps alone leaves every request. -/
theorem represents_same {after : World} (hsame : after.ingest = world.ingest) (requestId : String) :
    after.ingest.Represents (Function.update requests requestId (requests requestId)) := by
  rw [hsame, update_eq_self]
  exact hrep

variable {requestId : String}

/-- A call on the store changes one standing. -/
theorem represents_store {after : Ingest} (hjournal : after.journal = world.ingest.journal)
    (hstore : after.store.Represents
      (Function.update (fun other ↦ (requests other).standing) requestId standing)) :
    after.Represents (Function.update requests requestId
      { requests requestId with standing := standing }) := by
  refine Ingest.Represents.update hstore ?_
  rw [hjournal, update_eq_self]
  exact hrep.journal

/-- `persist_terminal` at a terminal request whose writes storage takes. -/
theorem persistTerminal_taken {record : RequestRecord}
    (hterminal : (requests requestId).standing = .terminal record) (clock : Rat) :
    ∃ store, world.ingest.store.markPersisted requestId clock = .ok store ∧
      world.persistTerminal requestId true true clock = (.ok ⟨⟩,
          { ingest := { world.ingest with store := store }
            storage := (world.storage.insert (journalKey requestId)
              (.journalIndex requestId (world.ingest.journal.entries requestId))).insert
              (terminalKey requestId) (.terminalSnapshot record) }) := by
  have hstate : world.ingest.store.stateOf requestId = .terminal := by
    rw [hrep.stateOf, hterminal]
    rfl
  have hrecord : world.ingest.store.get? requestId = some record := by
    rw [hrep.get?, hterminal]
    rfl
  obtain ⟨store, hmark, -⟩ := hrep.store.markPersisted hterminal clock
  refine ⟨store, hmark, ?_⟩
  unfold persistTerminal writeJournalIndex writeTerminalSnapshot write
  simp only [hstate, ne_eq, not_true_eq_false, if_false, if_true, hrecord, hmark]

/-- `persist_terminal` at another standing, or when storage refuses a write, leaves the maps. -/
theorem ingest_persistTerminal {indexTaken snapshotTaken : Bool}
    (hnot : ∀ record, (requests requestId).standing = .terminal record →
      ¬ (indexTaken = true ∧ snapshotTaken = true)) (clock : Rat) :
    (world.persistTerminal requestId indexTaken snapshotTaken clock).2.ingest = world.ingest := by
  unfold persistTerminal
  by_cases hstate : world.ingest.store.stateOf requestId = .terminal
  · have hterminal : ∃ record, (requests requestId).standing = .terminal record := by
      rw [hrep.stateOf] at hstate
      cases hstanding : (requests requestId).standing with
      | terminal record => exact ⟨record, rfl⟩
      | absent | active | persisted | evicted =>
        rw [hstanding] at hstate
        cases hstate
    obtain ⟨record, hterminal⟩ := hterminal
    have hrecord : world.ingest.store.get? requestId = some record := by
      rw [hrep.get?, hterminal]
      rfl
    simp only [hstate, ne_eq, not_true_eq_false, if_false]
    unfold writeJournalIndex writeTerminalSnapshot write
    cases indexTaken with
    | false => rfl
    | true =>
      cases snapshotTaken with
      | false => simp [hrecord]
      | true => exact absurd ⟨rfl, rfl⟩ (hnot record hterminal)
  · simp [hstate]

end

/-- `evict_gate` evicts a persisted request once its window has elapsed, and does nothing else. -/
theorem represents_evictGate {store : Store} {standings : String → Standing}
    (hstore : store.Represents standings) (requestId : String) (clock retentionWindow : Rat) :
    (store.evictGate requestId clock retentionWindow).1.Represents
      (Function.update standings requestId
        ((standings requestId).evict clock retentionWindow)) := by
  have hkeeps : ∀ standing, standings requestId = standing →
      standing.evict clock retentionWindow = standing →
      Store.evictionAllowed standing.state.terminalLike standing.since?.isSome
        (standing.since?.any fun moment ↦ decide (retentionWindow ≤ clock - moment)) = false →
      (store.evictGate requestId clock retentionWindow).1.Represents
        (Function.update standings requestId ((standings requestId).evict clock
          retentionWindow)) := by
    intro standing hstanding hevict hallowed
    unfold Store.evictGate
    simp only [(hstore requestId).stateOf, (hstore requestId).since, hstanding, hallowed,
      Bool.false_eq_true, if_false, hevict]
    rw [← hstanding, update_eq_self]
    exact hstore
  cases hstanding : standings requestId with
  | absent | active record | terminal record
  | evicted => exact hstanding ▸ hkeeps _ hstanding rfl rfl
  | persisted record since =>
    by_cases helapsed : retentionWindow ≤ clock - since
    · have hallowed : Store.evictionAllowed (standings requestId).state.terminalLike
          (standings requestId).since?.isSome ((standings requestId).since?.any
            fun moment ↦ decide (retentionWindow ≤ clock - moment)) = true := by
        rw [hstanding]
        simp [Store.evictionAllowed, Standing.state, Standing.since?, Materialization.terminalLike,
          helapsed]
      unfold Store.evictGate
      simp only [(hstore requestId).stateOf, (hstore requestId).since, hallowed, if_true,
        Standing.evict, helapsed]
      exact hstore.markEvicted requestId
    · have hevict : (Standing.persisted record since).evict clock retentionWindow =
          .persisted record since := if_neg helapsed
      refine hstanding ▸ hkeeps _ hstanding hevict ?_
      simp [Store.evictionAllowed, Standing.since?, helapsed]

/-- A call takes the request that it names through a step of its own, and leaves every other. -/
theorem represents_perform (hrep : world.ingest.Represents requests) (floatSum : FloatSum)
    (operation : Operation) :
    (world.perform floatSum operation).ingest.Represents (Function.update requests operation.target
      ((requests operation.target).perform floatSum operation)) := by
  cases operation with
  | process event => exact (hrep.process floatSum event).2
  | persistTerminal requestId indexTaken snapshotTaken clock =>
    by_cases htaken : ∃ record, (requests requestId).standing = .terminal record ∧
        indexTaken = true ∧ snapshotTaken = true
    · obtain ⟨record, hterminal, rfl, rfl⟩ := htaken
      obtain ⟨store, hmark, hpersist⟩ := persistTerminal_taken hrep hterminal clock
      obtain ⟨store', hmark', hstore⟩ := hrep.store.markPersisted hterminal clock
      obtain rfl : store = store' := Except.ok.inj (hmark.symm.trans hmark')
      refine represents_store hrep ?_ ?_
      · exact congrArg (fun result ↦ result.2.ingest.journal) hpersist
      · have hafter : (world.perform floatSum
            (.persistTerminal requestId true true clock)).ingest.store = store :=
          congrArg (fun result ↦ result.2.ingest.store) hpersist
        have hstanding : (requests requestId).standing.persist true true clock =
            .persisted record clock := by
          rw [hterminal]
          rfl
        rw [hafter]
        change store.Represents (Function.update _ requestId
          ((requests requestId).standing.persist true true clock))
        rw [hstanding]
        exact hstore
    · have hnot : ∀ record, (requests requestId).standing = .terminal record →
          ¬ (indexTaken = true ∧ snapshotTaken = true) :=
        fun record hterminal htaken' ↦ htaken ⟨record, hterminal, htaken'⟩
      have hkeeps : (requests requestId).standing.persist indexTaken snapshotTaken clock =
          (requests requestId).standing := by
        cases hstanding : (requests requestId).standing with
        | terminal record =>
          have hfalse := hnot record hstanding
          rw [← Bool.and_eq_true] at hfalse
          exact if_neg hfalse
        | absent | active | persisted | evicted => rfl
      have hsame := represents_same hrep (ingest_persistTerminal hrep hnot clock) requestId
      change World.ingest _ |>.Represents (Function.update requests requestId
        { requests requestId with
          standing := (requests requestId).standing.persist indexTaken snapshotTaken clock })
      rw [hkeeps]
      exact hsame
  | evictGate requestId clock retentionWindow =>
    exact represents_store hrep rfl (represents_evictGate hrep.store requestId clock
      retentionWindow)
  | seed requestId record =>
    by_cases habsent : (requests requestId).standing = .absent
    · obtain ⟨store, hseed, hstore⟩ := hrep.store.seed habsent record
      have hafter : (world.perform floatSum (.seed requestId record)).ingest =
          { world.ingest with store := store } := by
        unfold perform
        simp only [hseed]
      have hplant : (requests requestId).standing.plant record = .active record := by
        rw [habsent]
        rfl
      change World.ingest _ |>.Represents (Function.update requests requestId
        { requests requestId with standing := (requests requestId).standing.plant record })
      rw [hafter, hplant]
      exact represents_store hrep rfl hstore
    · have hseed := hrep.store.seed_refused habsent record
      have hafter : (world.perform floatSum (.seed requestId record)).ingest = world.ingest := by
        unfold perform
        simp only [hseed]
      have hplant : (requests requestId).standing.plant record = (requests requestId).standing := by
        cases hstanding : (requests requestId).standing with
        | absent => exact absurd hstanding habsent
        | active | terminal | persisted | evicted => rfl
      have hsame := represents_same hrep hafter requestId
      change World.ingest _ |>.Represents (Function.update requests requestId
        { requests requestId with standing := (requests requestId).standing.plant record })
      rw [hplant]
      exact hsame
  | writeCheckpoint requestId taken indexTaken =>
    exact represents_same hrep (ingest_writeCheckpoint _ _ _ _) requestId
  | maybeCheckpoint requestId checkpointN taken indexTaken =>
    exact represents_same hrep (ingest_maybeCheckpoint _ _ _ _ _) requestId
  | reapplyJournalIndex requestId taken =>
    exact represents_same hrep (ingest_writeJournalIndex _ _ _) requestId

/-- After any calls, every request is what the calls that name it make of it. -/
theorem represents_run (hrep : world.ingest.Represents requests) (floatSum : FloatSum)
    (operations : List Operation) :
    (world.run floatSum operations).ingest.Represents fun requestId ↦
      (requests requestId).run floatSum
        (operations.filter fun operation ↦ operation.target = requestId) := by
  induction operations generalizing world requests with
  | nil => exact hrep
  | cons operation rest ih =>
    rw [run_cons]
    convert ih (represents_perform hrep floatSum operation) using 1
    funext requestId
    by_cases htarget : operation.target = requestId
    · subst htarget
      rw [filter_cons_of_pos (by simp), update_self]
      rfl
    · rw [filter_cons_of_neg (by simpa using htarget), update_of_ne (Ne.symm htarget)]

end World

end AbsoluteZero.Rsm

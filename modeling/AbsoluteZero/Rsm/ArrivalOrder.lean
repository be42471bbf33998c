import AbsoluteZero.Rsm.Registers
import AbsoluteZero.Rsm.Replay

/-!
# Arrival order

The events of a request arrive on the topics of their families, each topic in order and the topics
in any order. Meters and failure entries are the same in every order; a register has the value of
the last event that wrote it. So the final state does not depend on the order exactly when any two
families that write a register write the same value last (`Life.orderFree_iff`).
-/

namespace AbsoluteZero.Rsm

open Foundations List Option Function

/-! ### Runs without faults -/

/-- Every event is answered, and none of them with a fault. -/
def Ingest.Unfaulted (floatSum : FloatSum) (ingest : Ingest) (events : List Event) : Prop :=
  ∀ outcome ∈ ingest.outcomes floatSum events,
    outcome = .ok .applied ∨ outcome = .ok .dropped ∨ outcome = .ok .unregistered

instance (floatSum : FloatSum) (ingest : Ingest) (events : List Event) :
    Decidable (ingest.Unfaulted floatSum events) :=
  inferInstanceAs (Decidable (∀ outcome ∈ ingest.outcomes floatSum events, _))

/-- The events that are no copies, of the families that are registered. -/
def newEvents (seen : List String) (events : List Event) : List Event :=
  fresh Event.eventId seen (events.filter fun event ↦ event.family ∈ registeredFamilies)

variable {event : Event}

theorem Standing.receive_of_unregistered (floatSum : FloatSum)
    (hfamily : event.family ∉ registeredFamilies) (standing : Standing) :
    standing.receive floatSum event = none := by
  have hreduce : ∀ record, reduce floatSum record event = none := fun record ↦
    (reduce_eq_none_iff floatSum record event).mpr fun hknown ↦ hfamily hknown.1
  cases standing with
  | absent =>
    refine if_neg fun hbirth ↦ hfamily ?_
    rw [hbirth]
    exact birthFamily_registered
  | active record =>
    rw [receive, hreduce]
    rfl
  | terminal record | persisted record _ =>
    rw [receive, hreduce]
    exact ite_self _
  | evicted => rfl

variable {floatSum : FloatSum}

/-- An event that is answered without a fault has a sound envelope; it is a copy or unknown, or it
is applied. -/
theorem Request.process_unfaulted {request : Request}
    (hanswer : (request.process floatSum event).1 = .ok .applied ∨
      (request.process floatSum event).1 = .ok .dropped ∨
      (request.process floatSum event).1 = .ok .unregistered) : ¬ event.malformedEnvelope ∧
      ((event.family ∈ registeredFamilies → event.eventId ∈ request.ids) ∧
          (request.process floatSum event).2 = request ∨
        ∃ next, event.eventId ∉ request.ids ∧ event.family ∈ registeredFamilies ∧
          request.Applies floatSum event next) := by
  rcases request.process_cases floatSum event with ⟨hsame, hnot⟩ | ⟨standing, henvelope, hnew,
    hreceive, happlied⟩
  · have hsound : ¬ event.malformedEnvelope := by
      intro hmalformed
      unfold process at hanswer
      rw [if_pos hmalformed] at hanswer
      simp at hanswer
    refine ⟨hsound, .inl ⟨fun hfamily ↦ ?_, hsame⟩⟩
    by_contra hnew
    unfold process at hanswer hnot
    rw [if_neg hsound, if_neg hnew] at hanswer hnot
    cases hreceive : request.standing.receive floatSum event with
    | none => simp [hreceive, hfamily] at hanswer
    | some result =>
      rw [hreceive] at hanswer hnot
      cases result with
      | error error => cases error <;> simp at hanswer
      | ok standing => exact hnot rfl
  · refine ⟨henvelope, .inr ⟨_, hnew, ?_, happlied⟩⟩
    by_contra hfamily
    rw [Standing.receive_of_unregistered floatSum hfamily] at hreceive
    cases hreceive

theorem newEvents_cons_old {seen : List String}
    (hold : event.family ∈ registeredFamilies → event.eventId ∈ seen) (rest : List Event) :
    newEvents seen (event :: rest) = newEvents seen rest := by
  unfold newEvents
  by_cases hfamily : event.family ∈ registeredFamilies
  · rw [filter_cons_of_pos (by simpa using hfamily), fresh, if_pos (hold hfamily)]
  · rw [filter_cons_of_neg (by simpa using hfamily)]

theorem newEvents_cons_new {seen : List String} (hnew : event.eventId ∉ seen)
    (hfamily : event.family ∈ registeredFamilies) (rest : List Event) :
    newEvents seen (event :: rest) = event :: newEvents (event.eventId :: seen) rest := by
  unfold newEvents
  rw [filter_cons_of_pos (by simpa using hfamily), fresh, if_neg hnew]

theorem newEvents_congr {seen seen' : List String} (hseen : ∀ id, id ∈ seen ↔ id ∈ seen')
    (events : List Event) : newEvents seen events = newEvents seen' events :=
  fresh_congr fun event _ ↦ hseen event.eventId

theorem Request.Applies.mem_ids_iff {request next : Request}
    (happlies : request.Applies floatSum event next) (id : String) :
    id ∈ next.ids ↔ id ∈ event.eventId :: request.ids := by
  rw [ids_of_reads (.single happlies), mem_append, map_singleton, mem_singleton, mem_cons, or_comm]

namespace Ingest

variable {floatSum : FloatSum} {ingest : Ingest} {requests : String → Request} {requestId : String}

/-- Assumes: the events are of one request and none of them is faulted. Their envelopes are sound,
and the new ones among them lead the request to what it is afterwards. -/
theorem Represents.reads_of_unfaulted (hrep : ingest.Represents requests) {events : List Event}
    (hevents : ∀ event ∈ events, event.requestId = requestId)
    (hunfaulted : ingest.Unfaulted floatSum events) :
    (∀ event ∈ events, ¬ event.malformedEnvelope) ∧
      ∃ final, Reads (Request.Applies floatSum) (requests requestId)
          (newEvents (requests requestId).ids events) final ∧
        (ingest.feed floatSum events).Represents (Function.update requests requestId final) := by
  induction events generalizing ingest requests with
  | nil =>
    refine ⟨nofun, requests requestId, .nil _, ?_⟩
    rw [update_eq_self]
    exact hrep
  | cons event rest ih =>
    have hid : event.requestId = requestId := hevents event mem_cons_self
    obtain ⟨houtcome, hnext⟩ := hrep.process floatSum event
    rw [hid] at houtcome hnext
    have hanswer := hunfaulted (ingest.outcome floatSum event) mem_cons_self
    rw [houtcome] at hanswer
    obtain ⟨hrest, final, hreads, hfinal⟩ := ih hnext
      (fun other hother ↦ hevents other (mem_cons_of_mem _ hother))
      fun outcome hmem ↦ hunfaulted outcome (mem_cons_of_mem _ hmem)
    rw [update_self] at hreads
    rw [update_idem] at hfinal
    obtain ⟨hsound, ⟨hold, hsame⟩ | ⟨next, hnew, hfamily, happlies⟩⟩ :=
      Request.process_unfaulted hanswer
    · rw [hsame, ← newEvents_cons_old hold] at hreads
      exact ⟨forall_mem_cons.mpr ⟨hsound, hrest⟩, final, hreads, hfinal⟩
    · have hprocess : ((requests requestId).process floatSum event).2 = next :=
        congrArg Prod.snd happlies
      rw [hprocess, newEvents_congr happlies.mem_ids_iff] at hreads
      refine ⟨forall_mem_cons.mpr ⟨hsound, hrest⟩, final, ?_, hfinal⟩
      rw [newEvents_cons_new hnew hfamily]
      exact .cons happlies hreads

/-- Assumes: the events are of one request, their envelopes are sound, and the new ones among them
can be applied one after another. None of them is faulted. -/
theorem Represents.unfaulted_of_reads (hrep : ingest.Represents requests) {events : List Event}
    (hevents : ∀ event ∈ events, event.requestId = requestId)
    (hsound : ∀ event ∈ events, ¬ event.malformedEnvelope) {final : Request}
    (hreads : Reads (Request.Applies floatSum) (requests requestId)
      (newEvents (requests requestId).ids events) final) : ingest.Unfaulted floatSum events := by
  induction events generalizing ingest requests with
  | nil => exact nofun
  | cons event rest ih =>
    have hid : event.requestId = requestId := hevents event mem_cons_self
    obtain ⟨houtcome, hnext⟩ := hrep.process floatSum event
    rw [hid] at houtcome hnext
    have hrest := @ih _ _ hnext (fun other hother ↦ hevents other (mem_cons_of_mem _ hother))
      fun other hother ↦ hsound other (mem_cons_of_mem _ hother)
    rw [update_self] at hrest
    have hhead := hsound event mem_cons_self
    refine forall_mem_cons.mpr ?_
    rw [houtcome]
    by_cases hold : event.eventId ∈ (requests requestId).ids
    · have hprocess : (requests requestId).process floatSum event =
          (.ok .dropped, requests requestId) := by
        unfold Request.process
        rw [if_neg hhead, if_pos hold]
      rw [hprocess] at hrest ⊢
      rw [newEvents_cons_old fun _ ↦ hold] at hreads
      exact ⟨.inr (.inl rfl), hrest hreads⟩
    by_cases hfamily : event.family ∈ registeredFamilies
    · rw [newEvents_cons_new hold hfamily] at hreads
      obtain ⟨next, happlies, hreads⟩ := reads_cons_iff.mp hreads
      rw [← newEvents_congr happlies.mem_ids_iff] at hreads
      rw [show (requests requestId).process floatSum event = (.ok .applied, next) from happlies]
        at hrest ⊢
      exact ⟨.inl rfl, hrest hreads⟩
    · have hprocess : (requests requestId).process floatSum event =
          (.ok .unregistered, requests requestId) := by
        unfold Request.process
        rw [if_neg hhead, if_neg hold, Standing.receive_of_unregistered floatSum hfamily]
        simp only [hfamily, if_false]
      rw [hprocess] at hrest ⊢
      rw [newEvents_cons_old fun hknown ↦ absurd hknown hfamily] at hreads
      exact ⟨.inr (.inr rfl), hrest hreads⟩

end Ingest

section Active

variable {floatSum : FloatSum} {start final : Request} {record : RequestRecord}
  {done events : List Event}

variable {event : Event}

theorem Request.Applies.reduces (happlies : start.Applies floatSum event final)
    (hstart : start.standing = .active record) :
    ∃ next, reduce floatSum record event = some (.ok next) ∧
      final.standing = if event.family ∈ terminalFamilies then .terminal next else
        .active next := by
  rcases start.process_cases floatSum event with ⟨-, hnot⟩ | ⟨standing, -, -, hreceive, happlied⟩
  · exact absurd (congrArg Prod.fst happlies) hnot
  obtain rfl : final = start.applied event standing :=
    congrArg Prod.snd (happlies.symm.trans happlied)
  rw [hstart] at hreceive
  obtain ⟨result, hreduce, hresult⟩ := map_eq_some_iff.mp hreceive
  cases result with
  | error error => cases hresult
  | ok next => exact ⟨next, hreduce, (Except.ok.inj hresult).symm⟩

theorem Request.applies_of_reduce {next : RequestRecord}
    (hstart : start.standing = .active record) (henvelope : ¬ event.malformedEnvelope)
    (hnew : event.eventId ∉ start.ids) (hreduce : reduce floatSum record event = some (.ok next)) :
    start.Applies floatSum event (start.applied event
      (if event.family ∈ terminalFamilies then .terminal next else .active next)) := by
  refine process_of_received henvelope hnew ?_
  rw [hstart, Standing.receive, hreduce]
  rfl

/-- A reading of an active request without an end adds its events to what the record is made of. -/
theorem traces_of_reads (hreads : Reads (Request.Applies floatSum) start events final)
    (hstart : start.standing = .active record) (htraces : Traces floatSum record done)
    (hmiddle : ∀ event ∈ events, event.family ∉ terminalFamilies) : (∀ event ∈ events, event.Fits) ∧
      ∃ last, final.standing = .active last ∧ Traces floatSum last (done ++ events) := by
  induction hreads generalizing record done with
  | nil => exact ⟨nofun, record, hstart, by rwa [append_nil]⟩
  | @cons request next final event rest hstep _ ih =>
    obtain ⟨reduced, hreduce, hnext⟩ := hstep.reduces hstart
    rw [if_neg (hmiddle event mem_cons_self)] at hnext
    obtain ⟨hfits, last, hlast, htraces⟩ := ih hnext (htraces.reduced hreduce)
      fun other hother ↦ hmiddle other (mem_cons_of_mem _ hother)
    refine ⟨forall_mem_cons.mpr ⟨(turns_of_reduce hreduce).1, hfits⟩, last, hlast, ?_⟩
    rwa [append_assoc] at htraces

/-- The meters can take the amounts of the events. -/
def Tallied (floatSum : FloatSum) (events : List Event) : Prop :=
  ∀ meter, ∃ total, tally floatSum none (events.flatMap (Event.amounts meter)) = .ok total

theorem Traces.tallied (htraces : Traces floatSum record events) : Tallied floatSum events :=
  fun meter ↦ ⟨_, htraces.tally meter⟩

theorem Tallied.of_append {more : List Event} (htallied : Tallied floatSum (events ++ more)) :
    Tallied floatSum events := by
  intro meter
  obtain ⟨total, htotal⟩ := htallied meter
  rw [flatMap_append, tally_append] at htotal
  obtain ⟨between, hbetween, -⟩ := Checked.bind_eq_ok_iff.mp htotal
  exact ⟨between, hbetween⟩

/-- Assumes: the record is made of the events done, and the meters can take the next one too, which
fits. Its reducer goes through. -/
theorem Traces.exists_reduce (htraces : Traces floatSum record done)
    (hevent : event.Fits) (htallied : Tallied floatSum (done ++ [event])) :
    ∃ next, reduce floatSum record event = some (.ok next) := by
  refine Rsm.exists_reduce hevent fun meter ↦ ?_
  obtain ⟨total, htotal⟩ := htallied meter
  rw [flatMap_append, tally_append, htraces.tally meter, flatMap_singleton] at htotal
  exact ⟨total, htotal⟩

/-- Assumes: the events fit and are no ends, their envelopes are sound, their ids are new and told
once, and the meters can take their amounts. They can be applied one after another. -/
theorem reads_of_fits (hstart : start.standing = .active record)
    (htraces : Traces floatSum record done)
    (hmiddle : ∀ event ∈ events, event.family ∉ terminalFamilies)
    (hfits : ∀ event ∈ events, event.Fits) (hsound : ∀ event ∈ events, ¬ event.malformedEnvelope)
    (hnew : ∀ event ∈ events, event.eventId ∉ start.ids)
    (hnodup : (events.map Event.eventId).Nodup) (htallied : Tallied floatSum (done ++ events)) :
    ∃ final, Reads (Request.Applies floatSum) start events final := by
  induction events generalizing start record done with
  | nil => exact ⟨start, .nil _⟩
  | cons event rest ih =>
    rw [append_cons] at htallied
    obtain ⟨next, hreduce⟩ := htraces.exists_reduce (hfits event mem_cons_self) htallied.of_append
    have happlies := Request.applies_of_reduce hstart (hsound event mem_cons_self)
      (hnew event mem_cons_self) hreduce
    rw [if_neg (hmiddle event mem_cons_self)] at happlies
    obtain ⟨hhead, hnodup⟩ := nodup_cons.mp hnodup
    obtain ⟨final, hreads⟩ := @ih _ next (done ++ [event]) rfl (htraces.reduced hreduce)
      (fun other hother ↦ hmiddle other (mem_cons_of_mem _ hother))
      (fun other hother ↦ hfits other (mem_cons_of_mem _ hother))
      (fun other hother ↦ hsound other (mem_cons_of_mem _ hother))
      (fun other hother hmem ↦ by
        rcases mem_cons.mp ((happlies.mem_ids_iff other.eventId).mp hmem) with heq | hmem
        · exact hhead (heq ▸ mem_map_of_mem hother)
        · exact hnew other (mem_cons_of_mem _ hother) hmem) hnodup htallied
    exact ⟨final, .cons happlies hreads⟩

end Active

theorem Request.Applies.born {next : Request} (happlies : Request.new.Applies floatSum event next) :
    ∃ fields, birthReducer event = .ok fields ∧
      next.standing = .active (birth event.requestId fields) := by
  rcases Request.new.process_cases floatSum event with ⟨-, hnot⟩ |
    ⟨standing, -, -, hreceive, happlied⟩
  · exact absurd (congrArg Prod.fst happlies) hnot
  obtain rfl : next = Request.new.applied event standing :=
    congrArg Prod.snd (happlies.symm.trans happlied)
  change (if event.family = birthFamily then _ else none) = _ at hreceive
  split at hreceive
  · cases hfields : birthReducer event with
    | error error =>
      rw [hfields] at hreceive
      cases hreceive
    | ok fields =>
      rw [hfields] at hreceive
      cases hreceive
      exact ⟨fields, rfl, rfl⟩
  · cases hreceive

theorem Request.applies_of_birth (floatSum : FloatSum) {fields : Block}
    (hfamily : event.family = birthFamily) (henvelope : ¬ event.malformedEnvelope)
    (hfields : birthReducer event = .ok fields) : Request.new.Applies floatSum event
      (Request.new.applied event (.active (birth event.requestId fields))) := by
  refine process_of_received henvelope not_mem_nil ?_
  change (if event.family = birthFamily then _ else none) = _
  rw [if_pos hfamily, hfields]
  rfl

/-! ### Lives -/

/-- The events of a request from its birth to its end, in the order of their arrival. Copies of an
event are of its family. -/
structure Life (requestId : String) where
  birth : Event
  middle : List Event
  ending : Event
  birth_family : birth.family = birthFamily
  ending_family : ending.family ∈ terminalFamilies
  middle_family : ∀ event ∈ middle, event.family ≠ birthFamily ∧ event.family ∉ terminalFamilies
  of_request : ∀ event ∈ birth :: (middle ++ [ending]), event.requestId = requestId
  ids : ∀ event ∈ birth :: (middle ++ [ending]), ∀ other ∈ birth :: (middle ++ [ending]),
    event.eventId = other.eventId → event.family = other.family

namespace Life

variable {requestId : String} (life : Life requestId)

def events : List Event := life.birth :: (life.middle ++ [life.ending])

theorem requestId_of_mem {event : Event} (hevent : event ∈ life.events) :
    event.requestId = requestId := life.of_request event hevent

/-- The events between birth and end that are no copies, of the families that are registered. -/
def contributed : List Event := newEvents [] life.middle

theorem mem_middle_of_mem_contributed {event : Event} (hevent : event ∈ life.contributed) :
    event ∈ life.middle ∧ event.family ∈ registeredFamilies := by
  have hmem := (fresh_sublist [] _).subset hevent
  simpa using hmem

theorem middle_subset : life.middle ⊆ life.events := fun _ hevent ↦
  mem_cons_of_mem _ (mem_append_left _ hevent)

theorem ending_mem : life.ending ∈ life.events :=
  mem_cons_of_mem _ (mem_append_right _ mem_cons_self)

theorem birth_not_terminal : life.birth.family ∉ terminalFamilies := by
  rw [life.birth_family]
  decide

theorem newEvents_events :
    newEvents [] life.events = life.birth :: (life.contributed ++ [life.ending]) := by
  have hbirth : life.birth.family ∈ registeredFamilies := by
    rw [life.birth_family]
    exact birthFamily_registered
  have hfamily : ∀ event ∈ life.middle ++ [life.ending], event.family ≠ birthFamily := by
    intro event hevent
    rcases mem_append.mp hevent with hmiddle | hending
    · exact (life.middle_family event hmiddle).1
    · rw [mem_singleton.mp hending]
      intro heq
      exact life.birth_not_terminal (life.birth_family ▸ heq ▸ life.ending_family)
  unfold events
  rw [newEvents_cons_new not_mem_nil hbirth]
  refine congrArg (life.birth :: ·) ?_
  unfold newEvents contributed
  have hseen : fresh Event.eventId [life.birth.eventId]
      ((life.middle ++ [life.ending]).filter fun event ↦ event.family ∈ registeredFamilies) =
      fresh Event.eventId []
        ((life.middle ++ [life.ending]).filter fun event ↦ event.family ∈ registeredFamilies) := by
    refine fresh_congr fun event hevent ↦ ?_
    have hmem := mem_of_mem_filter hevent
    rw [mem_singleton, iff_false_right not_mem_nil]
    intro heq
    exact hfamily event hmem ((life.ids event (mem_cons_of_mem _ hmem) life.birth
      mem_cons_self heq).trans life.birth_family)
  rw [hseen, filter_append, fresh_append]
  · have hending : [life.ending].filter (fun event ↦ event.family ∈ registeredFamilies) =
        [life.ending] := by
      simp [registered_of_terminal life.ending_family]
    rw [hending]
    rfl
  · intro event hevent other hother heq
    obtain rfl := mem_singleton.mp (mem_of_mem_filter hother)
    have hmiddle := mem_of_mem_filter hevent
    refine (life.middle_family event hmiddle).2 ?_
    rw [life.ids event (life.middle_subset hmiddle) _ life.ending_mem heq]
    exact life.ending_family

/-- The pipeline can take every event of the life. -/
structure Sound (floatSum : FloatSum) : Prop where
  envelopes : ∀ event ∈ life.events, ¬ event.malformedEnvelope
  born : ∃ fields, birthReducer life.birth = .ok fields
  fits : ∀ event ∈ life.contributed ++ [life.ending], event.Fits
  tallied : Tallied floatSum (life.contributed ++ [life.ending])

variable {life} {floatSum : FloatSum}

theorem sound_of_unfaulted (hunfaulted : Ingest.empty.Unfaulted floatSum life.events) :
    life.Sound floatSum ∧ ∃ record,
      (Ingest.empty.feed floatSum life.events).store.get? requestId = some record ∧
        Traces floatSum record (life.contributed ++ [life.ending]) := by
  obtain ⟨hsound, final, hreads, hfinal⟩ :=
    Ingest.represents_empty.reads_of_unfaulted (fun _ ↦ life.requestId_of_mem) hunfaulted
  change Reads _ .new (newEvents [] life.events) final at hreads
  rw [newEvents_events] at hreads
  obtain ⟨first, hbirth, hreads⟩ := reads_cons_iff.mp hreads
  obtain ⟨last, hmiddle, hending⟩ := reads_append_iff.mp hreads
  obtain ⟨fields, hfields, hfirst⟩ := hbirth.born
  obtain ⟨hfits, record, hlast, htraces⟩ := traces_of_reads hmiddle hfirst (traces_birth floatSum _
    _) fun event hevent ↦ (life.middle_family event (life.mem_middle_of_mem_contributed hevent).1).2
  cases hending with
  | cons hending hnil =>
    cases hnil
    obtain ⟨next, hreduce, hstanding⟩ := hending.reduces hlast
    rw [if_pos life.ending_family] at hstanding
    have htraces := htraces.reduced hreduce
    refine ⟨⟨hsound, ⟨fields, hfields⟩, ?_, htraces.tallied⟩, next, ?_, htraces⟩
    · intro event hevent
      rcases mem_append.mp hevent with hmiddle | hending
      · exact hfits event hmiddle
      · rw [mem_singleton.mp hending]
        exact (turns_of_reduce hreduce).1
    · rw [hfinal.get?, update_self, hstanding]
      rfl

theorem Sound.unfaulted (hsound : life.Sound floatSum) :
    Ingest.empty.Unfaulted floatSum life.events := by
  obtain ⟨fields, hfields⟩ := hsound.born
  have hbirth := Request.applies_of_birth floatSum life.birth_family
    (hsound.envelopes _ mem_cons_self) hfields
  have hmiddle : ∀ event ∈ life.contributed, event.family ∉ terminalFamilies := fun event hevent ↦
    (life.middle_family event (life.mem_middle_of_mem_contributed hevent).1).2
  have hnodup : ((life.birth :: (life.contributed ++ [life.ending])).map Event.eventId).Nodup := by
    rw [← newEvents_events]
    exact (nodup_fresh _ _).1
  rw [map_cons, map_append, nodup_cons] at hnodup
  obtain ⟨hfirst, hrest⟩ := hnodup
  obtain ⟨hcontributed, -, hlast⟩ := List.nodup_append.mp hrest
  -- birth, then the events between, then the end
  let first := Request.new.applied life.birth (.active (Rsm.birth life.birth.requestId fields))
  have hids : first.ids = [life.birth.eventId] := rfl
  obtain ⟨between, hreads⟩ := @reads_of_fits floatSum first _ [] life.contributed rfl
    (traces_birth floatSum life.birth.requestId fields) hmiddle
    (fun event hevent ↦ hsound.fits event (mem_append_left _ hevent))
    (fun event hevent ↦ hsound.envelopes event
      (life.middle_subset (life.mem_middle_of_mem_contributed hevent).1))
    (fun event hevent hmem ↦ by
      rw [hids, mem_singleton] at hmem
      exact hfirst (mem_append_left _ (hmem ▸ mem_map_of_mem hevent)))
    hcontributed hsound.tallied.of_append
  obtain ⟨-, record, hstanding, htraces⟩ := traces_of_reads hreads rfl
    (traces_birth floatSum _ _) hmiddle
  obtain ⟨next, hreduce⟩ := htraces.exists_reduce
    (hsound.fits _ (mem_append_right _ mem_cons_self)) hsound.tallied
  have hnew : life.ending.eventId ∉ between.ids := by
    rw [Request.ids_of_reads hreads, hids]
    intro hmem
    rcases mem_append.mp hmem with hmem | hmem
    · refine hfirst (mem_append_right _ ?_)
      rw [← mem_singleton.mp hmem]
      exact mem_cons_self
    · exact hlast _ hmem _ mem_cons_self rfl
  have hending := Request.applies_of_reduce hstanding
    (hsound.envelopes _ life.ending_mem) hnew hreduce
  have hall := Reads.cons hbirth (hreads.append (.single hending))
  rw [← newEvents_events] at hall
  exact Ingest.represents_empty.unfaulted_of_reads (fun _ ↦ life.requestId_of_mem)
    hsound.envelopes hall

/-- The events of the life, with those of each family in the same order, in another order of
arrival. -/
def Interleaves (life other : Life requestId) : Prop :=
  SameStreams Event.family life.events other.events

namespace Interleaves

variable {other : Life requestId}

section

variable (hsame : life.Interleaves other)

include hsame

theorem birth_eq : life.birth = other.birth := by
  rcases mem_cons.mp (hsame.mem_iff.mp mem_cons_self) with heq | hmem
  · exact heq
  rcases mem_append.mp hmem with hmiddle | hending
  · exact absurd life.birth_family (other.middle_family _ hmiddle).1
  · refine absurd other.ending_family ?_
    rw [← mem_singleton.mp hending]
    exact life.birth_not_terminal

theorem ending_eq : life.ending = other.ending := by
  rcases mem_cons.mp (hsame.mem_iff.mp life.ending_mem) with heq | hmem
  · refine absurd life.ending_family ?_
    rw [heq]
    exact other.birth_not_terminal
  rcases mem_append.mp hmem with hmiddle | hending
  · exact absurd life.ending_family (other.middle_family _ hmiddle).2
  · exact mem_singleton.mp hending

theorem middle :
    SameStreams Event.family life.middle other.middle := by
  intro name
  have hstreams : stream Event.family name ([life.birth] ++ (life.middle ++ [life.ending])) =
      stream Event.family name ([other.birth] ++ (other.middle ++ [other.ending])) := hsame name
  rw [stream_append, stream_append, stream_append, stream_append, hsame.birth_eq,
    hsame.ending_eq] at hstreams
  exact append_cancel_right (append_cancel_left hstreams)

theorem contributed :
    SameStreams Event.family life.contributed other.contributed := by
  refine (hsame.middle.filter _).fresh (fun event hevent other hother heq ↦ ?_) []
  exact life.ids event (life.middle_subset (mem_of_mem_filter hevent)) other
    (life.middle_subset (mem_of_mem_filter hother)) heq

theorem applied :
    SameStreams Event.family (life.contributed ++ [life.ending])
      (other.contributed ++ [other.ending]) := by
  rw [hsame.ending_eq]
  exact hsame.contributed.append (.refl _)

/-- What a meter is told is the same in every order of arrival. -/
theorem amounts (meter : String) :
    (life.contributed ++ [life.ending]).flatMap (Event.amounts meter) =
      (other.contributed ++ [other.ending]).flatMap (Event.amounts meter) := by
  obtain ⟨family, hfamily⟩ := exists_family_of_meter meter
  exact hsame.applied.flatMap_eq hfamily

/-- Whether a life goes without faults does not depend on the order of arrival. -/
theorem sound (hsound : life.Sound floatSum) :
    other.Sound floatSum where
  envelopes event hevent := hsound.envelopes event (hsame.mem_iff.mpr hevent)
  born := hsame.birth_eq ▸ hsound.born
  fits event hevent := hsound.fits event (hsame.applied.mem_iff.mpr hevent)
  tallied meter := hsame.amounts meter ▸ hsound.tallied meter

end

end Interleaves

end Life

def SameValue (first second : Json) : Prop := first = second ∨ first.pyEq second = true

instance (first second : Json) : Decidable (SameValue first second) :=
  inferInstanceAs (Decidable (_ ∨ _))

theorem SameValue.refl (value : Json) : SameValue value value := .inl rfl

/-- Equal dicts, whatever the order of their items. -/
def SameBlock (first second : Block) : Prop :=
  ∀ key, Option.Rel SameValue (first.get? key) (second.get? key)

def SameDict {Value : Type} (same : Value → Value → Prop) (first second : PyDict Value) : Prop :=
  ∀ key, Option.Rel same (first.value? key) (second.value? key)

/-- Two records of the same state: equal blocks, and the same failure entries apart from their
positions. -/
structure SameState (first second : RequestRecord) : Prop where
  plan : SameBlock first.plan second.plan
  tasks : SameDict SameBlock first.work.tasks second.work.tasks
  execs : SameDict SameBlock first.work.execs second.work.execs
  commitRef : Option.Rel SameValue first.work.commitRef second.work.commitRef
  context : SameDict SameValue first.context second.context
  verification : SameDict SameBlock first.verification second.verification
  budget : SameBlock first.budget second.budget
  lifecycle : SameBlock first.lifecycle second.lifecycle
  failure : (first.failure.map FailureEntry.told).Perm (second.failure.map FailureEntry.told)

theorem rel_bind {First Second Value : Type} {same : First → Second → Prop}
    {same' : Value → Value → Prop} {first : Option First} {second : Option Second}
    {read : First → Option Value} {read' : Second →
      Option Value} (hrel : Option.Rel same first second)
    (hread : ∀ a b, same a b → Option.Rel same' (read a) (read' b)) :
    Option.Rel same' (first.bind read) (second.bind read') := by
  cases hrel with
  | none => exact .none
  | some hsame => exact hread _ _ hsame

theorem SameState.read {first second : RequestRecord} (hsame : SameState first second)
    (register : Register) : Option.Rel SameValue (first.read register) (second.read register) := by
  cases register with
  | plan field => exact hsame.plan field
  | task key field => exact rel_bind (hsame.tasks key) fun _ _ hblock ↦ hblock field
  | exec key field => exact rel_bind (hsame.execs key) fun _ _ hblock ↦ hblock field
  | commitRef => exact hsame.commitRef
  | context key => exact hsame.context key
  | gate key field => exact rel_bind (hsame.verification key) fun _ _ hblock ↦ hblock field
  | lifecycle field => exact hsame.lifecycle field

/-- Assumes: every entry of the dicts has a state. Dicts whose entries have the same fields are the
same. -/
theorem sameDict_of_fields {first second : PyDict Block}
    (hfirst : ∀ key entry, first.value? key = some entry → (entry.get? "state").isSome)
    (hsecond : ∀ key entry, second.value? key = some entry → (entry.get? "state").isSome)
    (hfields : ∀ key field, Option.Rel SameValue
      ((first.value? key).bind fun entry ↦ entry.get? field)
      ((second.value? key).bind fun entry ↦ entry.get? field)) :
    SameDict SameBlock first second := by
  intro key
  have hstate := hfields key "state"
  cases hentry : first.value? key with
  | none =>
    cases hentry' : second.value? key with
    | none => exact .none
    | some entry' =>
      obtain ⟨state, hstate'⟩ := isSome_iff_exists.mp (hsecond key entry' hentry')
      rw [hentry, hentry', bind_some, hstate'] at hstate
      cases hstate
  | some entry =>
    cases hentry' : second.value? key with
    | none =>
      obtain ⟨state, hstate'⟩ := isSome_iff_exists.mp (hfirst key entry hentry)
      rw [hentry, hentry', bind_some, hstate'] at hstate
      cases hstate
    | some entry' =>
      refine .some fun field ↦ ?_
      have hfield := hfields key field
      rwa [hentry, hentry'] at hfield

theorem sameState_of_read {first second : RequestRecord} (hfirst : first.Stated)
    (hsecond : second.Stated)
    (hread : ∀ register, Option.Rel SameValue (first.read register) (second.read register))
    (hbudget : ∀ meter, first.budget.get? meter = second.budget.get? meter)
    (hfailure : (first.failure.map FailureEntry.told).Perm
      (second.failure.map FailureEntry.told)) : SameState first second where
  plan field := hread (.plan field)
  tasks := sameDict_of_fields hfirst.tasks hsecond.tasks fun key field ↦ hread (.task key field)
  execs := sameDict_of_fields hfirst.execs hsecond.execs fun key field ↦ hread (.exec key field)
  commitRef := hread .commitRef
  context key := hread (.context key)
  verification := sameDict_of_fields hfirst.gates hsecond.gates fun key field ↦
    hread (.gate key field)
  budget meter := by
    rw [hbudget meter]
    cases second.budget.get? meter with
    | none => exact .none
    | some total => exact .some (.refl total)
  lifecycle field := hread (.lifecycle field)
  failure := hfailure

/-! ### Arrival order and final state -/

namespace Life

variable {requestId : String}

/-- Every two orders of arrival without faults lead to records of the same state. -/
def OrderFree (floatSum : FloatSum) (life : Life requestId) : Prop :=
  ∀ first second : Life requestId, life.Interleaves first → life.Interleaves second →
    Ingest.empty.Unfaulted floatSum first.events → Ingest.empty.Unfaulted floatSum second.events →
    ∃ record other,
      (Ingest.empty.feed floatSum first.events).store.get? requestId = some record ∧
        (Ingest.empty.feed floatSum second.events).store.get? requestId = some other ∧
        SameState record other

/-- Whenever two families write a register, the last event of either that writes it writes the
same. -/
def Settled (life : Life requestId) : Prop :=
  ∀ register family other value value', family ≠ other →
    lastWrite (Event.write register) (stream Event.family family life.contributed) = some value →
    lastWrite (Event.write register) (stream Event.family other life.contributed) = some value' →
    Option.Rel SameValue value value'

variable {floatSum : FloatSum} {life first second : Life requestId} {record other : RequestRecord}

theorem optionRel_refl (value : Option Json) : Option.Rel SameValue value value := by
  cases value with
  | none => exact .none
  | some value => exact .some (.refl value)

/-- Assumes: the life is settled. Records made of two interleavings of it are of the same state. -/
theorem Settled.sameState (hsettled : life.Settled) (hfirst : life.Interleaves first)
    (hsecond : life.Interleaves second)
    (htraces : Traces floatSum record (first.contributed ++ [first.ending]))
    (htraces' : Traces floatSum other (second.contributed ++ [second.ending])) :
    SameState record other := by
  refine sameState_of_read htraces.stated htraces'.stated (fun register ↦ ?_) (fun meter ↦ ?_) ?_
  · rw [htraces.read, htraces'.read, lastWrite_append, lastWrite_append, lastWrite_singleton,
      lastWrite_singleton, ← hfirst.ending_eq, ← hsecond.ending_eq]
    cases life.ending.write register with
    | some value => exact optionRel_refl value
    | none =>
      have hlast := rel_lastWrite optionRel_refl (hsettled register) hfirst.contributed
        hsecond.contributed
      revert hlast
      cases lastWrite (Event.write register) first.contributed with
      | none =>
        cases lastWrite (Event.write register) second.contributed with
        | none => exact fun _ ↦ .none
        | some value => exact nofun
      | some value =>
        cases lastWrite (Event.write register) second.contributed with
        | none => exact nofun
        | some value' =>
          intro hlast
          cases hlast with
          | some hvalues => exact hvalues
  · have hmeter := htraces.tally meter
    rw [← hfirst.amounts meter, hsecond.amounts meter, htraces'.tally meter] at hmeter
    exact (Except.ok.inj hmeter).symm
  · rw [htraces.failure, htraces'.failure]
    exact (hfirst.applied.symm.trans hsecond.applied).perm.filterMap _

/-- The life with the events between birth and end in another order. -/
def reorder (life : Life requestId) (middle : List Event)
    (hmiddle : SameStreams Event.family life.middle middle) : Life requestId where
  birth := life.birth
  middle := middle
  ending := life.ending
  birth_family := life.birth_family
  ending_family := life.ending_family
  middle_family event hevent := life.middle_family event (hmiddle.mem_iff.mpr hevent)
  of_request event hevent := by
    refine life.of_request event ?_
    simpa [hmiddle.mem_iff] using hevent
  ids event hevent other hother := by
    refine life.ids event ?_ other ?_
    · simpa [hmiddle.mem_iff] using hevent
    · simpa [hmiddle.mem_iff] using hother

theorem interleaves_reorder (middle : List Event)
    (hmiddle : SameStreams Event.family life.middle middle) :
    life.Interleaves (life.reorder middle hmiddle) :=
  (SameStreams.refl [life.birth]).append (hmiddle.append (.refl [life.ending]))

/-- Assumes: the life is without faults, and a family writes the register between birth and end. In
some order of arrival its last value is the one that stays. -/
theorem exists_last (hunfaulted : Ingest.empty.Unfaulted floatSum life.events) {register : Register}
    {family : String} {value : Option Json}
    (hvalue : lastWrite (Event.write register) (stream Event.family family life.contributed) =
      some value) : ∃ other : Life requestId, life.Interleaves other ∧
      Ingest.empty.Unfaulted floatSum other.events ∧
      ∀ record, (Ingest.empty.feed floatSum other.events).store.get? requestId = some record →
        record.read register = value := by
  have hdeferred := (sameStreams_deferred Event.family family life.middle).symm
  have hinterleaves := interleaves_reorder _ hdeferred
  have hsound := hinterleaves.sound (sound_of_unfaulted hunfaulted).1
  refine ⟨_, hinterleaves, hsound.unfaulted, fun record hrecord ↦ ?_⟩
  obtain ⟨-, record', hrecord', htraces⟩ := sound_of_unfaulted hsound.unfaulted
  obtain rfl : record = record' := Option.some.inj (hrecord.symm.trans hrecord')
  have hcontributed : (life.reorder _ hdeferred).contributed =
      deferred Event.family family life.contributed := by
    change fresh _ _ ((deferred Event.family family life.middle).filter _) = _
    rw [filter_deferred, fresh_deferred]
    · rfl
    · exact fun event hevent other hother heq ↦ life.ids event
        (life.middle_subset (mem_of_mem_filter hevent)) other
        (life.middle_subset (mem_of_mem_filter hother)) heq
  have hending : life.ending.write register = none := by
    refine write_eq_none (iff_of_true life.ending_family fun field hlifecycle ↦ ?_)
    have hsilent : lastWrite (Event.write register)
        (stream Event.family family life.contributed) = none := by
      refine lastWrite_eq_none_iff.mpr fun event hevent ↦ write_eq_none ?_
      have hmem := (life.mem_middle_of_mem_contributed (mem_of_mem_filter hevent)).1
      exact iff_of_false (life.middle_family event hmem).2 fun hnot ↦ hnot field hlifecycle
    rw [hsilent] at hvalue
    cases hvalue
  rw [htraces.read, lastWrite_append, lastWrite_singleton, hcontributed, lastWrite_deferred hvalue]
  change ((life.ending.write register).or (some value)).join = value
  rw [hending]
  rfl

/-- Assumes: the life is without faults. Its final state does not depend on the order of arrival
exactly when it is settled. -/
theorem orderFree_iff (hunfaulted : Ingest.empty.Unfaulted floatSum life.events) :
    life.OrderFree floatSum ↔ life.Settled := by
  constructor
  · intro hfree register family other value value' _ hvalue hvalue'
    obtain ⟨first, hfirst, hunfaulted₁, hread⟩ := exists_last hunfaulted hvalue
    obtain ⟨second, hsecond, hunfaulted₂, hread'⟩ := exists_last hunfaulted hvalue'
    obtain ⟨record, other, hrecord, hother, hsame⟩ :=
      hfree first second hfirst hsecond hunfaulted₁ hunfaulted₂
    have hregister := hsame.read register
    rwa [hread record hrecord, hread' other hother] at hregister
  · intro hsettled first second hfirst hsecond hunfaulted₁ hunfaulted₂
    obtain ⟨-, record, hrecord, htraces⟩ := sound_of_unfaulted hunfaulted₁
    obtain ⟨-, other, hother, htraces'⟩ := sound_of_unfaulted hunfaulted₂
    exact ⟨record, other, hrecord, hother, hsettled.sameState hfirst hsecond htraces htraces'⟩

def sampleTask (eventId family taskId : String) : Event where
  eventId := eventId
  family := family
  requestId := "r1"
  schemaVersion := .int 1
  payload := .obj [("task_id", .str taskId)]

def twoTasks (taskId : String) : Life "r1" where
  birth := sampleBirth
  middle := [sampleTask "e2" "task.started" "t1", sampleTask "e3" "task.completed" taskId]
  ending := sampleEnd
  birth_family := rfl
  ending_family := by decide
  middle_family := by simp [sampleTask, birthFamily, terminalFamilies]
  of_request := by simp [sampleTask, sampleBirth, sampleEnd]
  ids := by simp [sampleTask, sampleBirth, sampleEnd]

/-- The life of two different tasks is settled if and only if its final state does not depend on the
order of arrival. -/
theorem orderFree_iff_twoTasks : (twoTasks "t2").OrderFree noFloats ↔ (twoTasks "t2").Settled :=
  orderFree_iff (by decide +kernel)

/-- A task that has completed is left as started when the news of its start arrive last. -/
theorem task_left_started : Ingest.empty.Unfaulted noFloats (twoTasks "t1").events ∧
      ¬ (twoTasks "t1").OrderFree noFloats := by
  refine ⟨by decide +kernel, fun hfree ↦ ?_⟩
  have hswap : SameStreams Event.family (twoTasks "t1").middle (twoTasks "t1").middle.reverse := by
    intro name
    by_cases hname : "task.started" = name
    · subst hname
      decide
    · simp [stream, twoTasks, sampleTask, filter_cons, hname]
  have hevents : ((twoTasks "t1").reorder _ hswap).events =
      sampleBirth :: ((twoTasks "t1").middle.reverse ++ [sampleEnd]) := rfl
  obtain ⟨record, other, hrecord, hother, hsame⟩ := hfree (twoTasks "t1") _ (.refl _)
    (interleaves_reorder _ hswap) (by decide +kernel) (by rw [hevents]; decide +kernel)
  have hread := hsame.read (.task (.text "t1") "state")
  have hvalue : ((Ingest.empty.feed noFloats (twoTasks "t1").events).store.get? "r1").bind
      (RequestRecord.read · (.task (.text "t1") "state")) = some (.str "completed") := by
    decide +kernel
  have hvalue' : ((Ingest.empty.feed noFloats
      ((twoTasks "t1").reorder _ hswap).events).store.get? "r1").bind
      (RequestRecord.read · (.task (.text "t1") "state")) = some (.str "started") := by
    rw [hevents]
    decide +kernel
  rw [hrecord, bind_some] at hvalue
  rw [hother, bind_some] at hvalue'
  rw [hvalue, hvalue'] at hread
  cases hread with
  | some hsame => exact absurd hsame (by decide +kernel)

end Life

end AbsoluteZero.Rsm

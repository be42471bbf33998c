import Mathlib.Data.List.Count
import Mathlib.Data.List.Induction
import Mathlib.Data.List.Perm.Basic
import Mathlib.Data.Option.Defs

/-!
# Interleaved streams

Two lists of events are interleavings of the same streams when every family has the same events in
the same order in both (`SameStreams`). A register takes the value of the last event that writes it;
interleavings leave the same value in it when the last values of any two families that write it are
the same (`rel_lastWrite`).
-/

namespace AbsoluteZero.Foundations

open List

variable {Event Family Id Value : Type} [DecidableEq Family]

/-! ### Streams -/

/-- The events of a family, in the order of their arrival. -/
def stream (family : Event → Family) (name : Family) (events : List Event) : List Event :=
  events.filter fun event ↦ family event = name

def SameStreams (family : Event → Family) (first second : List Event) : Prop :=
  ∀ name, stream family name first = stream family name second

theorem stream_append (family : Event → Family) (name : Family) (first second : List Event) :
    stream family name (first ++ second) = stream family name first ++ stream family name second :=
  filter_append _ _

variable {events : List Event}

theorem perm_flatMap_stream (family : Event → Family) {names : List Family} (hnames : names.Nodup)
    (hevents : ∀ event ∈ events, family event ∈ names) :
    (names.flatMap fun name ↦ stream family name events).Perm events := by
  induction names generalizing events with
  | nil =>
    cases events with
    | nil => exact .nil
    | cons event rest => cases hevents event mem_cons_self
  | cons name rest ih =>
    obtain ⟨hname, hrest⟩ := nodup_cons.mp hnames
    have hothers : rest.flatMap (fun other ↦ stream family other events) =
        rest.flatMap fun other ↦
          stream family other (events.filter fun event ↦ !decide (family event = name)) := by
      refine flatMap_congr fun other hother ↦ ?_
      unfold stream
      rw [filter_filter]
      refine filter_congr fun event _ ↦ ?_
      by_cases hfamily : family event = other
      · have hne : other ≠ name := fun heq ↦ hname (heq ▸ hother)
        simp [hfamily, hne]
      · simp [hfamily]
    rw [flatMap_cons, hothers]
    refine ((ih hrest fun event hevent ↦ ?_).append_left _).trans (filter_append_perm _ events)
    obtain ⟨hmem, hne⟩ := mem_filter.mp hevent
    rcases mem_cons.mp (hevents event hmem) with heq | hmem
    · simp [heq] at hne
    · exact hmem

namespace SameStreams

variable {family : Event → Family} {first second third : List Event}

theorem refl (events : List Event) : SameStreams family events events := fun _ ↦ rfl

theorem symm (hsame : SameStreams family first second) : SameStreams family second first :=
  fun name ↦ (hsame name).symm

theorem trans (hfirst : SameStreams family first second) (hsecond : SameStreams family second third)
    : SameStreams family first third := fun name ↦ (hfirst name).trans (hsecond name)

theorem append {first' second' : List Event} (hfirst : SameStreams family first second)
    (hsecond : SameStreams family first' second') :
    SameStreams family (first ++ first') (second ++ second') := by
  intro name
  rw [stream_append, stream_append, hfirst name, hsecond name]

section

variable (hsame : SameStreams family first second)

include hsame

theorem filter (keep : Event → Bool) :
    SameStreams family (first.filter keep) (second.filter keep) := by
  intro name
  have hstream : ∀ events : List Event,
      stream family name (events.filter keep) = (stream family name events).filter keep :=
    fun events ↦ filter_comm _ _ events
  rw [hstream first, hstream second, hsame name]

theorem mem_iff {event : Event} :
    event ∈ first ↔ event ∈ second := by
  have hmem : ∀ events : List Event,
      event ∈ events ↔ event ∈ stream family (family event) events := by
    intro events
    simp [stream]
  rw [hmem first, hmem second, hsame (family event)]

theorem perm [DecidableEq Event] : first.Perm second := by
  refine perm_iff_count.mpr fun event ↦ ?_
  have hcount : ∀ events : List Event,
      (stream family (family event) events).count event = events.count event :=
    fun events ↦ count_filter (by simp)
  rw [← hcount first, ← hcount second, hsame (family event)]

theorem flatMap_eq {read : Event → List Value}
    {name : Family} (hread : ∀ event, family event ≠ name → read event = []) :
    first.flatMap read = second.flatMap read := by
  have hstream : ∀ events : List Event,
      events.flatMap read = (stream family name events).flatMap read := by
    intro events
    induction events with
    | nil => rfl
    | cons event rest ih =>
      unfold stream at ih ⊢
      by_cases hfamily : family event = name
      · rw [filter_cons_of_pos (by simpa using hfamily), flatMap_cons, flatMap_cons, ih]
      · rw [filter_cons_of_neg (by simpa using hfamily), flatMap_cons,
          hread event hfamily, ih, nil_append]
  rw [hstream first, hstream second, hsame name]

end

end SameStreams

section Fresh

variable [DecidableEq Id] (id : Event → Id)

def fresh : List Id → List Event → List Event
  | _, [] => []
  | seen, event :: rest =>
    if id event ∈ seen then fresh seen rest else event :: fresh (id event :: seen) rest

variable {id}

theorem fresh_sublist (seen : List Id) (events : List Event) :
    (fresh id seen events).Sublist events := by
  induction events generalizing seen with
  | nil => exact .slnil
  | cons event rest ih =>
    rw [fresh]
    split
    · exact (ih seen).cons event
    · exact (ih _).cons_cons event

variable {events : List Event}

theorem exists_mem_fresh {seen : List Id} {event : Event} (hevent : event ∈ events)
    (hnew : id event ∉ seen) : ∃ kept ∈ fresh id seen events, id kept = id event := by
  induction events generalizing seen with
  | nil => cases hevent
  | cons head rest ih =>
    rw [fresh]
    rcases mem_cons.mp hevent with rfl | hrest
    · rw [if_neg hnew]
      exact ⟨event, mem_cons_self, rfl⟩
    · split
      · exact ih hrest hnew
      · by_cases hhead : id head = id event
        · exact ⟨head, mem_cons_self, hhead⟩
        · have hnot : id event ∉ id head :: seen := by
            rw [mem_cons, not_or]
            exact ⟨fun heq ↦ hhead heq.symm, hnew⟩
          obtain ⟨kept, hkept, heq⟩ := ih hrest hnot
          exact ⟨kept, mem_cons_of_mem _ hkept, heq⟩

theorem nodup_fresh (seen : List Id) (events : List Event) :
    ((fresh id seen events).map id).Nodup ∧ ∀ event ∈ fresh id seen events, id event ∉ seen := by
  induction events generalizing seen with
  | nil => exact ⟨nodup_nil, nofun⟩
  | cons event rest ih =>
    rw [fresh]
    split
    · exact ih seen
    · next hnew =>
      obtain ⟨hnodup, hseen⟩ := ih (id event :: seen)
      refine ⟨nodup_cons.mpr ⟨fun hmem ↦ ?_, hnodup⟩, forall_mem_cons.mpr ⟨hnew, ?_⟩⟩
      · obtain ⟨other, hother, heq⟩ := mem_map.mp hmem
        exact hseen other hother (heq ▸ mem_cons_self)
      · exact fun other hother hmem ↦ hseen other hother (mem_cons_of_mem _ hmem)

/-- Only the ids that are asked for matter. -/
theorem fresh_congr {seen seen' : List Id}
    (hseen : ∀ event ∈ events, id event ∈ seen ↔ id event ∈ seen') :
    fresh id seen events = fresh id seen' events := by
  induction events generalizing seen seen' with
  | nil => rfl
  | cons event rest ih =>
    have hrest : ∀ other ∈ rest, id other ∈ seen ↔ id other ∈ seen' := fun other hother ↦
      hseen other (mem_cons_of_mem _ hother)
    rw [fresh, fresh, if_congr (hseen event mem_cons_self) (ih hrest) rfl]
    split
    · rfl
    · refine congrArg _ (ih fun other hother ↦ ?_)
      rw [mem_cons, mem_cons, hrest other hother]

theorem fresh_append {seen : List Id} {first second : List Event}
    (hdisjoint : ∀ event ∈ first, ∀ other ∈ second, id event ≠ id other) :
    fresh id seen (first ++ second) = fresh id seen first ++ fresh id seen second := by
  induction first generalizing seen with
  | nil => rfl
  | cons event rest ih =>
    have hrest : ∀ seen, fresh id seen (rest ++ second) =
        fresh id seen rest ++ fresh id seen second :=
      fun seen ↦ ih fun other hother ↦ hdisjoint other (mem_cons_of_mem _ hother)
    rw [cons_append, fresh, fresh]
    split
    · exact hrest seen
    · rw [hrest, cons_append]
      refine congrArg (event :: _ ++ ·) (fresh_congr fun other hother ↦ ?_)
      rw [mem_cons, or_iff_right (hdisjoint event mem_cons_self other hother).symm]

/-- Assumes: events with one id are kept or left out together, and the ids seen before are the same
as far as kept events go. Dropping copies and filtering can be exchanged. -/
theorem filter_fresh {keep : Event → Bool} {seen seen' : List Id}
    (hkeep : ∀ event ∈ events, ∀ other ∈ events, id event = id other → keep event = keep other)
    (hseen : ∀ event ∈ events, keep event = true → (id event ∈ seen ↔ id event ∈ seen')) :
    (fresh id seen events).filter keep = fresh id seen' (events.filter keep) := by
  induction events generalizing seen seen' with
  | nil => rfl
  | cons event rest ih =>
    have hrest := @ih seen seen'
      (fun first hfirst second hsecond ↦
        hkeep first (mem_cons_of_mem _ hfirst) second (mem_cons_of_mem _ hsecond))
      fun other hother ↦ hseen other (mem_cons_of_mem _ hother)
    by_cases hevent : keep event = true
    · rw [filter_cons_of_pos hevent, fresh, fresh,
        if_congr (hseen event mem_cons_self hevent) rfl rfl]
      split
      · exact hrest
      · rw [filter_cons_of_pos hevent]
        refine congrArg _ (ih (fun first hfirst second hsecond ↦
          hkeep first (mem_cons_of_mem _ hfirst) second (mem_cons_of_mem _ hsecond)) ?_)
        intro other hother hkept
        rw [mem_cons, mem_cons, hseen other (mem_cons_of_mem _ hother) hkept]
    · rw [filter_cons_of_neg hevent, fresh]
      split
      · exact hrest
      · rw [filter_cons_of_neg hevent]
        refine ih (fun first hfirst second hsecond ↦
          hkeep first (mem_cons_of_mem _ hfirst) second (mem_cons_of_mem _ hsecond)) ?_
        intro other hother hkept
        have hne : id other ≠ id event := by
          intro heq
          exact hevent ((hkeep event mem_cons_self other (mem_cons_of_mem _ hother)
            heq.symm).trans hkept)
        rw [mem_cons, or_iff_right hne, hseen other (mem_cons_of_mem _ hother) hkept]

theorem SameStreams.fresh {family : Event → Family} {first second : List Event}
    (hsame : SameStreams family first second)
    (hids : ∀ event ∈ first, ∀ other ∈ first, id event = id other → family event = family other)
    (seen : List Id) : SameStreams family (fresh id seen first) (fresh id seen second) := by
  intro name
  unfold stream
  have hkeep : ∀ event ∈ first, ∀ other ∈ first, id event = id other →
      decide (family event = name) = decide (family other = name) :=
    fun event hevent other hother heq ↦ by rw [hids event hevent other hother heq]
  rw [filter_fresh hkeep fun _ _ _ ↦ Iff.rfl, filter_fresh
    (fun event hevent other hother ↦ hkeep event (hsame.mem_iff.mpr hevent) other
      (hsame.mem_iff.mpr hother)) fun _ _ _ ↦ Iff.rfl]
  exact congrArg _ (hsame name)

end Fresh

/-! ### Last writes -/

variable (write : Event → Option Value)

def lastWrite (events : List Event) : Option Value := (events.filterMap write).getLast?

theorem lastWrite_append (first second : List Event) :
    lastWrite write (first ++ second) = (lastWrite write second).or (lastWrite write first) := by
  unfold lastWrite
  rw [filterMap_append, getLast?_append]

theorem lastWrite_singleton (event : Event) : lastWrite write [event] = write event := by
  unfold lastWrite
  cases hwrite : write event <;> simp [hwrite]

variable {write}

theorem exists_lastWrite_stream (family : Event → Family) {value : Value}
    (hlast : lastWrite write events = some value) :
    ∃ name, lastWrite write (stream family name events) = some value := by
  induction events using List.reverseRecOn with
  | nil => cases hlast
  | append_singleton events event ih =>
    rw [lastWrite_append, lastWrite_singleton] at hlast
    cases hwrite : write event with
    | some written =>
      rw [hwrite] at hlast
      refine ⟨family event, ?_⟩
      have hown : stream family (family event) [event] = [event] := by simp [stream]
      rw [stream_append, hown, lastWrite_append, lastWrite_singleton, hwrite]
      exact hlast
    | none =>
      rw [hwrite, Option.none_or] at hlast
      obtain ⟨name, hname⟩ := ih hlast
      refine ⟨name, ?_⟩
      have hsilent : lastWrite write (stream family name [event]) = none := by
        unfold stream
        by_cases hfamily : family event = name
        · rw [filter_cons_of_pos (by simpa using hfamily), filter_nil, lastWrite_singleton, hwrite]
        · rw [filter_cons_of_neg (by simpa using hfamily)]
          rfl
      rw [stream_append, lastWrite_append, hsilent, Option.none_or, hname]

def deferred (family : Event → Family) (name : Family) (events : List Event) : List Event :=
  (events.filter fun event ↦ family event ≠ name) ++ stream family name events

theorem sameStreams_deferred (family : Event → Family) (name : Family) (events : List Event) :
    SameStreams family (deferred family name events) events := by
  intro other
  unfold deferred
  rw [stream_append]
  unfold stream
  rw [filter_filter, filter_filter]
  by_cases hname : other = name
  · subst hname
    simp
  · have hnone : events.filter (fun event ↦
        decide (family event = other) && decide (family event = name)) = [] := by
      refine filter_eq_nil_iff.mpr fun event _ hboth ↦ ?_
      rw [Bool.and_eq_true, decide_eq_true_iff, decide_eq_true_iff] at hboth
      exact hname (hboth.1.symm.trans hboth.2)
    rw [hnone, append_nil]
    refine filter_congr fun event _ ↦ ?_
    by_cases hfamily : family event = other
    · simp [hfamily, hname]
    · simp [hfamily]

variable {family : Event → Family}

theorem lastWrite_deferred {name : Family}
    {value : Value} (hlast : lastWrite write (stream family name events) = some value) :
    lastWrite write (deferred family name events) = some value := by
  unfold deferred
  rw [lastWrite_append, hlast]
  rfl

theorem filter_deferred (family : Event → Family) (name : Family) (keep : Event → Bool)
    (events : List Event) :
    (deferred family name events).filter keep = deferred family name (events.filter keep) := by
  unfold deferred stream
  rw [filter_append, filter_comm, filter_comm keep]

/-- Assumes: the copies of an event are of its family. Dropping copies keeps the family last. -/
theorem fresh_deferred [DecidableEq Id] {id : Event → Id} (name : Family)
    (hids : ∀ event ∈ events, ∀ other ∈ events, id event = id other → family event = family other)
    (seen : List Id) :
    fresh id seen (deferred family name events) = deferred family name (fresh id seen events) := by
  unfold deferred stream
  rw [fresh_append, filter_fresh _ fun _ _ _ ↦ Iff.rfl, filter_fresh _ fun _ _ _ ↦ Iff.rfl]
  · intro event hevent other hother heq
    rw [hids event hevent other hother heq]
  · intro event hevent other hother heq
    rw [hids event hevent other hother heq]
  · intro event hevent other hother heq
    obtain ⟨hevent, hne⟩ := mem_filter.mp hevent
    obtain ⟨hother, hname⟩ := mem_filter.mp hother
    rw [decide_eq_true_iff] at hne hname
    exact hne ((hids event hevent other hother heq).trans hname)

theorem lastWrite_eq_none_iff :
    lastWrite write events = none ↔ ∀ event ∈ events, write event = none := by
  unfold lastWrite
  rw [getLast?_eq_none_iff, filterMap_eq_nil_iff]

theorem SameStreams.lastWrite_eq_none_iff {first second : List Event}
    (hsame : SameStreams family first second) :
    lastWrite write first = none ↔ lastWrite write second = none := by
  rw [Foundations.lastWrite_eq_none_iff, Foundations.lastWrite_eq_none_iff]
  exact forall_congr' fun event ↦ imp_congr_left hsame.mem_iff

/-- Assumes: whenever two families write the register, their last values are the same. Then so are
the last values of any two interleavings of the streams. -/
theorem rel_lastWrite {events first second : List Event}
    {Same : Value → Value → Prop} (hrefl : ∀ value, Same value value)
    (hsettled : ∀ name other value value', name ≠ other →
      lastWrite write (stream family name events) = some value →
      lastWrite write (stream family other events) = some value' → Same value value')
    (hfirst : SameStreams family events first) (hsecond : SameStreams family events second) :
    Option.Rel Same (lastWrite write first) (lastWrite write second) := by
  cases hvalue : lastWrite write first with
  | none =>
    have hnone := (hfirst.symm.trans hsecond).lastWrite_eq_none_iff.mp hvalue
    rw [hnone]
    exact .none
  | some value =>
    cases hvalue' : lastWrite write second with
    | none =>
      have hnone := (hsecond.symm.trans hfirst).lastWrite_eq_none_iff.mp hvalue'
      rw [hnone] at hvalue
      cases hvalue
    | some value' =>
      obtain ⟨name, hname⟩ := exists_lastWrite_stream family hvalue
      obtain ⟨other, hother⟩ := exists_lastWrite_stream family hvalue'
      rw [← hfirst name] at hname
      rw [← hsecond other] at hother
      refine .some ?_
      by_cases heq : name = other
      · subst heq
        obtain rfl := Option.some.inj (hname.symm.trans hother)
        exact hrefl value
      · exact hsettled name other value value' heq hname hother

end AbsoluteZero.Foundations

import AbsoluteZero.Foundations.Chronicle
import AbsoluteZero.Kernel.Legality

/-!
# The transition log as a history

The records of a request since its last cleanup, without the dropped duplicates (`lifetime`), are a
chronicle from `created`, and the ledger holds its end (`Core.Historical`). What is published is the
log with the emissions of each record right behind it (`Core.Announced`,
`Coordinator.wellFormed_log`).
-/

namespace AbsoluteZero.Kernel

open Foundations OrderedDict List

/-- The lifecycle states as a numbered history reads them off a record. -/
def recordReading : Reading Record Json := ⟨Record.sequence, Record.priorState, Record.nextState⟩

variable (records : List Record)

abbrev IsLifetime : Prop :=
  IsChronicle recordReading Phase.created.state (· ∈ terminalStates) records

/-- The lifecycle state at the end of a lifetime. -/
abbrev lastState : Json :=
  recordReading.current Phase.created.state records

/-- A record of a request that is not a dropped duplicate. -/
def Record.Concerns (record : Record) (requestId : Json) : Prop :=
  record.requestId = requestId ∧ record.verdict = none

instance (record : Record) (requestId : Json) : Decidable (record.Concerns requestId) :=
  inferInstanceAs (Decidable (_ ∧ _))

/-- Continue a lifetime by a record: a cleanup ends it, and the next record begins a new one. -/
def extendLifetime (requestId : Json) (records : List Record) (record : Record) : List Record :=
  if record.Concerns requestId then
    if record.event = .str "__cleanup__" then [] else records ++ [record]
  else records

/-- The records of a request since its last cleanup, without the dropped duplicates. -/
def lifetime (requestId : Json) (log : List Record) : List Record :=
  log.foldl (extendLifetime requestId) []

theorem lifetime_append (requestId : Json) (log : List Record) (record : Record) :
    lifetime requestId (log ++ [record]) =
      extendLifetime requestId (lifetime requestId log) record := by
  rw [lifetime, foldl_append]
  rfl

variable {record : Record}

theorem extendLifetime_of_not_concerns {requestId : Json}
    (hrecord : ¬ record.Concerns requestId) (records : List Record) :
    extendLifetime requestId records record = records :=
  if_neg hrecord

/-- An entry, or its absence, at the end of a lifetime. -/
def Closes : Option RequestState → Prop
  | none => records = []
  | some entry =>
    lastState records = entry.lifecycleState ∧ records.length = entry.transitionSequence

/-- Every stretch of the log tells well-formed lifetimes, and the ledger holds their ends. -/
structure Core.Historical (core : Core) : Prop where
  told : ∀ requestId, requestId ≠ .null → ∀ before, before <+: core.log →
    IsLifetime (lifetime requestId before)
  closed : ∀ requestId, requestId ≠ .null →
    Closes (lifetime requestId core.log) (core.ledger.get? requestId)

theorem Core.Historical.extend {core next : Core} (hcore : core.Historical) (record : Record)
    (hlog : next.log = core.log ++ [record]) (htold : ∀ requestId, requestId ≠ .null →
      IsLifetime (extendLifetime requestId (lifetime requestId core.log) record))
    (hclosed : ∀ requestId, requestId ≠ .null →
      Closes (extendLifetime requestId (lifetime requestId core.log) record)
        (next.ledger.get? requestId)) : next.Historical where
  told requestId hnull before hbefore := by
    rw [hlog, prefix_concat_iff] at hbefore
    rcases hbefore with rfl | hbefore
    · rw [lifetime_append]
      exact htold requestId hnull
    · exact hcore.told requestId hnull before hbefore
  closed requestId hnull := by
    rw [hlog, lifetime_append]
    exact hclosed requestId hnull

variable {core : Core}

/-- A record about no request, or of a dropped duplicate, leaves every lifetime as it is. -/
theorem Core.Historical.logRecord (hcore : core.Historical)
    (hrecord : ∀ requestId, requestId ≠ .null → ¬ record.Concerns requestId) (configs : ConfigCache)
    (config : ConfigView) :
    Core.Historical { core.logRecord record with configs := configs, config := config } := by
  refine hcore.extend record rfl (fun requestId hnull ↦ ?_) fun requestId hnull ↦ ?_
  · rw [extendLifetime_of_not_concerns (hrecord requestId hnull)]
    exact hcore.told requestId hnull _ (prefix_refl _)
  · rw [extendLifetime_of_not_concerns (hrecord requestId hnull)]
    exact hcore.closed requestId hnull

variable (rule : Rule) (entry : RequestState) (eventId : Json) (config : ConfigView)
  (info : Option (List (String × Json)))

theorem event_unit_ne_cleanup :
    (rule.unit entry eventId config info).record.event ≠ .str "__cleanup__" := by
  change Json.str rule.event ≠ _
  cases rule <;> simp [Rule.event]

theorem extendLifetime_unit :
    extendLifetime entry.requestId records (rule.unit entry eventId config info).record =
      records ++ [(rule.unit entry eventId config info).record] := by
  rw [extendLifetime, if_pos ⟨rfl, rfl⟩,
    if_neg (event_unit_ne_cleanup rule entry eventId config info)]

theorem Core.Historical.commit (hcore : core.Historical) {entry : RequestState}
    {rule : Rule} {config : ConfigView} (view : ConfigView)
    (hentry : Closes (lifetime entry.requestId core.log) (some entry))
    (hsource : entry.lifecycleState = rule.source.state) (henabled : rule.Enabled entry view)
    (eventId : Json) (info : Option (List (String × Json))) :
    (core.act (.commit (rule.unit entry eventId config info))).Historical := by
  refine hcore.extend (rule.unit entry eventId config info).record rfl
    (fun requestId hnull ↦ ?_) fun requestId hnull ↦ ?_
  · by_cases hid : entry.requestId = requestId
    · subst hid
      rw [extendLifetime_unit]
      refine (hcore.told _ hnull _ (prefix_refl _)).append ?_ hentry.1.symm fun hfinal ↦ ?_
      · exact congrArg (· + 1) hentry.2.symm
      · change entry.lifecycleState ∈ terminalStates at hfinal
        change rule.target.state = entry.lifecycleState
        rw [hsource, Phase.state_mem_terminalStates] at hfinal
        rw [hsource, henabled.target_of_terminal hfinal]
    · rw [extendLifetime_of_not_concerns fun hrecord ↦ hid hrecord.1]
      exact hcore.told requestId hnull _ (prefix_refl _)
  · change Closes _ ((core.ledger.insert entry.requestId _).get? requestId)
    rw [get?_insert]
    by_cases hid : entry.requestId = requestId
    · subst hid
      rw [extendLifetime_unit, if_pos rfl]
      refine ⟨?_, ?_⟩
      · simp [Reading.current, recordReading, Rule.unit, transitionRecord, RequestState.advance]
      · rw [length_append, hentry.2, transitionSequence_unit]
        rfl
    · rw [if_neg hid, extendLifetime_of_not_concerns fun hrecord ↦ hid hrecord.1]
      exact hcore.closed requestId hnull

theorem Core.Historical.act (hsound : core.Sound) {env : Json} {action : Action}
    (hlegal : core.Legal env action) (hcore : core.Historical) : (core.act action).Historical := by
  cases hlegal with
  | configure | mark => exact hcore.logRecord (fun _ hnull hrecord ↦ hnull hrecord.1.symm) _ _
  | absorb => exact hcore.logRecord (fun _ _ hrecord ↦ Option.some_ne_none _ hrecord.2) _ _
  | strand hnew =>
    refine ⟨hcore.told, fun requestId hnull ↦ ?_⟩
    change Closes _ ((core.ledger.insert (env.item "request_id") _).get? requestId)
    rw [get?_insert]
    by_cases hid : env.item "request_id" = requestId
    · subst hid
      have hempty := hcore.closed _ hnull
      rw [hnew.fresh] at hempty
      rw [if_pos rfl]
      change Closes (lifetime _ core.log) _
      rw [hempty]
      exact ⟨rfl, rfl⟩
    · rw [if_neg hid]
      exact hcore.closed requestId hnull
  | admission hnew hrule =>
    have hempty := hcore.closed _ (Json.ne_null_of_nonemptyStr hnew.nonempty)
    rw [hnew.fresh] at hempty
    refine hcore.commit core.config ?_ ?_ ?_ _ _
    · change Closes (lifetime (env.item "request_id") core.log) _
      rw [hempty]
      exact ⟨rfl, rfl⟩
    · rcases hrule with rfl | rfl <;> rfl
    · rcases hrule with rfl | rfl <;> trivial
  | advance _ hentry hsource henabled =>
    have hfound := hsound.entries _ _ hentry
    have hclosed := hcore.closed _ (Json.ne_null_of_nonemptyStr hfound.nonempty)
    rw [hentry] at hclosed
    refine hcore.commit _ ?_ hsource henabled _ _
    rw [hfound.id]
    exact hclosed
  | @clean requestId entry hname hentry hterminal =>
    refine hcore.extend (Coordinator.cleanupRecord requestId entry) rfl
      (fun other hnull ↦ ?_) fun other hnull ↦ ?_
    · unfold extendLifetime
      split
      · exact IsChronicle.nil
      · exact hcore.told other hnull _ (prefix_refl _)
    · change Closes _ ((core.ledger.erase requestId).get? other)
      rw [get?_erase]
      by_cases hid : requestId = other
      · rw [if_pos hid, extendLifetime, if_pos ⟨hid, rfl⟩]
        exact if_pos rfl
      · rw [if_neg hid, extendLifetime_of_not_concerns fun hrecord ↦ hid hrecord.1]
        exact hcore.closed other hnull

/-! ### Entries and their lifetimes -/

/-- The property relates every entry to the lifetime of its request. -/
def Core.Relates (core : Core) (property : RequestState → List Record → Prop) : Prop :=
  ∀ requestId entry, core.ledger.get? requestId = some entry →
    property entry (lifetime requestId core.log)

/-- The property of every new entry with no records, which transitions by rules keep. -/
structure Inductive (property : RequestState → List Record → Prop) : Prop where
  admitted : ∀ env config, property (Coordinator.admittedEntry env config) []
  unit : ∀ (rule : Rule) (entry : RequestState) (eventId : Json) (config : ConfigView)
    (info : Option (List (String × Json))) (records : List Record), property entry records →
      property (rule.unit entry eventId config info).entry
        (records ++ [(rule.unit entry eventId config info).record])

section

variable {property : RequestState → List Record → Prop} {env : Json} {action : Action}

theorem Core.Relates.commit (hproperty : Inductive property) (hcore : core.Relates property)
    {entry : RequestState} (hentry : property entry (lifetime entry.requestId core.log))
    (rule : Rule) (eventId : Json) (config : ConfigView) (info : Option (List (String × Json))) :
    (core.act (.commit (rule.unit entry eventId config info))).Relates property := by
  intro requestId found hfound
  change property found (lifetime requestId (core.log ++ [_]))
  change (core.ledger.insert entry.requestId _).get? requestId = some found at hfound
  rw [get?_insert] at hfound
  rw [lifetime_append]
  split at hfound
  · next hid =>
    cases hfound
    rw [← hid, extendLifetime_unit]
    exact hproperty.unit _ _ _ _ _ _ hentry
  · next hid =>
    rw [extendLifetime_of_not_concerns fun hconcerns ↦ hid hconcerns.1]
    exact hcore requestId found hfound

theorem lifetime_of_newcomer (hcore : core.Historical) (hnew : core.Newcomer env) :
    lifetime (env.item "request_id") core.log = [] := by
  have hclosed := hcore.closed _ (Json.ne_null_of_nonemptyStr hnew.nonempty)
  rw [hnew.fresh] at hclosed
  exact hclosed

/-- Every legal action keeps what relates the entries to their lifetimes. -/
theorem Core.Relates.act (hproperty : Inductive property) (hsound : core.Sound)
    (hhistorical : core.Historical) (hlegal : core.Legal env action)
    (hcore : core.Relates property) : (core.act action).Relates property := by
  have hlogged (record : Record)
      (hrecord : ∀ requestId, requestId ≠ .null → ¬ record.Concerns requestId)
      (requestId : Json) (found : RequestState) (hfound : core.ledger.get? requestId = some found) :
      property found (lifetime requestId (core.log ++ [record])) := by
    have hnull := Json.ne_null_of_nonemptyStr (hsound.entries _ _ hfound).nonempty
    rw [lifetime_append, extendLifetime_of_not_concerns (hrecord requestId hnull)]
    exact hcore requestId found hfound
  cases hlegal with
  | configure | mark => exact hlogged _ fun _ hnull hconcerns ↦ hnull hconcerns.1.symm
  | absorb => exact hlogged _ fun _ _ hconcerns ↦ Option.some_ne_none _ hconcerns.2
  | strand hnew =>
    intro requestId found hfound
    change (core.ledger.insert (env.item "request_id") _).get? requestId = some found at hfound
    rw [get?_insert] at hfound
    split at hfound
    · next hid =>
      cases hfound
      change property _ (lifetime requestId core.log)
      rw [← hid, lifetime_of_newcomer hhistorical hnew]
      exact hproperty.admitted env core.config
    · exact hcore requestId found hfound
  | admission hnew =>
    refine hcore.commit hproperty ?_ _ _ _ _
    change property _ (lifetime (env.item "request_id") core.log)
    rw [lifetime_of_newcomer hhistorical hnew]
    exact hproperty.admitted env core.config
  | advance _ hentry =>
    refine hcore.commit hproperty ?_ _ _ _ _
    rw [(hsound.entries _ _ hentry).id]
    exact hcore _ _ hentry
  | @clean requestId entry hname hentry hterminal =>
    intro other found hfound
    change property found (lifetime other (core.log ++ [_]))
    change (core.ledger.erase requestId).get? other = some found at hfound
    obtain ⟨hid, hkept⟩ := get?_of_erase hfound
    rw [lifetime_append, extendLifetime_of_not_concerns fun hconcerns ↦ hid hconcerns.1]
    exact hcore other found hkept

end

/-! ### Publications -/

/-- The emissions of a record: their names are the ones it lists, in order, and their ids are built
from its request, its sequence number and their places. -/
structure Announces (record : Record) (emissions : List Emission) : Prop where
  names : emissions.map Emission.eventName = record.emittedEvents
  ids : emissions.map Emission.eventId =
    (List.range' 0 emissions.length).map (emissionId record.requestId record.sequence)
  request : ∀ emission ∈ emissions, emission.requestId = record.requestId

def announcement (group : Record × List Emission) : List Publication :=
  .record group.1 :: group.2.map .emission

/-- What is published is the log, each record with its emissions right behind it. -/
def Core.Announced (core : Core) : Prop :=
  ∃ groups : List (Record × List Emission), groups.map Prod.fst = core.log ∧
    core.published = groups.flatMap announcement ∧ ∀ group ∈ groups, Announces group.1 group.2

theorem rowEmissions_eq (entry : RequestState) (row : Row) (decision : Json) (config : ConfigView)
    (info : Option (List (String × Json))) (index : Nat) (names : List Json) :
    rowEmissions entry row decision config info index names = (names.zipIdx index).map fun name ↦
        { eventId := emissionId entry.requestId entry.transitionSequence name.2
          eventName := name.1
          requestId := entry.requestId
          configVersion := config.version
          payload := payloadFor name.1 entry decision row config info } := by
  induction names generalizing index with
  | nil => rfl
  | cons name rest ih => rw [rowEmissions, ih, zipIdx_cons, map_cons]

theorem announces_applied {entry : RequestState} {event eventId : Json} {row : Row}
    {guardResult : Bool} {config : ConfigView} {info : Option (List (String × Json))}
    {unit : Applied} (happlied : applied entry event eventId row guardResult config
      info = .ok unit) :
    Announces unit.record unit.emissions := by
  have hfixed := applied_fixed happlied
  have hsequence := applied_sequence happlied
  have hrow : ∃ config info emits, unit.record.emittedEvents = emits ∧
      unit.emissions = rowEmissions unit.entry row (row.outcome guardResult) config info
        0 emits := by
    obtain ⟨emits, actions, -, -, rfl⟩ := applied_eq_ok happlied
    exact ⟨_, _, _, rfl, rfl⟩
  obtain ⟨config, info, emits, hemits, hemissions⟩ := hrow
  rw [rowEmissions_eq, hfixed.2.1, ← hfixed.1, hsequence.2, ← hsequence.1] at hemissions
  rw [hemissions]
  refine ⟨?_, ?_, ?_⟩
  · rw [map_map, hemits]
    exact zipIdx_map_fst 0 _
  · rw [map_map, length_map, length_zipIdx, ← zipIdx_map_snd, map_map]
    rfl
  · intro emission hemission
    obtain ⟨name, -, rfl⟩ := mem_map.mp hemission
    rfl

theorem announces_unit : Announces (rule.unit entry eventId config info).record
      (rule.unit entry eventId config info).emissions :=
  announces_applied (applied_rule rule entry eventId config info)

theorem not_isFault_of_mem_unit {emission : Emission}
    (hemission : emission ∈ (rule.unit entry eventId config info).emissions) :
    ¬ emission.IsFault := by
  have hname := mem_map_of_mem (f := Emission.eventName) hemission
  rw [(announces_unit rule entry eventId config info).names] at hname
  obtain ⟨text, htext, heq⟩ := mem_map.mp hname
  intro hfault
  rw [Emission.IsFault, ← heq, Json.str.injEq] at hfault
  subst hfault
  cases rule <;> simp [Rule.emits] at htext

theorem publications_unit :
    (rule.unit entry eventId config info).publications =
      announcement ((rule.unit entry eventId config info).record,
        (rule.unit entry eventId config info).emissions) := by
  rw [Applied.publications, announcement]
  congr 1
  rw [← filterMap_eq_map]
  refine filterMap_congr fun emission hemission ↦ ?_
  exact if_neg (not_isFault_of_mem_unit rule entry eventId config info hemission)

theorem Core.Announced.extend {core next : Core} {emissions : List Emission}
    (hcore : core.Announced) (hlog : next.log = core.log ++ [record])
    (hpublished : next.published = core.published ++ announcement (record, emissions))
    (hannounces : Announces record emissions) : next.Announced := by
  obtain ⟨groups, hgroups, hbefore, hall⟩ := hcore
  refine ⟨groups ++ [(record, emissions)], ?_, ?_, fun group hgroup ↦ ?_⟩
  · rw [map_append, hgroups, hlog]
    rfl
  · rw [hpublished, hbefore, flatMap_append, flatMap_singleton]
  · rcases mem_append.mp hgroup with hold | hnew
    · exact hall group hold
    · rw [mem_singleton.mp hnew]
      exact hannounces

theorem announces_nil (hrecord : record.emittedEvents = []) : Announces record [] :=
  ⟨hrecord.symm, rfl, by simp⟩

theorem Core.Announced.act {env : Json} {action : Action}
    (hlegal : core.Legal env action) (hcore : core.Announced) : (core.act action).Announced := by
  cases hlegal with
  | configure | mark | absorb => exact hcore.extend rfl rfl (announces_nil rfl)
  | strand => exact hcore
  | admission | advance =>
    exact hcore.extend rfl (congrArg _ (publications_unit _ _ _ _ _)) (announces_unit _ _ _ _ _)
  | clean => exact hcore.extend rfl rfl (announces_nil rfl)

theorem Core.historical_init (view : ConfigView) : (Core.init view).Historical where
  told requestId _ before hbefore := by
    rw [prefix_nil.mp hbefore]
    exact IsChronicle.nil
  closed _ _ := rfl

theorem Core.announced_init (view : ConfigView) : (Core.init view).Announced :=
  ⟨[], rfl, rfl, by simp⟩

section Run

variable {bus : Bus} (hcalls : bus.calls = []) (clock : Nat → Json) {view : ConfigView}
  (hview : view.ShippedTable) {envs : List Json} (hships : ∀ env ∈ envs, ShipsTable env)

include hcalls hview hships

theorem Coordinator.historical_run : ((init bus clock view).run envs).core.Historical :=
  run_induction _ hcalls clock hview hships (Core.historical_init view)
    fun _ _ _ hsound hlegal hcore ↦ hcore.act hsound hlegal

theorem Coordinator.announced_run : ((init bus clock view).run envs).core.Announced :=
  run_induction _ hcalls clock hview hships (Core.announced_init view)
    fun _ _ _ _ hlegal hcore ↦ hcore.act hlegal

end Run

/-- The transition log of every run is a well-formed history. For each request the records between
its creation and its cleanup, up to any point of the log, are numbered from one without gaps, each
begins in the state where the last one ended, the first in `created`, and no record leaves a
terminal state; the ledger entry agrees with the last record; and every emission is published
behind the record that lists it, in the listed order. -/
theorem Coordinator.wellFormed_log (accepts : Nat → Bool) (clock : Nat → Json) {view : ConfigView}
    (hview : view.ShippedTable) {envs : List Json} (hships : ∀ env ∈ envs, ShipsTable env) :
    let coord := (init { accepts := accepts } clock view).run envs
    (∀ (requestId : String) (before : List Record), before <+: coord.log →
      IsLifetime (lifetime (.str requestId) before)) ∧
    (∀ (requestId : String) (entry : RequestState),
      coord.ledger.get? (.str requestId) = some entry →
        ∀ last ∈ (lifetime (.str requestId) coord.log).getLast?,
          entry.lifecycleState = last.nextState ∧ entry.transitionSequence = last.sequence) ∧
    coord.core.Announced := by
  intro coord
  have hhistorical : coord.core.Historical := historical_run rfl clock hview hships
  refine ⟨fun requestId before hbefore ↦ hhistorical.told _ (by simp) before hbefore, ?_,
    announced_run rfl clock hview hships⟩
  intro requestId entry hentry last hlast
  have hclosed := hhistorical.closed (.str requestId) (by simp)
  rw [core_ledger, hentry] at hclosed
  have htold := hhistorical.told (.str requestId) (by simp) _ (prefix_refl _)
  refine ⟨?_, ?_⟩
  · rw [← hclosed.1, core_log, lastState, Reading.current, Option.mem_def.mp hlast]
    rfl
  · rw [← hclosed.2]
    exact (htold.number_last hlast).symm

/-- A request through completion, with a duplicate, its cleanup and its second admission. -/
def readmittedRun : List Json :=
  [Envelope.inbound "e1" "request.received" "r1" [("declared_type", .str "type.alpha")],
    Envelope.inbound "e2" "plan.created" "r1" [], Envelope.inbound "e3" "verify.passed" "r1" [],
    Envelope.inbound "e3" "verify.passed" "r1" [], Envelope.inbound "e4" "task.completed" "r1" [],
    Envelope.system "e5" "session.sleep" [],
    Envelope.inbound "e6" "request.received" "r1" [("declared_type", .str "type.beta")]]

theorem wellFormed_log_readmitted :
    IsLifetime (lifetime (.str "r1") (Coordinator.selftest.run readmittedRun).log) :=
  (Coordinator.wellFormed_log (fun _ ↦ true) (fun _ ↦ .int 0) defaultView_shippedTable
    (shipsTable_of_forall_ne (by decide +kernel) : ∀ env ∈ readmittedRun, ShipsTable env)).1 "r1" _
    (prefix_refl _)

end AbsoluteZero.Kernel

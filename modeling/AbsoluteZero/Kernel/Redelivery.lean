import AbsoluteZero.Kernel.EmissionIds
import AbsoluteZero.Kernel.Pinning

/-!
# Redelivery

The kernel drops a duplicate only if it carries the id that its request applied last.
`Core.Absorbs` lists the states in which a later one is harmless.

What a redelivery may not change is what `Core.observed` keeps, which the event loop respects; a
duplicate that is not absorbed is visible sooner or later.
-/

namespace AbsoluteZero.Kernel

open Foundations OrderedDict List

/-! ### What later events can read -/

/-- An entry up to what no event reads once it is terminal. -/
def RequestState.observed (entry : RequestState) : RequestState :=
  if entry.lifecycleState ∈ terminalStates then
    { entry with transitionSequence := 0, lastAppliedEventId := .null }
  else entry

/-- The observable part of a core. -/
structure Observation where
  ledger : Ledger
  configs : ConfigCache
  config : ConfigView
  emissions : List Emission

/-- The snapshots, the emissions and the observable part of the ledger. -/
def Core.observed (core : Core) : Observation where
  ledger := core.ledger.mapValues RequestState.observed
  configs := core.configs
  config := core.config
  emissions := core.emissions

@[simp] theorem lifecycleState_observed (entry : RequestState) :
    entry.observed.lifecycleState = entry.lifecycleState := by
  unfold RequestState.observed
  split <;> rfl

variable {entry : RequestState}

theorem observed_of_not_terminal
    (hentry : entry.lifecycleState ∉ terminalStates) : entry.observed = entry :=
  if_neg hentry

theorem Core.observed_logRecord (core : Core) (record : Record) :
    (core.logRecord record).observed = core.observed := by
  simp only [observed, emissions_logRecord]
  rfl

theorem Core.observed_clean (core : Core) (requestId : Json) (entry : RequestState) :
    (core.act (.clean requestId entry)).observed =
      { core.observed with ledger := core.observed.ledger.erase requestId } := by
  have herased : (core.act (.clean requestId entry)).observed =
      { core.observed with
        ledger := (core.ledger.erase requestId).mapValues RequestState.observed } := by
    rw [← observed_logRecord core (Coordinator.cleanupRecord requestId entry)]
    rfl
  rw [herased, mapValues_erase]
  rfl

variable {first second : Core}

theorem Core.observed_act_congr (hobserved : first.observed = second.observed)
    (action : Action) : (first.act action).observed = (second.act action).observed := by
  have hledger : first.ledger.mapValues RequestState.observed =
      second.ledger.mapValues RequestState.observed := congrArg Observation.ledger hobserved
  have hconfigs : first.configs = second.configs := congrArg Observation.configs hobserved
  have hconfig : first.config = second.config := congrArg Observation.config hobserved
  have hemissions : first.emissions = second.emissions := congrArg Observation.emissions hobserved
  cases action with
  | configure view =>
    rw [act, act, observed_logRecord, observed_logRecord]
    simp only [observed, install, hledger, hconfigs, Observation.mk.injEq, true_and]
    exact hemissions
  | mark name | absorb entry env =>
    rw [act, act, observed_logRecord, observed_logRecord]
    exact hobserved
  | strand entry =>
    simp only [observed, act, mapValues_insert, hledger, hconfigs, hconfig,
      Observation.mk.injEq, true_and]
    exact hemissions
  | commit unit =>
    have hpublished (core : Core) : (core.act (.commit unit)).emissions =
        core.emissions ++ unit.publications.filterMap Publication.emission? :=
      filterMap_append
    simp only [observed, hpublished, hemissions]
    simp only [act, mapValues_insert, hledger, hconfigs, hconfig]
  | clean requestId entry =>
    rw [observed_clean, observed_clean, hobserved]

theorem Core.observed_perform_congr (actions : List Action)
    (hobserved : first.observed = second.observed) :
    (first.perform actions).observed = (second.perform actions).observed := by
  induction actions generalizing first second with
  | nil => exact hobserved
  | cons action rest ih => exact ih (observed_act_congr hobserved action)

/-- Cleaning some entries one by one erases their ids, and shows in nothing else. -/
theorem Core.observed_perform_clean (items : List (Json × RequestState)) (core : Core) :
    (core.perform (items.map fun item ↦ .clean item.1 item.2)).observed = { core.observed with
        ledger := (items.map Prod.fst).foldl OrderedDict.erase core.observed.ledger } := by
  induction items generalizing core with
  | nil => rfl
  | cons item rest ih =>
    change ((core.act (.clean item.1 item.2)).perform _).observed = _
    rw [ih, observed_clean]
    rfl

/-- The ids of the terminal entries, read off the observable part. -/
theorem settled_ids (ledger : Ledger) : ledger.settled.map Prod.fst =
      (Ledger.settled (ledger.mapValues RequestState.observed)).map Prod.fst := by
  simp only [Ledger.settled, OrderedDict.mapValues, filter_map, map_map]
  refine congrArg₂ List.map rfl (filter_congr fun item _ ↦ ?_)
  simp

/-- A session event moves the observable part by itself. -/
theorem Core.observed_perform_session (core : Core) (name : Json) :
    (core.perform (sessionDecision core.ledger name).actions).observed =
      if name = .str "session.sleep" then { core.observed with
          ledger := ((Ledger.settled core.observed.ledger).map Prod.fst).foldl OrderedDict.erase
            core.observed.ledger }
      else core.observed := by
  have hmarked : (core.act (.mark name)).observed = core.observed := observed_logRecord _ _
  unfold sessionDecision
  split
  · change ((core.act (.mark name)).perform _).observed = _
    rw [observed_perform_clean, hmarked, settled_ids]
    rfl
  · exact hmarked

theorem Rule.Enabled.eq_settle {rule : Rule} {config : ConfigView}
    (henabled : rule.Enabled entry config) (hterminal : rule.source.terminal = true) :
    rule = .settle rule.source := by
  cases rule
  case cancel source => exact absurd (hterminal.symm.trans henabled) (by decide)
  case settle => rfl
  all_goals exact absurd hterminal (by decide)

variable {env : Json} {core : Core}

/-- An event of a terminal entry shows nowhere: it is dropped, refused, or a cancellation that
leaves the entry as it is. -/
theorem Core.observed_of_terminal (hcore : core.Sound)
    (hentry : core.ledger.get? (env.item "request_id") = some entry)
    (hterminal : entry.lifecycleState ∈ terminalStates) (halted : Bool) (active : Nat) :
    (core.perform (requestDecision (some entry) core.configs core.config halted active
      env).actions).observed = core.observed := by
  unfold requestDecision
  dsimp only
  split
  · rfl
  split
  · exact observed_logRecord _ _
  split
  · rfl
  obtain ⟨phase, hphase⟩ := (hcore.entries _ _ hentry).phase
  rcases applyDecision_cases (hcore.shippedTable_pinned entry) hphase (env.item "event_name")
    (env.item "event_id") with ⟨hnone, -⟩ | ⟨rule, hsource, hevent, henabled, hdecision⟩
  · change (core.perform (applyDecision (core.pinned entry) _ _ _).actions).observed = _
    rw [hnone]
    rfl
  · change (core.perform (applyDecision (core.pinned entry) _ _ _).actions).observed = _
    have hsettle := henabled.eq_settle (by
      rw [hsource, ← Phase.state_mem_terminalStates, ← hphase]
      exact hterminal)
    rw [hdecision]
    generalize hunit : rule.unit entry (env.item "event_id") (core.pinned entry) none = unit
    have hstate : unit.entry.lifecycleState = entry.lifecycleState := by
      rw [← hunit, state_unit, hphase, ← hsource, hsettle]
      rfl
    have hobserved : unit.entry.observed = entry.observed := by
      have hsame : { unit.entry with transitionSequence := 0, lastAppliedEventId := .null } =
          { entry with transitionSequence := 0, lastAppliedEventId := .null } := by
        rw [← hunit, hsettle]
        rw [hphase, ← hsource]
        rfl
      rw [RequestState.observed, if_pos (hstate ▸ hterminal), RequestState.observed,
        if_pos hterminal]
      exact hsame
    have hrequest : unit.record.requestId = env.item "request_id" := by
      rw [← hunit, requestId_record_unit, (hcore.entries _ _ hentry).id]
    have hquiet : unit.publications.filterMap Publication.emission? = [] := by
      rw [← hunit, hsettle]
      rfl
    have hledger : (core.ledger.insert unit.record.requestId unit.entry).mapValues
        RequestState.observed = core.ledger.mapValues RequestState.observed := by
      rw [hrequest]
      exact mapValues_insert_of_get? _ _ hentry hobserved
    have hemissions : (core.act (.commit unit)).emissions = core.emissions := by
      change (core.published ++ unit.publications).filterMap _ = _
      rw [filterMap_append, hquiet, append_nil]
      rfl
    change (core.act (.commit unit)).observed = core.observed
    rw [observed, hemissions]
    change Observation.mk (OrderedDict.mapValues _ (core.ledger.insert _ _)) _ _ _ = _
    rw [hledger]
    rfl

theorem activeCount_observed (ledger : Ledger) :
    Ledger.activeCount (ledger.mapValues RequestState.observed) = ledger.activeCount := by
  simp only [Ledger.activeCount, OrderedDict.values, OrderedDict.mapValues, map_map,
    filter_map, length_map]
  refine congrArg List.length (filter_congr fun item _ ↦ ?_)
  simp

/-- Only an admission reads the halt flag. -/
theorem requestDecision_congr {first second : Bool}
    (hflags : env.item "event_name" = .str "request.received" → first = second)
    (held? : Option RequestState) (configs : ConfigCache) (config : ConfigView) (active : Nat) :
    requestDecision held? configs config first active env =
      requestDecision held? configs config second active env := by
  by_cases hname : env.item "event_name" = .str "request.received"
  · rw [hflags hname]
  · unfold requestDecision
    simp only [if_neg hname]

/-- Two sound cores with the same observable part have the same after any envelope, if an admission
finds the same halt flag. -/
theorem Core.observed_step_congr (hfirst : first.Sound)
    (hsecond : second.Sound) (hobserved : first.observed = second.observed) {halted halted' : Bool}
    (hflags : env.item "event_name" = .str "request.received" → halted = halted') :
    (first.step (halted, env)).observed = (second.step (halted', env)).observed := by
  have hledger : first.ledger.mapValues RequestState.observed =
      second.ledger.mapValues RequestState.observed := congrArg Observation.ledger hobserved
  have hconfigs : first.configs = second.configs := congrArg Observation.configs hobserved
  have hconfig : first.config = second.config := congrArg Observation.config hobserved
  simp only [step, decide, hconfig]
  rcases Envelope.validate env second.config.inboundEvents with reason | valid
  · exact hobserved
  by_cases hchange : env.item "event_name" = .str "config.changed"
  · simp only [if_pos hchange]
    exact observed_perform_congr _ hobserved
  simp only [if_neg hchange]
  by_cases hsession : env.item "event_name" ∈ sessionEvents
  · simp only [if_pos hsession]
    rw [observed_perform_session, observed_perform_session, hobserved]
  simp only [if_neg hsession]
  -- The entries of the request agree, unless they are terminal.
  have hget : (first.ledger.get? (env.item "request_id")).map RequestState.observed =
      (second.ledger.get? (env.item "request_id")).map RequestState.observed := by
    rw [← get?_mapValues, ← get?_mapValues, hledger]
  have hactive : first.ledger.activeCount = second.ledger.activeCount := by
    rw [← activeCount_observed first.ledger, ← activeCount_observed second.ledger, hledger]
  by_cases hterminal : ∃ entry, first.ledger.get? (env.item "request_id") = some entry ∧
      entry.lifecycleState ∈ terminalStates
  · obtain ⟨entry, hentry, hstate⟩ := hterminal
    rw [hentry, Option.map_some] at hget
    obtain ⟨other, hother, hsame⟩ := Option.map_eq_some_iff.mp hget.symm
    have hotherState : other.lifecycleState ∈ terminalStates := by
      rw [← lifecycleState_observed, hsame, lifecycleState_observed]
      exact hstate
    rw [hentry, hother, ← hconfig, observed_of_terminal hfirst hentry hstate, hconfig,
      observed_of_terminal hsecond hother hotherState]
    exact hobserved
  · have hequal : first.ledger.get? (env.item "request_id") =
        second.ledger.get? (env.item "request_id") := by
      cases hentry : first.ledger.get? (env.item "request_id") with
      | none =>
        rw [hentry, Option.map_none] at hget
        exact (Option.map_eq_none_iff.mp hget.symm).symm
      | some entry =>
        have hstate : entry.lifecycleState ∉ terminalStates := fun hmem ↦
          hterminal ⟨entry, hentry, hmem⟩
        rw [hentry, Option.map_some] at hget
        obtain ⟨other, hother, hsame⟩ := Option.map_eq_some_iff.mp hget.symm
        rw [observed_of_not_terminal hstate] at hsame
        have hotherState : other.lifecycleState ∉ terminalStates := by
          rw [← lifecycleState_observed, hsame]
          exact hstate
        rw [hother, ← observed_of_not_terminal hotherState, hsame]
    rw [hequal, hconfigs, hactive, requestDecision_congr hflags]
    exact observed_perform_congr _ hobserved

/-- The table has a row for the event of an envelope, and no gate on the way to it raises. -/
def Core.Applies (core : Core) (env : Json) (entry : RequestState) : Prop :=
  ∃ rows picked,
    (core.pinned entry).rows entry.lifecycleState (env.item "event_name") = .ok (some rows) ∧
      pickRow rows entry (core.pinned entry) = .ok (some picked)

/-- An envelope that changes nothing where it arrives: it is refused, a sleep that finds no terminal
entry, an admission without an id, or an event of an entry that is terminal, applied the same event
id last, was received before, or has no row for the event. -/
def Core.Absorbs (core : Core) (env : Json) : Prop :=
  Envelope.validate env core.config.inboundEvents = .ok () →
    (env.item "event_name" = .str "session.sleep" → core.ledger.settled = []) ∧
    (PerRequest env →
      (core.ledger.get? (env.item "request_id") = none →
        env.item "event_name" = .str "request.received" →
          (env.item "request_id").nonemptyStr = false) ∧
      ∀ entry, core.ledger.get? (env.item "request_id") = some entry →
        entry.lifecycleState ∈ terminalStates ∨ env.item "event_id" = entry.lastAppliedEventId ∨
          env.item "event_name" = .str "request.received" ∨ ¬ core.Applies env entry)

theorem applyDecision_of_not_applies (happlies : ¬ core.Applies env entry) (eventId : Json) :
    (applyDecision (core.pinned entry) entry (env.item "event_name") eventId).actions = [] := by
  unfold applyDecision
  split
  · rfl
  · rfl
  · next rows hrows =>
    split
    · rfl
    · rfl
    · next row guardResult hpick => exact absurd ⟨rows, _, hrows, hpick⟩ happlies

theorem Core.observed_step_of_absorbs (hcore : core.Sound)
    (hcurrent : ∀ view, core.Installs env view → core.config = view)
    (habsorbs : core.Absorbs env) (halted : Bool) :
    (core.step (halted, env)).observed = core.observed := by
  unfold step decide
  cases hvalid : Envelope.validate env core.config.inboundEvents with
  | error reason => rfl
  | ok valid =>
    obtain ⟨hsleep, hrequest⟩ := habsorbs hvalid
    by_cases hconfig : env.item "event_name" = .str "config.changed"
    · rw [if_pos hconfig, configDecision]
      cases hview : ConfigView.ofData ((env.item "payload").item "snapshot") with
      | error reason => rfl
      | ok view =>
        have hsame : core.config = view := hcurrent view ⟨hvalid, hconfig, hview⟩
        have hinstalled : core.install view = core := by
          rw [install, ← hsame, ConfigCache.put_of_at? hcore.current]
        change ((core.install view).logRecord _).observed = _
        rw [observed_logRecord, hinstalled]
    rw [if_neg hconfig]
    by_cases hsession : env.item "event_name" ∈ sessionEvents
    · rw [if_pos hsession, observed_perform_session]
      split
      · next hname =>
        have hsettled : (Ledger.settled core.observed.ledger).map Prod.fst = [] := by
          rw [observed, ← settled_ids, hsleep hname]
          rfl
        rw [hsettled]
        rfl
      · rfl
    rw [if_neg hsession]
    obtain ⟨hadmission, hentries⟩ := hrequest ⟨hconfig, hsession⟩
    cases hentry : core.ledger.get? (env.item "request_id") with
    | none =>
      unfold requestDecision
      dsimp only
      split
      · rfl
      · split
        · next hname =>
          rw [admitDecision, hadmission hentry hname]
          rfl
        · split <;> rfl
    | some entry =>
      by_cases hterminal : entry.lifecycleState ∈ terminalStates
      · exact observed_of_terminal hcore hentry hterminal halted _
      unfold requestDecision
      dsimp only
      split
      · rfl
      split
      · exact observed_logRecord _ _
      · next hid =>
        split
        · rfl
        · next hname =>
          have happlies : ¬ core.Applies env entry := by
            rcases hentries entry hentry with hmem | hduplicate | hreceived | hnone
            · exact absurd hmem hterminal
            · exact absurd hduplicate hid
            · exact absurd hreceived hname
            · exact hnone
          change (core.perform (applyDecision (core.pinned entry) _ _ _).actions).observed = _
          rw [applyDecision_of_not_applies happlies]
          rfl

/-! ### Visible duplicates -/

/-- The fields of an entry that a redelivery may not change. -/
structure Effect where
  lifecycleState : Json
  recordedVerdicts : OrderedDict String Bool
  replanCount : Nat
  cancellationFlag : Bool
  routingTarget : Json

def RequestState.effect (entry : RequestState) : Effect where
  lifecycleState := entry.lifecycleState
  recordedVerdicts := entry.recordedVerdicts
  replanCount := entry.replanCount
  cancellationFlag := entry.cancellationFlag
  routingTarget := entry.routingTarget

/-- Two cores with the same effects: the same entries in these fields, the same current snapshot
and the same emissions. -/
structure Core.SameEffect (first second : Core) : Prop where
  entries : ∀ requestId, (first.ledger.get? requestId).map RequestState.effect =
    (second.ledger.get? requestId).map RequestState.effect
  config : first.config = second.config
  emissions : first.emissions = second.emissions

theorem effect_observed (entry : RequestState) : entry.observed.effect = entry.effect := by
  unfold RequestState.observed
  split <;> rfl

theorem Core.sameEffect_of_observed
    (hobserved : first.observed = second.observed) : first.SameEffect second where
  entries requestId := by
    have hread (core : Core) : (core.ledger.get? requestId).map RequestState.effect =
        (core.observed.ledger.get? requestId).map RequestState.effect := by
      rw [observed, get?_mapValues, Option.map_map]
      exact congrArg (Option.map · _) (funext fun entry ↦ (effect_observed entry).symm)
    rw [hread, hread, hobserved]
  config := congrArg Observation.config hobserved
  emissions := congrArg Observation.emissions hobserved

def cancellation (eventId : String) (requestId : Json) : Json :=
  Envelope.make (.str eventId) (.str "request.cancelled") requestId (.int 0) .null (.obj [])

theorem eventName_cancellation (eventId : String) (requestId : Json) :
    (cancellation eventId requestId).item "event_name" = .str "request.cancelled" := rfl

/-- A cancellation of an entry in flight emits twice, under ids that hold the sequence number of
the entry. -/
theorem Core.emissions_cancellation (hcore : core.Sound) {requestId : Json}
    (hentry : core.ledger.get? requestId = some entry)
    (hlive : entry.lifecycleState ∉ terminalStates) {eventId : String} (hid : eventId ≠ "")
    (hnew : .str eventId ≠ entry.lastAppliedEventId)
    (hinbound : (Json.str "request.cancelled").isIn core.config.inboundEvents = true)
    (halted : Bool) : ∃ acknowledged enforced,
      (core.step (halted, cancellation eventId requestId)).emissions =
        core.emissions ++ [acknowledged, enforced] ∧
      acknowledged.eventId = emissionId requestId (entry.transitionSequence + 1) 0 := by
  obtain ⟨phase, hphase⟩ := (hcore.entries _ _ hentry).phase
  have hterminal : phase.terminal = false := by
    rw [hphase, Phase.state_mem_terminalStates] at hlive
    exact Bool.eq_false_iff.mpr hlive
  have hvalid : Envelope.validate (cancellation eventId requestId) core.config.inboundEvents =
      .ok () := by
    have hnonempty : (Json.str eventId).nonemptyStr = true := by simpa [Json.nonemptyStr] using hid
    have hevent : (cancellation eventId requestId).item "event_id" = .str eventId := rfl
    have hname := eventName_cancellation eventId requestId
    simp only [Envelope.validate, hevent, hname, hnonempty, hinbound]
    rfl
  have hrows : (core.pinned entry).rows entry.lifecycleState (.str "request.cancelled") =
      .ok (some [(Rule.cancel phase).row]) := by
    rw [hphase, rows_of_shipped (hcore.shippedTable_pinned entry)]
    cases phase <;> first | rfl | cases hterminal
  have happly : applyDecision (core.pinned entry) entry (.str "request.cancelled") (.str eventId) =
      { actions := [.commit ((Rule.cancel phase).unit entry (.str eventId) (core.pinned entry)
          none)] } := by
    simp only [applyDecision, hrows, pickRow_single (.cancel phase) rfl]
    exact congrArg Decision.commit
      (applied_rule (.cancel phase) entry (.str eventId) (core.pinned entry) none)
  have hdecision : core.decide halted (cancellation eventId requestId) =
      { actions := [.commit ((Rule.cancel phase).unit entry (.str eventId) (core.pinned entry)
          none)] } := by
    have hhashable := Json.hashable_of_nonemptyStr (hcore.entries _ _ hentry).nonempty
    rw [← happly, decide, hvalid]
    change requestDecision (core.ledger.get? requestId) core.configs core.config halted _ _ = _
    rw [hentry, requestDecision]
    simp only [show (cancellation eventId requestId).item "request_id" = requestId from rfl,
      show (cancellation eventId requestId).item "event_id" = .str eventId from rfl,
      eventName_cancellation, hhashable, if_neg hnew]
    rfl
  obtain ⟨acknowledged, enforced, hsent, hacknowledged⟩ : ∃ acknowledged enforced,
      ((Rule.cancel phase).unit entry (.str eventId) (core.pinned entry)
        none).publications.filterMap Publication.emission? = [acknowledged, enforced] ∧
      acknowledged.eventId = emissionId entry.requestId (entry.transitionSequence + 1) 0 :=
    ⟨_, _, rfl, rfl⟩
  rw [(hcore.entries _ _ hentry).id] at hacknowledged
  refine ⟨acknowledged, enforced, ?_, hacknowledged⟩
  rw [← hsent, step, hdecision]
  exact filterMap_append

theorem exists_eventId_ne (first second : Json) :
    ∃ eventId : String, eventId ≠ "" ∧ .str eventId ≠ first ∧ .str eventId ≠ second := by
  by_cases hx : .str "x" ≠ first ∧ .str "x" ≠ second
  · exact ⟨"x", by decide, hx⟩
  by_cases hy : .str "y" ≠ first ∧ .str "y" ≠ second
  · exact ⟨"y", by decide, hy⟩
  exact ⟨"z", by decide, by grind, by grind⟩

/-- A sleep that finds terminal entries removes them. -/
theorem Core.not_sameEffect_of_sleep
    (hvalid : Envelope.validate env core.config.inboundEvents = .ok ())
    (hname : env.item "event_name" = .str "session.sleep") (hsettled : core.ledger.settled ≠ [])
    (halted : Bool) : ¬ (core.step (halted, env)).SameEffect core := by
  intro hsame
  obtain ⟨⟨requestId, entry⟩, hitem⟩ := exists_mem_of_ne_nil _ hsettled
  have hentry := ((settled_spec core.ledger).2 _ hitem).1
  have hobserved : (core.step (halted, env)).observed.ledger =
      (core.ledger.settled.map Prod.fst).foldl OrderedDict.erase core.observed.ledger := by
    have hsession := observed_perform_session core (env.item "event_name")
    rw [if_pos hname] at hsession
    have hids : (Ledger.settled core.observed.ledger).map Prod.fst =
        core.ledger.settled.map Prod.fst := (settled_ids core.ledger).symm
    simp only [step, decide, hvalid, if_neg (show env.item "event_name" ≠ .str "config.changed" by
      rw [hname]; decide), if_pos (show env.item "event_name" ∈ sessionEvents by
      rw [hname]; decide)]
    rw [hsession, hids]
  have hgone : (core.step (halted, env)).observed.ledger.get? requestId = none := by
    rw [hobserved, get?_eq_none_iff, OrderedDict.keys, items_foldl_erase]
    intro hmem
    obtain ⟨item, hkept, rfl⟩ := mem_map.mp hmem
    have herased := (mem_filter.mp hkept).2
    exact of_decide_eq_true herased (mem_map.mpr ⟨_, hitem, rfl⟩)
  rw [observed, get?_mapValues, Option.map_eq_none_iff] at hgone
  have hread := hsame.entries requestId
  rw [hgone, hentry] at hread
  cases hread

theorem Core.not_sameEffect_of_admission (hcore : core.Sound)
    (hnew : core.Newcomer env) (halted : Bool) : ¬ (core.step (halted, env)).SameEffect core := by
  intro hsame
  have hmade : ∃ entry, (core.step (halted, env)).ledger.get? (env.item "request_id") =
      some entry := by
    rw [step, hnew.decide_eq, admitDecision_of_shipped hcore.shippedTable _ _ hnew.nonempty]
    rcases admissionDecide env core.config halted core.ledger.activeCount with
      raised | ⟨_ | _, reason⟩
    · exact ⟨_, get?_insert_self _ _ _⟩
    · exact ⟨_, get?_insert_self _ _ _⟩
    · exact ⟨_, get?_insert_self _ _ _⟩
  obtain ⟨entry, hentry⟩ := hmade
  have hread := hsame.entries (env.item "request_id")
  rw [hentry, hnew.fresh] at hread
  cases hread

/-- An event that the table applies to an entry in flight moves the entry on. If the move shows
nowhere else, it shows in the ids of the emissions that a cancellation makes next. -/
theorem Core.not_sameEffect_of_applies (hcore : core.Sound)
    (henv : ShipsTable env) (hvalid : Envelope.validate env core.config.inboundEvents = .ok ())
    (hrequest : PerRequest env) (hentry : core.ledger.get? (env.item "request_id") = some entry)
    (hlive : entry.lifecycleState ∉ terminalStates)
    (hid : env.item "event_id" ≠ entry.lastAppliedEventId)
    (hname : env.item "event_name" ≠ .str "request.received") (happlies : core.Applies env entry)
    (hinbound : (Json.str "request.cancelled").isIn core.config.inboundEvents = true)
    (halted flag flag' : Bool) : ¬ (core.step (halted, env)).SameEffect core ∨
      ∃ eventId, ¬ ((core.step (halted, env)).step
        (flag, cancellation eventId (env.item "request_id"))).SameEffect
          (core.step (flag', cancellation eventId (env.item "request_id"))) := by
  have hhashable := Json.hashable_of_nonemptyStr (hcore.entries _ _ hentry).nonempty
  obtain ⟨phase, hphase⟩ := (hcore.entries _ _ hentry).phase
  obtain ⟨rows, picked, hrows, hpick⟩ := happlies
  rcases applyDecision_cases (hcore.shippedTable_pinned entry) hphase (env.item "event_name")
    (env.item "event_id") with ⟨-, hnone⟩ | ⟨rule, hsource, hevent, henabled, hdecision⟩
  · exact absurd hpick (hnone rows picked hrows)
  generalize hunit : rule.unit entry (env.item "event_id") (core.pinned entry) none = unit
  have hstep : core.step (halted, env) = core.act (.commit unit) := by
    have happly : core.decide halted env = { actions := [.commit unit] } := by
      rw [hunit] at hdecision
      rw [← hdecision]
      simp only [decide, hvalid, requestDecision, hentry, hhashable, if_neg hrequest.1,
        if_neg hrequest.2, if_neg hid, if_neg hname]
      rfl
    rw [step, happly]
    rfl
  have hmoved : (core.act (.commit unit)).ledger.get? (env.item "request_id") =
      some unit.entry := by
    have hrecord : unit.record.requestId = env.item "request_id" := by
      rw [← hunit, requestId_record_unit, (hcore.entries _ _ hentry).id]
    rw [← hrecord]
    exact get?_insert_self _ _ _
  by_cases hstate : unit.entry.lifecycleState = entry.lifecycleState
  · right
    obtain ⟨eventId, hnonempty, hfresh, hfresh'⟩ :=
      exists_eventId_ne entry.lastAppliedEventId unit.entry.lastAppliedEventId
    refine ⟨eventId, fun hsame ↦ ?_⟩
    have hsound : (core.act (.commit unit)).Sound := by
      rw [← hstep]
      exact hcore.step henv halted
    obtain ⟨first, second, hfirst, hfirstId⟩ := emissions_cancellation hcore hentry hlive
      hnonempty hfresh hinbound flag'
    obtain ⟨third, fourth, hthird, hthirdId⟩ := emissions_cancellation hsound hmoved
      (hstate ▸ hlive) hnonempty hfresh' hinbound flag
    have hemissions := hsame.emissions
    have hcommit : (core.act (.commit unit)).emissions =
        core.emissions ++ unit.publications.filterMap Publication.emission? := filterMap_append
    rw [hstep, hthird, hfirst, hcommit, append_assoc, append_cancel_left_eq] at hemissions
    have hquiet : unit.publications.filterMap Publication.emission? = [] := by
      have hlength := congrArg List.length hemissions
      simpa using hlength
    rw [hquiet, nil_append, List.cons.injEq] at hemissions
    have hsequence := hthirdId.symm.trans ((congrArg Emission.eventId hemissions.1).trans hfirstId)
    have hadvanced : unit.entry.transitionSequence = entry.transitionSequence + 1 := by
      rw [← hunit, transitionSequence_unit]
    have hequal := (emissionId_inj hsequence).2.1
    omega
  · left
    intro hsame
    have hread := hsame.entries (env.item "request_id")
    rw [hstep, hmoved, hentry] at hread
    exact hstate (congrArg Effect.lifecycleState (Option.some.inj hread))

/-- A duplicate that is not absorbed is visible: at once, or when a cancellation of its request
comes next. -/
theorem Core.not_sameEffect_of_not_absorbs (hcore : core.Sound)
    (henv : ShipsTable env) (habsorbs : ¬ core.Absorbs env)
    (hinbound : (Json.str "request.cancelled").isIn core.config.inboundEvents = true)
    (halted flag flag' : Bool) : ¬ (core.step (halted, env)).SameEffect core ∨
      ∃ eventId, ¬ ((core.step (halted, env)).step
        (flag, cancellation eventId (env.item "request_id"))).SameEffect
          (core.step (flag', cancellation eventId (env.item "request_id"))) := by
  obtain ⟨hvalid, hvisible⟩ := Classical.not_imp.mp habsorbs
  by_cases hsleep : env.item "event_name" = .str "session.sleep" → core.ledger.settled = []
  · obtain ⟨hrequest, hchanges⟩ := Classical.not_imp.mp fun hquiet ↦ hvisible ⟨hsleep, hquiet⟩
    by_cases hadmission : core.ledger.get? (env.item "request_id") = none →
        env.item "event_name" = .str "request.received" →
          (env.item "request_id").nonemptyStr = false
    · obtain ⟨entry, hentry⟩ := not_forall.mp fun hquiet ↦ hchanges ⟨hadmission, hquiet⟩
      obtain ⟨hentry, happlied⟩ := Classical.not_imp.mp hentry
      simp only [not_or, not_not] at happlied
      obtain ⟨hlive, hid, hname, happlies⟩ := happlied
      exact not_sameEffect_of_applies hcore henv hvalid hrequest hentry hlive hid hname happlies
        hinbound halted flag flag'
    · obtain ⟨hfresh, hadmitted⟩ := Classical.not_imp.mp hadmission
      obtain ⟨hname, hnonempty⟩ := Classical.not_imp.mp hadmitted
      exact Or.inl (not_sameEffect_of_admission hcore
        ⟨hvalid, hname, by simpa using hnonempty, hfresh⟩ halted)
  · obtain ⟨hname, hsettled⟩ := Classical.not_imp.mp hsleep
    exact Or.inl (not_sameEffect_of_sleep hvalid hname hsettled halted)

namespace Coordinator

/-- Events that change no configuration keep the current snapshot. -/
theorem config_run {coord : Coordinator} (hcoord : coord.core.Sound) {envs : List Json}
    (hnames : ∀ env ∈ envs, env.item "event_name" ≠ .str "config.changed") :
    (coord.run envs).config = coord.config := by
  induction envs generalizing coord with
  | nil => rfl
  | cons env rest ih =>
    have hname := hnames env mem_cons_self
    have hsound : (coord.step env).core.Sound := by
      rw [core_step]
      exact hcoord.step (shipsTable_of_ne hname) coord.halted
    have hkept : (coord.step env).config = coord.config := by
      change (coord.step env).core.config = coord.core.config
      rw [core_step]
      rcases coord.core.step_cases (fun requestId entry hentry ↦
        (hcoord.entries requestId entry hentry).id) coord.halted env with
        ⟨view, hinstalls, -⟩ | ⟨-, -, hconfig, -⟩
      · exact absurd hinstalls.2.1 hname
      · exact hconfig
    change ((coord.step env).run rest).config = _
    rw [ih hsound fun other hother ↦ hnames other (mem_cons_of_mem _ hother), hkept]

/-- A snapshot that a redelivered envelope installs is still the current one: no configuration event
can lie in between. -/
theorem config_of_installs_again {coord : Coordinator} (hcoord : coord.core.Sound) {env : Json}
    (henv : ShipsTable env) {between : List Json}
    (hfifo : ∀ other ∈ between, other.item "event_name" ≠ env.item "event_name") {view : ConfigView}
    (hinstalls : ((coord.step env).run between).core.Installs env view) :
    ((coord.step env).run between).config = view := by
  have hsound : (coord.step env).core.Sound := by
    rw [core_step]
    exact hcoord.step henv coord.halted
  have hkept : ((coord.step env).run between).config = (coord.step env).config :=
    config_run hsound fun other hother ↦ hinstalls.2.1 ▸ hfifo other hother
  rcases coord.core.step_cases (fun requestId entry hentry ↦
    (hcoord.entries requestId entry hentry).id) coord.halted env with
    ⟨installed, hfirst, -, hconfig, -⟩ | ⟨hnever, -, hconfig, -⟩
  · rw [← core_step] at hconfig
    rw [hkept]
    exact hconfig.trans (Except.ok.inj (hfirst.2.2.symm.trans hinstalls.2.2))
  · rw [← core_step] at hconfig
    have hsame : ((coord.step env).run between).core.config = coord.core.config :=
      hkept.trans hconfig
    refine absurd ⟨?_, hinstalls.2⟩ (hnever view)
    rw [← hsame]
    exact hinstalls.1

/-- The bus lets two runs find the same halt flag at every admission to come. -/
def HaltsAlike (first second : Coordinator) (after : List Json) : Prop :=
  ∀ rest next, rest ++ [next] <+: after → next.item "event_name" = .str "request.received" →
    (first.run rest).halted = (second.run rest).halted

/-- Two sound coordinators with the same observable part keep it through a run. -/
theorem observed_run_congr {first second : Coordinator} {after : List Json}
    (hfirst : first.core.Sound) (hsecond : second.core.Sound)
    (hobserved : first.core.observed = second.core.observed)
    (hships : ∀ next ∈ after, ShipsTable next) (halike : HaltsAlike first second after) :
    (first.run after).core.observed = (second.run after).core.observed := by
  induction after generalizing first second with
  | nil => exact hobserved
  | cons next rest ih =>
    have hnext := hships next mem_cons_self
    refine ih ?_ ?_ ?_ (fun other hother ↦ hships other (mem_cons_of_mem _ hother))
      fun earlier other hearlier ↦ halike (next :: earlier) other ?_
    · rw [core_step]
      exact hfirst.step hnext first.halted
    · rw [core_step]
      exact hsecond.step hnext second.halted
    · rw [core_step, core_step]
      exact Core.observed_step_congr hfirst hsecond hobserved
        (halike [] next (prefix_append [next] rest))
    · exact (prefix_cons_inj next).mpr hearlier

/-- Handling an envelope once more after a sequence of envelopes does no harm, whatever comes
after: the run with the duplicate ends with the effects of the run without it. -/
def Harmless (start : Coordinator) (handled : List Json) (env : Json) : Prop :=
  ∀ after, (∀ next ∈ after, ShipsTable next) →
    HaltsAlike (start.run (handled ++ [env])) (start.run handled) after →
    (start.run (handled ++ env :: after)).core.SameEffect (start.run (handled ++ after)).core ∧
      ((∀ reading, start.clock reading = start.clock 0) →
        (start.run (handled ++ env :: after)).outbound = (start.run (handled ++ after)).outbound)

/-- Redelivering an envelope before the next one of its name is harmless where the envelope is
absorbed. Where the snapshot in force lets requests be cancelled, it is harmless nowhere else. -/
theorem redelivery_harmless (accepts : Nat → Bool) (clock : Nat → Json) {view : ConfigView}
    (hview : view.ShippedTable) (before between : List Json) {env : Json}
    (hships : ∀ other ∈ before ++ env :: between, ShipsTable other)
    (hfifo : ∀ other ∈ between, other.item "event_name" ≠ env.item "event_name") :
    let start := init { accepts := accepts } clock view
    let handled := before ++ env :: between
    ((start.run handled).core.Absorbs env → start.Harmless handled env) ∧
      ((Json.str "request.cancelled").isIn (start.run handled).config.inboundEvents = true →
        start.Harmless handled env → (start.run handled).core.Absorbs env) := by
  intro start handled
  have hbefore : (start.run before).core.Sound := sound_run rfl clock hview fun other hother ↦
    hships other (mem_append_left _ hother)
  have hsound : (start.run handled).core.Sound := sound_run rfl clock hview hships
  have henv : ShipsTable env := hships env (by simp)
  have hhandled : start.run handled = ((start.run before).step env).run between :=
    run_append start before (env :: between)
  have htwice (after : List Json) :
      start.run (handled ++ env :: after) = ((start.run handled).step env).run after :=
    run_append start handled (env :: after)
  have honce (after : List Json) : start.run (handled ++ after) = (start.run handled).run after :=
    run_append start handled after
  constructor
  · intro habsorbs after hafter halike
    have hagain : ((start.run handled).step env).core.observed =
        (start.run handled).core.observed := by
      rw [core_step]
      refine Core.observed_step_of_absorbs hsound (fun installed hinstalls ↦ ?_) habsorbs _
      rw [hhandled] at hinstalls ⊢
      exact config_of_installs_again hbefore henv hfifo hinstalls
    have hobserved : (start.run (handled ++ env :: after)).core.observed =
        (start.run (handled ++ after)).core.observed := by
      rw [htwice, honce]
      refine observed_run_congr ?_ hsound hagain hafter ?_
      · rw [core_step]
        exact hsound.step henv _
      · rw [htwice] at halike
        exact halike
    have hsame := Core.sameEffect_of_observed hobserved
    refine ⟨hsame, fun hclock ↦ ?_⟩
    have hstamped (envs : List Json) : ∀ sent ∈ (start.run envs).outbound,
        sent.timestamp = clock 0 := fun sent hsent ↦ by
      obtain ⟨reading, hreading⟩ := timestamp_outbound (stamped_run rfl clock view envs) hsent
      exact hreading.trans (hclock reading)
    refine eq_of_map_toEmission (clock 0) (hstamped _) (hstamped _) ?_
    rw [map_toEmission_outbound, map_toEmission_outbound]
    exact hsame.emissions
  · intro hinbound hharmless
    by_contra habsorbs
    rcases Core.not_sameEffect_of_not_absorbs hsound henv habsorbs hinbound
      (start.run handled).halted ((start.run handled).step env).halted
      (start.run handled).halted with
      hvisible | ⟨eventId, hvisible⟩
    · have hnow := (hharmless [] (by simp) fun rest next hrest ↦ by simp at hrest).1
      rw [htwice, honce] at hnow
      exact hvisible (core_step _ env ▸ hnow)
    · have hnext := (hharmless [cancellation eventId (env.item "request_id")]
        (fun next hnext ↦ by
          rw [mem_singleton.mp hnext]
          exact shipsTable_of_ne (by rw [eventName_cancellation]; decide))
        fun rest next hrest hname ↦ by
          have hcancels : next = cancellation eventId (env.item "request_id") :=
            mem_singleton.mp (hrest.subset (by simp))
          rw [hcancels, eventName_cancellation] at hname
          exact absurd hname (by decide)).1
      rw [htwice, honce] at hnext
      refine hvisible ?_
      rw [← core_step, ← core_step, ← core_step]
      exact hnext

end Coordinator

def failedAttempt : List Json :=
  [Envelope.inbound "e1" "request.received" "r1" [("declared_type", .str "type.alpha")],
    Envelope.inbound "e2" "plan.created" "r1" [],
    Envelope.inbound "e3" "task.failed" "r1" []]

/-- The admission of the request may be redelivered after the failure, whatever comes next. -/
theorem redelivery_harmless_admission : Coordinator.selftest.Harmless failedAttempt
      (Envelope.inbound "e1" "request.received" "r1" [("declared_type", .str "type.alpha")]) := by
  refine (Coordinator.redelivery_harmless (fun _ ↦ true) (fun _ ↦ .int 0)
    defaultView_shippedTable [] failedAttempt.tail (shipsTable_of_forall_ne (by decide +kernel))
    (by decide +kernel)).1 fun _ ↦ ⟨?_, fun _ ↦ ⟨?_, ?_⟩⟩
  · intro hname
    exact absurd hname (by decide)
  · intro hnone
    exact absurd hnone (by decide +kernel)
  · exact fun entry _ ↦ Or.inr (Or.inr (Or.inl rfl))

/-- The plan of the failed attempt may not: redelivered, it starts a second attempt. -/
theorem failedAttempt_restarts : (failedAttempt.map fun env ↦ env.item "event_id").Nodup ∧
      ¬ (Coordinator.selftest.run (failedAttempt ++
        [Envelope.inbound "e2" "plan.created" "r1" []])).core.SameEffect
          (Coordinator.selftest.run failedAttempt).core := by
  refine ⟨by decide +kernel, fun hsame ↦ ?_⟩
  have hread := congrArg (Option.map Effect.lifecycleState) (hsame.entries (.str "r1"))
  revert hread
  decide +kernel

end AbsoluteZero.Kernel

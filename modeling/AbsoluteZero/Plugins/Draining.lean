import AbsoluteZero.Plugins.Runtime

/-!
# Draining the consumed topics

Whether a message is acceptable, and whether the handling of a refused one leaves a trace, is read
off the message, the content of the registry and the recorded overrides. Messages are handled until
the first that is not acceptable; the rest of its topic has been taken off the bus by then
(`PluginRuntime.spared_iff`).
-/

namespace AbsoluteZero.Plugins

open Foundations List

/-! ### Acceptable messages -/

abbrev Override := DictKey × DictKey × DictKey

/-- What the handling of a message depends on: the content of the registry and the overrides of the
two legalities. -/
structure Standing where
  content : Content
  healthOverrides : List Override
  loadOverrides : List Override

variable (runtime : PluginRuntime)

def PluginRuntime.standing : Standing :=
  ⟨runtime.registry.current, runtime.healthLegality.overrides, runtime.loadLegality.overrides⟩

/-- The override in a payload: none when it lacks one of the keys, and a `TypeError` when one of the
three values has no hash. -/
def overrideOf (payload : Json) : Except PyError (Option Override) :=
  match payload.get? "subject_id", payload.get? "from_state", payload.get? "to_state" with
  | some subject, some fromState, some toState => do
    return some (← subject.dictKey, ← fromState.dictKey, ← toState.dictKey)
  | _, _, _ => .ok none

/-- The overrides with one more, unless it is there. -/
def withOverride (overrides : List Override) : Option Override → List Override
  | none => overrides
  | some override => if override ∈ overrides then overrides else override :: overrides

/-- The content after the transition that a payload asks for, none when the registry refuses it. -/
def enacted? (content : Content) (payload : Json) : Option Content :=
  match registryEvent? payload with
  | none => some content
  | some (entity, .str id, .str toState) => (content.lifecycleTransition entity id toState).toOption
  | some _ => none

/-- The standing after a lifecycle event, none when it is refused. -/
def Standing.enact? (standing : Standing) (payload : Json) : Option Standing :=
  match payload, overrideOf payload with
  | .obj _, .ok override =>
    (enacted? standing.content payload).map fun content ↦
      ⟨content, withOverride standing.healthOverrides override,
        withOverride standing.loadOverrides override⟩
  | _, _ => none

/-- A live observation names its provider and has a dict as payload. -/
def outcomeAcceptable (message : Json) : Bool :=
  match payloadOf message with
  | .obj _ => (message.item "subject_id").hashable
  | _ => false

def Standing.after? (floats : Floats) (standing : Standing) (message : Json) : Option Standing :=
  match eventOf message with
  | .error _ => none
  | .ok .lifecycleChanged => standing.enact? (payloadOf message)
  | .ok .reliabilityUpdated => (priorsEntry floats message).toOption.map fun _ ↦ standing
  | .ok _ => if outcomeAcceptable message then some standing else none

/-- The first message that is refused, with the standing that it is refused in and the messages of
its topic behind it. -/
structure Stop where
  reached : Standing
  message : Json
  later : List Json

/-- The standing after the messages of a topic, or where they stop. -/
def Standing.readQueue (floats : Floats) (standing : Standing) : List Json → Except Stop Standing
  | [] => .ok standing
  | message :: later =>
    match standing.after? floats message with
    | none => .error ⟨standing, message, later⟩
    | some next => next.readQueue floats later

/-- The standing after the messages of one topic after another, or where they stop. -/
def Standing.readQueues (floats : Floats) (standing : Standing) (queues : List (List Json)) :
    Except Stop Standing :=
  queues.foldlM (Standing.readQueue floats) standing

/-- Whether a refused message changes anything: evidence of a provider whose id has no hash is
journalled, and a new override is recorded before the registry refuses. -/
def Standing.LeavesTrace (standing : Standing) (message : Json) : Prop :=
  match eventOf message with
  | .error _ => False
  | .ok .reliabilityUpdated => False
  | .ok .lifecycleChanged =>
    ∃ fields override, payloadOf message = .obj fields ∧ overrideOf (.obj fields) = .ok
      (some override) ∧ ¬ (override ∈ standing.healthOverrides ∧ override ∈ standing.loadOverrides)
  | .ok _ => ∃ fields, payloadOf message = .obj fields

theorem onLifecycleEvent_eq {State : Type} [DecidableEq State] [ClosedVocabulary State]
    (legality : LifecycleLegality State) (payload : Json) :
    legality.onLifecycleEvent payload = (overrideOf payload).map fun override ↦
      { legality with overrides := withOverride legality.overrides override } := by
  unfold LifecycleLegality.onLifecycleEvent overrideOf
  cases payload.get? "subject_id" with
  | none => rfl
  | some subject =>
    cases payload.get? "from_state" with
    | none => rfl
    | some fromState =>
      cases payload.get? "to_state" with
      | none => rfl
      | some toState =>
        simp only
        cases subject.dictKey with
        | error => rfl
        | ok subjectKey =>
          cases fromState.dictKey with
          | error => rfl
          | ok fromKey =>
            cases toState.dictKey with
            | error => rfl
            | ok toKey =>
              change Except.ok _ = Except.ok _
              unfold withOverride
              simp only
              split <;> rfl

theorem withOverride_eq_self_iff {overrides : List Override} {override : Override} :
    withOverride overrides (some override) = overrides ↔ override ∈ overrides := by
  unfold withOverride
  constructor
  · intro heq
    by_contra hnew
    simp only [if_neg hnew] at heq
    exact cons_ne_self _ _ heq
  · exact fun hmem ↦ if_pos hmem

theorem enactLifecycleEvent_cases (registry : Registry) {payload : Json} {entity : String}
    {id toState : Json} (hevent : registryEvent? payload = some (entity, id, toState)) :
    (∃ registry', enactLifecycleEvent registry entity id toState = .ok registry' ∧
      enacted? registry.current payload = some registry'.current) ∨
    ∃ fault, enactLifecycleEvent registry entity id toState = .error fault ∧
      enacted? registry.current payload = none := by
  unfold enacted?
  rw [hevent]
  cases id with
  | str id =>
    cases toState with
    | str toState =>
      simp only [enactLifecycleEvent, applied, Versioned.apply, Content.handle]
      cases registry.current.lifecycleTransition entity id toState with
      | ok content => exact .inl ⟨_, rfl, rfl⟩
      | error refusal => exact .inr ⟨_, rfl, rfl⟩
    | _ =>
      refine .inr ?_
      simp only [enactLifecycleEvent]
      split
      · split <;> exact ⟨_, rfl, trivial⟩
      · exact ⟨_, rfl, trivial⟩
  | _ => exact .inr ⟨_, rfl, rfl⟩

namespace PluginRuntime

/-- The registry, the journal and the overrides are those of the earlier runtime. -/
def Untouched (later earlier : PluginRuntime) : Prop :=
  later.registry = earlier.registry ∧ later.journal = earlier.journal ∧
    later.healthLegality.overrides = earlier.healthLegality.overrides ∧
    later.loadLegality.overrides = earlier.loadLegality.overrides

theorem Untouched.refl : runtime.Untouched runtime := ⟨rfl, rfl, rfl, rfl⟩

/-- How a call on a message ends: it returns in the standing after the message, or raises and leaves
what it found unless the message leaves a trace. -/
def Ends (after : Option Standing) (trace : Prop)
    (result : PluginRuntime × Except Fault Unit) : Prop :=
  result.1.topics = runtime.topics ∧
    match result.2, after with
    | .ok (), some standing => result.1.standing = standing
    | .error _, none => result.1.Untouched runtime ↔ ¬ trace
    | _, _ => False

section

variable (runtime : PluginRuntime)

theorem ends_of_raises {trace : Prop} (htrace : ¬ trace) (fault : Fault) :
    runtime.Ends none trace (runtime, .error fault) :=
  ⟨rfl, iff_of_true (Untouched.refl runtime) htrace⟩

theorem ends_handleOutcome (message : Json) (kind : LiveKind) :
    runtime.Ends (if outcomeAcceptable message then some runtime.standing else none)
      (∃ fields, payloadOf message = .obj fields) (runtime.handleOutcome message kind) := by
  unfold handleOutcome outcomeAcceptable
  cases hpayload : payloadOf message with
  | obj fields =>
    have hkey : ∀ subject : Json, subject.hashable = true ↔ ∃ key, subject.dictKey = .ok key := by
      intro subject
      cases subject <;> simp [Json.hashable, Json.dictKey]
    unfold recordOutcome
    cases hsubject : (message.item "subject_id").dictKey with
    | ok key =>
      rw [if_pos ((hkey _).mpr ⟨key, hsubject⟩)]
      exact ⟨rfl, rfl⟩
    | error error =>
      rw [if_neg]
      · refine ⟨rfl, iff_of_false ?_ (not_not_intro ⟨fields, rfl⟩)⟩
        rintro ⟨-, hjournal, -⟩
        exact cons_ne_nil _ _ (append_right_eq_self.mp hjournal)
      · intro hhashable
        obtain ⟨key, hkey⟩ := (hkey _).mp hhashable
        rw [hsubject] at hkey
        cases hkey
  | _ => exact ends_of_raises runtime (by rintro ⟨fields, heq⟩; cases heq) _

theorem ends_handleLifecycle (message : Json) :
    runtime.Ends (runtime.standing.enact? (payloadOf message))
      (∃ fields override, payloadOf message = .obj fields ∧
        overrideOf (.obj fields) = .ok (some override) ∧
        ¬ (override ∈ runtime.standing.healthOverrides ∧ override ∈ runtime.standing.loadOverrides))
      (runtime.handleLifecycle message) := by
  unfold handleLifecycle Standing.enact?
  cases hpayload : payloadOf message with
  | obj fields =>
    simp only [onLifecycleEvent_eq]
    cases hoverride : overrideOf (.obj fields) with
    | error error =>
      refine ends_of_raises runtime ?_ _
      rintro ⟨fields', override, heq, hoverride', -⟩
      cases heq
      rw [hoverride] at hoverride'
      cases hoverride'
    | ok override =>
      simp only [Except.map]
      cases hevent : registryEvent? (.obj fields) with
      | none =>
        have henacted : enacted? runtime.standing.content (.obj fields) =
            some runtime.standing.content := by
          unfold enacted?
          rw [hevent]
        rw [henacted]
        exact ⟨rfl, rfl⟩
      | some event =>
        simp only
        rcases enactLifecycleEvent_cases runtime.registry hevent with
          ⟨registry', hregistry', henacted⟩ | ⟨fault, hfault, henacted⟩
        · rw [hregistry', show runtime.standing.content = runtime.registry.current from rfl,
            henacted]
          exact ⟨rfl, rfl⟩
        · rw [hfault, show runtime.standing.content = runtime.registry.current from rfl, henacted]
          refine ⟨rfl, ?_⟩
          cases override with
          | none =>
            refine iff_of_true ⟨rfl, rfl, rfl, rfl⟩ ?_
            rintro ⟨fields', override, heq, hoverride', -⟩
            cases heq
            rw [hoverride] at hoverride'
            cases hoverride'
          | some override =>
            have hoverrides : (∃ fields' override', Json.obj fields = .obj fields' ∧
                overrideOf (.obj fields') = .ok (some override') ∧
                ¬ (override' ∈ runtime.standing.healthOverrides ∧
                  override' ∈ runtime.standing.loadOverrides)) ↔
                ¬ (override ∈ runtime.standing.healthOverrides ∧
                  override ∈ runtime.standing.loadOverrides) := by
              constructor
              · rintro ⟨fields', override', heq, hoverride', hnew⟩
                cases heq
                rw [hoverride] at hoverride'
                cases hoverride'
                exact hnew
              · exact fun hnew ↦ ⟨fields, override, rfl, hoverride, hnew⟩
            rw [hoverrides, not_not]
            unfold Untouched
            simp only [withOverride_eq_self_iff, true_and]
            exact Iff.rfl
  | arr elements => exact ends_of_raises runtime (by rintro ⟨fields, override, heq, -⟩; cases heq) _
  | _ => exact ends_of_raises runtime (by rintro ⟨fields, override, heq, -⟩; cases heq) _

end

variable (floats : Floats) (runtime : PluginRuntime)

theorem ends_handleEvent (message : Json) :
    runtime.Ends (runtime.standing.after? floats message) (runtime.standing.LeavesTrace message)
      (runtime.handleEvent floats message) := by
  unfold handleEvent Standing.after? Standing.LeavesTrace
  cases heventOf : eventOf message with
  | error fault => exact ends_of_raises runtime id fault
  | ok event =>
    cases event with
    | lifecycleChanged => exact runtime.ends_handleLifecycle message
    | reliabilityUpdated =>
      simp only [dispatch, consumeReliabilityUpdate]
      cases priorsEntry floats message with
      | ok entry => exact ⟨rfl, rfl⟩
      | error fault => exact ends_of_raises runtime id fault
    | execFailed => exact runtime.ends_handleOutcome message .failed
    | execTimeout => exact runtime.ends_handleOutcome message .timeout
    | execCompleted => exact runtime.ends_handleOutcome message .completed

theorem handleAll_spec (messages : List Json) :
    (runtime.handleAll floats messages).runtime.topics = runtime.topics ∧
    match runtime.standing.readQueue floats messages with
    | .ok standing =>
      (runtime.handleAll floats messages).handled = messages ∧
        (runtime.handleAll floats messages).raised = none ∧
        (runtime.handleAll floats messages).runtime.standing = standing
    | .error stop =>
      messages = (runtime.handleAll floats messages).handled ++ stop.message :: stop.later ∧
        ∃ before fault,
          (runtime.handleAll floats messages).raised = some (before, stop.message, fault) ∧
          ((runtime.handleAll floats messages).runtime.Untouched before ↔
            ¬ stop.reached.LeavesTrace stop.message) := by
  induction messages generalizing runtime with
  | nil => exact ⟨rfl, rfl, rfl, rfl⟩
  | cons message later ih =>
    obtain ⟨htopics, hends⟩ := runtime.ends_handleEvent floats message
    unfold handleAll Standing.readQueue
    rcases hcall : runtime.handleEvent floats message with ⟨next, fault | ⟨⟨⟩⟩⟩
    · rw [hcall] at htopics hends
      cases hafter : runtime.standing.after? floats message with
      | some standing =>
        rw [hafter] at hends
        exact hends.elim
      | none =>
        rw [hafter] at hends
        exact ⟨htopics, rfl, runtime, fault, rfl, hends⟩
    · rw [hcall] at htopics hends
      cases hafter : runtime.standing.after? floats message with
      | none =>
        rw [hafter] at hends
        exact hends.elim
      | some standing =>
        rw [hafter] at hends
        obtain ⟨htopics', hlater⟩ := ih next
        refine ⟨htopics'.trans htopics, ?_⟩
        rw [show next.standing = standing from hends] at hlater
        simp only
        cases hread : standing.readQueue floats later with
        | ok standing' | error stop =>
          rw [hread] at hlater
          exact ⟨congrArg (message :: ·) hlater.1, hlater.2⟩

theorem messages_drained (topic other : ConsumedEvent) :
    (runtime.drained topic).messages other =
      if other = topic then [] else runtime.messages other := by
  unfold drained
  by_cases hempty : runtime.messages topic = []
  · rw [if_pos hempty]
    split
    · next heq => rw [heq, hempty]
    · rfl
  · rw [if_neg hempty]
    unfold messages
    rw [OrderedDict.get?_insert]
    by_cases heq : other = topic
    · rw [if_pos heq, heq, if_pos rfl]
      rfl
    · rw [if_neg heq, if_neg fun htext ↦ heq (ClosedVocabulary.injective _ _ htext).symm]

theorem messages_of_topics {first second : PluginRuntime} (htopics : first.topics = second.topics)
    (topic : ConsumedEvent) : first.messages topic = second.messages topic := by
  unfold messages
  rw [htopics]

theorem standing_drained (topic : ConsumedEvent) :
    (runtime.drained topic).standing = runtime.standing := by
  unfold drained
  split <;> rfl

def pendingOn (topics : List ConsumedEvent) : List Json :=
  topics.flatMap runtime.messages

theorem readQueues_of_ok {floats : Floats} {standing next : Standing} {queue : List Json}
    {queues : List (List Json)} (hread : standing.readQueue floats queue = .ok next) :
    standing.readQueues floats (queue :: queues) = next.readQueues floats queues := by
  unfold Standing.readQueues
  rw [foldlM_cons, hread]
  rfl

theorem readQueues_of_error {floats : Floats} {standing : Standing} {queue : List Json}
    {queues : List (List Json)} {stop : Stop}
    (hread : standing.readQueue floats queue = .error stop) :
    standing.readQueues floats (queue :: queues) = .error stop := by
  unfold Standing.readQueues
  rw [foldlM_cons, hread]
  rfl

/-- Draining goes as far as the topics are read, and takes the rest of the topic that it stops in
off the bus. -/
theorem drainTopics_spec {topics : List ConsumedEvent} (hnodup : topics.Nodup) :
    (∀ topic ∉ topics, (runtime.drainTopics floats topics).runtime.messages topic =
      runtime.messages topic) ∧
    match runtime.standing.readQueues floats (topics.map runtime.messages) with
    | .ok standing =>
      (runtime.drainTopics floats topics).handled = runtime.pendingOn topics ∧
        (runtime.drainTopics floats topics).raised = none ∧
        (runtime.drainTopics floats topics).runtime.standing = standing ∧
        (runtime.drainTopics floats topics).runtime.pendingOn topics = []
    | .error stop =>
      runtime.pendingOn topics = (runtime.drainTopics floats topics).handled ++
        stop.message :: stop.later ++
          (runtime.drainTopics floats topics).runtime.pendingOn topics ∧
        ∃ before fault,
          (runtime.drainTopics floats topics).raised = some (before, stop.message, fault) ∧
          ((runtime.drainTopics floats topics).runtime.Untouched before ↔
            ¬ stop.reached.LeavesTrace stop.message) := by
  induction topics generalizing runtime with
  | nil => exact ⟨fun _ _ ↦ rfl, rfl, rfl, rfl, rfl⟩
  | cons topic topics ih =>
    obtain ⟨htopic, hnodup⟩ := nodup_cons.mp hnodup
    obtain ⟨htopics, hfirst⟩ := (runtime.drained topic).handleAll_spec floats
      (runtime.messages topic)
    rw [standing_drained] at hfirst
    -- the first topic is empty, the others are as they were
    have hmessages (other : ConsumedEvent) :
        ((runtime.drained topic).handleAll floats (runtime.messages topic)).runtime.messages other =
          if other = topic then [] else runtime.messages other := by
      rw [← messages_drained, messages_of_topics htopics]
    have hothers : ∀ other ∈ topics,
        ((runtime.drained topic).handleAll floats (runtime.messages topic)).runtime.messages other =
          runtime.messages other := by
      intro other hother
      rw [hmessages, if_neg (ne_of_mem_of_not_mem hother htopic)]
    rw [map_cons]
    unfold drainTopics
    simp only
    cases hread : runtime.standing.readQueue floats (runtime.messages topic) with
    | error stop =>
      rw [readQueues_of_error hread]
      rw [hread] at hfirst
      obtain ⟨hsplit, before, fault, hraised, htrace⟩ := hfirst
      rw [hraised]
      refine ⟨fun other hother ↦ ?_, ?_, before, fault, rfl, htrace⟩
      · rw [hmessages, if_neg (ne_of_not_mem_cons hother)]
      · unfold pendingOn
        rw [flatMap_cons, flatMap_cons, hmessages, if_pos rfl, nil_append, flatMap_congr hothers]
        exact congrArg (· ++ topics.flatMap runtime.messages) hsplit
    | ok standing =>
      rw [readQueues_of_ok hread]
      rw [hread] at hfirst
      obtain ⟨hhandled, hraised, hstanding⟩ := hfirst
      rw [hraised]
      obtain ⟨hkept, hlater⟩ := ih
        ((runtime.drained topic).handleAll floats (runtime.messages topic)).runtime hnodup
      have hpending : ((runtime.drained topic).handleAll floats
          (runtime.messages topic)).runtime.pendingOn topics = runtime.pendingOn topics :=
        flatMap_congr hothers
      have hempty : (drainTopics floats ((runtime.drained topic).handleAll floats
          (runtime.messages topic)).runtime topics).runtime.messages topic = [] := by
        rw [hkept topic htopic, hmessages, if_pos rfl]
      rw [map_congr_left hothers, hstanding, hpending] at hlater
      refine ⟨fun other hother ↦ ?_, ?_⟩
      · rw [mem_cons, not_or] at hother
        rw [hkept other hother.2, hmessages, if_neg hother.1]
      · cases hrest : standing.readQueues floats (topics.map runtime.messages) with
        | ok standing' =>
          rw [hrest] at hlater
          obtain ⟨hhandled', hraised', hstanding', hpending'⟩ := hlater
          refine ⟨?_, hraised', hstanding', ?_⟩
          · rw [hhandled, hhandled']
            rfl
          · unfold pendingOn
            rw [flatMap_cons, hempty]
            exact hpending'
        | error stop =>
          rw [hrest] at hlater
          obtain ⟨hsplit, hlater⟩ := hlater
          refine ⟨?_, hlater⟩
          unfold pendingOn at hsplit ⊢
          rw [flatMap_cons, flatMap_cons, hempty, hsplit, hhandled, nil_append]
          simp only [append_assoc]

/-- The messages that are pending on the consumed topics. -/
def pending : List Json := runtime.pendingOn ClosedVocabulary.all

/-- A message costs no other, and leaves no trace when it is refused: what was pending is handled,
or is the message whose handling raised, or is pending still; and that message leaves the registry,
the journal and the overrides as they were before it. -/
def Spared : Prop :=
  runtime.pending.Perm ((runtime.drainAndHandle floats).handled ++
      ((runtime.drainAndHandle floats).raised.map fun raised ↦ raised.2.1).toList ++
      (runtime.drainAndHandle floats).runtime.pending) ∧
    ∀ before message fault,
      (runtime.drainAndHandle floats).raised = some (before, message, fault) →
      (runtime.drainAndHandle floats).runtime.Untouched before

/-- The first pending message that is refused, if there is one, is the last of its topic and leaves
no trace. -/
def StopsLast : Prop :=
  ∀ stop, runtime.standing.readQueues floats (ClosedVocabulary.all.map runtime.messages) =
      .error stop →
    stop.later = [] ∧ ¬ stop.reached.LeavesTrace stop.message

theorem spared_iff :
    Spared floats runtime ↔ StopsLast floats runtime := by
  have hnodup : (ClosedVocabulary.all : List ConsumedEvent).Nodup := by decide
  obtain ⟨-, hspec⟩ := runtime.drainTopics_spec floats hnodup
  unfold Spared StopsLast pending drainAndHandle
  cases hread : runtime.standing.readQueues floats
      (ClosedVocabulary.all.map runtime.messages) with
  | ok standing =>
    rw [hread] at hspec
    obtain ⟨hhandled, hraised, -, hpending⟩ := hspec
    refine iff_of_true ⟨?_, ?_⟩ ?_
    · rw [hhandled, hraised, hpending]
      simp
    · rw [hraised]
      intro before message fault hnone
      cases hnone
    · intro stop hstop
      cases hstop
  | error stop =>
    rw [hread] at hspec
    obtain ⟨hsplit, before, fault, hraised, htrace⟩ := hspec
    constructor
    · rintro ⟨hperm, huntouched⟩ stop' hstop'
      cases hstop'
      refine ⟨?_, htrace.mp (huntouched before stop.message fault hraised)⟩
      have hlength := hperm.length_eq
      rw [hsplit, hraised] at hlength
      simp only [length_append, length_cons, Option.map_some, Option.toList_some,
        length_nil] at hlength
      exact eq_nil_of_length_eq_zero (by omega)
    · intro hstops
      obtain ⟨hlast, hclean⟩ := hstops stop rfl
      refine ⟨?_, ?_⟩
      · rw [hsplit, hraised, hlast]
        exact List.Perm.refl _
      · rw [hraised]
        rintro before' message' fault' heq
        cases heq
        exact htrace.mpr hclean

end PluginRuntime

def strayTransition : Json :=
  .obj [("event_name", .str "plugin.lifecycle.changed"), ("subject_id", .str "p"),
    ("payload", .obj [("entity", .str "provider"), ("id", .str "p"),
      ("to_state", .str "retired")])]

def overrideEvent : Json :=
  .obj [("event_name", .str "plugin.lifecycle.changed"), ("subject_id", .str "q"),
    ("payload", .obj [("subject_id", .str "q"), ("from_state", .str "LOADED"),
      ("to_state", .str "LOADING")])]

def strayRuntime : PluginRuntime :=
  .new defaultThresholds ⟨[("plugin.lifecycle.changed", [strayTransition, overrideEvent])],
    by simp⟩ .empty

/-- The override is neither handled nor pending any more. -/
theorem not_spared_strayRuntime : ¬ PluginRuntime.Spared plainFloats strayRuntime := by
  rintro ⟨hperm, -⟩
  have hlength := hperm.length_eq
  revert hlength
  decide +kernel

end AbsoluteZero.Plugins

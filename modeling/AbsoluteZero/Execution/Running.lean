import AbsoluteZero.Execution.Engine

/-!
# When a run ends definitely

A run makes one attempt after the other until one of them stops it, the budget is used up, or
something raises (`runAttempts_cases`). It ends definitely exactly when nothing raises in an attempt
that comes up (`endsDefinitely_iff`); otherwise the execution is left running for ever.
-/

namespace AbsoluteZero.Execution

open Foundations Storage OrderedDict Call List

/-- The engine with a handle replaced, and with further records and events. -/
def Engine.extended (engine : Engine) (id : String) (handle : ExecutionHandle)
    (docs events : List Json) : Engine where
  storage := engine.storage.map (·.extend id docs)
  bus := engine.bus.map (· ++ events)
  handles := engine.handles.insert id handle
  nextId := engine.nextId

theorem Engine.extended_extended (engine : Engine) (id : String) (first second : ExecutionHandle)
    (docs docs' events events' : List Json) :
    (engine.extended id first docs events).extended id second docs' events' =
      engine.extended id second (docs ++ docs') (events ++ events') := by
  unfold extended
  simp only [insert_insert, Option.map_map]
  congr 1
  · exact congrArg (fun change ↦ Option.map change engine.storage)
      (funext fun book ↦ (book.extend_append id docs docs').symm)
  · exact congrArg (fun change ↦ Option.map change engine.bus)
      (funext fun before ↦ append_assoc _ _ _)

section Steps

section

variable (engine : Engine)

theorem outcome_update (id : String) (handle : ExecutionHandle) :
    (update id handle).outcome engine = .ok ⟨⟩ := rfl

theorem after_update (id : String) (handle : ExecutionHandle) :
    (update id handle).after engine =
      { engine with handles := engine.handles.insert id handle } := rfl

/-- The append of a record goes through when there is no journal or it does not raise. -/
theorem record_goes {fails : Bool}
    (hfails : ¬ (engine.storage.isSome ∧ fails = true)) (id kind : String)
    (fields : List (String × Json)) : (record fails id kind fields).outcome engine = .ok ⟨⟩ ∧
      (record fails id kind fields).after engine = { engine with
        storage := engine.storage.map fun book ↦ book.append id (recordDoc id kind fields) } := by
  obtain ⟨storage, bus, handles, nextId⟩ := engine
  cases storage with
  | none => exact ⟨rfl, rfl⟩
  | some book =>
    cases fails with
    | true => exact absurd ⟨rfl, rfl⟩ hfails
    | false => exact ⟨rfl, rfl⟩

theorem record_raises (hstorage : engine.storage.isSome) (id kind : String)
    (fields : List (String × Json)) :
    (record true id kind fields).outcome engine = .error .storage ∧
      (record true id kind fields).after engine = engine := by
  obtain ⟨storage, bus, handles, nextId⟩ := engine
  cases storage with
  | none => cases hstorage
  | some book => exact ⟨rfl, rfl⟩

/-- The event is published when there is no bus or it does not raise. -/
theorem emit_goes {fails : Bool} (hfails : ¬ (engine.bus.isSome ∧ fails = true))
    (id name : String) (attempt : Nat) (request : Json) (fields : List (String × Json)) :
    (emit fails id name attempt request fields).outcome engine = .ok ⟨⟩ ∧
      (emit fails id name attempt request fields).after engine = { engine with
        bus := engine.bus.map (· ++ [eventDoc id name attempt request fields]) } := by
  obtain ⟨storage, bus, handles, nextId⟩ := engine
  cases bus with
  | none => exact ⟨rfl, rfl⟩
  | some events =>
    cases fails with
    | true => exact absurd ⟨rfl, rfl⟩ hfails
    | false => exact ⟨rfl, rfl⟩

/-- When nothing raises, a replaced handle comes with its record and its event. -/
theorem told_goes {recording publishing : Bool}
    (hrecording : ¬ (engine.storage.isSome ∧ recording = true))
    (hpublishing : ¬ (engine.bus.isSome ∧ publishing = true)) (id kind name : String)
    (handle : ExecutionHandle) (attempt : Nat) (request : Json)
    (fields shown : List (String × Json))
    {Result : Type} (rest : EngineCall Result) :
    let told := do
      update id handle
      record recording id kind fields
      emit publishing id name attempt request shown
      rest
    let extended := engine.extended id handle [recordDoc id kind fields]
      [eventDoc id name attempt request shown]
    told.outcome engine = rest.outcome extended ∧ told.after engine = rest.after extended := by
  obtain ⟨storage, bus, handles, nextId⟩ := engine
  cases storage with
  | none =>
    cases bus with
    | none => exact ⟨rfl, rfl⟩
    | some events =>
      obtain rfl : publishing = false := by simpa using hpublishing
      exact ⟨rfl, rfl⟩
  | some book =>
    obtain rfl : recording = false := by simpa using hrecording
    cases bus with
    | none => exact ⟨rfl, rfl⟩
    | some events =>
      obtain rfl : publishing = false := by simpa using hpublishing
      exact ⟨rfl, rfl⟩

theorem emit_raises (hbus : engine.bus.isSome) (id name : String) (attempt : Nat)
    (request : Json) (fields : List (String × Json)) :
    (emit true id name attempt request fields).outcome engine = .error .bus ∧
      (emit true id name attempt request fields).after engine = engine := by
  obtain ⟨storage, bus, handles, nextId⟩ := engine
  cases bus with
  | none => cases hbus
  | some events => exact ⟨rfl, rfl⟩

end

end Steps

/-! ### Attempts -/

def attemptDoc (id : String) (attempt : Nat) : Json :=
  recordDoc id "attempt" [("attempt", .int attempt)]

def startedDoc (id : String) (request : Json) (attempt : Nat) : Json :=
  eventDoc id "exec.started" attempt request [("attempt", .int attempt)]

/-- A process that ended with another exit code than zero, or could not be launched: there is
another attempt, if the budget has one. -/
def Spawned.failing : Spawned → Bool
  | .returned exitCode _ _ => exitCode ≠ 0
  | .osError _ => true
  | .timedOut _ _ | .raised _ => false

def Spawned.stopping : Spawned → Bool
  | .returned exitCode _ _ => exitCode = 0
  | .timedOut _ _ => true
  | .osError _ | .raised _ => false

/-- Something raises at an attempt: the append of its record, the publish of its event, or
`subprocess.run` with an error that is not caught. -/
def Breaks (engine : Engine) (environment : Environment) (attempt : Nat) : Prop :=
  (engine.storage.isSome ∧ environment.recording attempt) ∨
    (engine.bus.isSome ∧ environment.publishing attempt) ∨
    ∃ text, environment.spawn attempt = .raised text

/-- An attempt comes up: it is within the budget, and every attempt before it failed. -/
def ComesUp (environment : Environment) (budget attempt : Nat) : Prop :=
  1 ≤ attempt ∧ attempt ≤ budget + 1 ∧
    ∀ earlier, 1 ≤ earlier → earlier < attempt → (environment.spawn earlier).failing

section Attempts

variable {engine : Engine} {environment : Environment} {id : String}

variable {spawned : Spawned}

theorem judge_failed_iff {outcome : Outcome}
    (houtcome : judge spawned = .ok outcome) : outcome.state = .failed ↔ spawned.failing := by
  cases spawned with
  | returned exitCode stdout stderr =>
    obtain rfl := Except.ok.inj houtcome
    by_cases hcode : exitCode = 0 <;> simp [hcode, Spawned.failing]
  | timedOut stdout stderr | osError text =>
    obtain rfl := Except.ok.inj houtcome
    simp [Spawned.failing]
  | raised text => cases houtcome

theorem judge_terminal {outcome : Outcome} (houtcome : judge spawned = .ok outcome) :
    outcome.state = .completed ∨ outcome.state = .failed ∨ outcome.state = .timeout := by
  cases spawned with
  | returned exitCode stdout stderr =>
    obtain rfl := Except.ok.inj houtcome
    by_cases hcode : exitCode = 0 <;> simp [hcode]
  | timedOut stdout stderr =>
    obtain rfl := Except.ok.inj houtcome
    exact .inr (.inr rfl)
  | osError text =>
    obtain rfl := Except.ok.inj houtcome
    exact .inr (.inl rfl)
  | raised text => cases houtcome

theorem Spawned.not_stopping_of_failing (hfailing : spawned.failing) : ¬ spawned.stopping := by
  cases spawned <;> simp_all [failing, stopping]

variable {attempt : Nat}

/-- An attempt at which nothing raises leaves its record and its event. -/
theorem runAttempt_goes (id : String) (handle : ExecutionHandle)
    (hgoes : ¬ Breaks engine environment attempt) :
    ∃ outcome, judge (environment.spawn attempt) = .ok outcome ∧
      (runAttempt environment id handle attempt).outcome engine = .ok outcome ∧
      (runAttempt environment id handle attempt).after engine =
        engine.extended id { handle with attempts := attempt } [attemptDoc id attempt]
          [startedDoc id (handle.spec.1.item "request_id") attempt] := by
  obtain ⟨hrecording, hgoes⟩ := not_or.mp hgoes
  obtain ⟨hpublishing, hspawn⟩ := not_or.mp hgoes
  obtain ⟨outcome, houtcome⟩ : ∃ outcome, judge (environment.spawn attempt) = .ok outcome := by
    cases hspawned : environment.spawn attempt with
    | raised text => exact absurd ⟨text, hspawned⟩ hspawn
    | returned exitCode stdout stderr | timedOut stdout stderr | osError text => exact ⟨_, rfl⟩
  refine ⟨outcome, houtcome, ?_⟩
  unfold runAttempt
  rw [houtcome]
  exact told_goes engine hrecording hpublishing id "attempt" "exec.started" _ attempt _ _ _ _

/-- An attempt at which something raises leaves the handle as it is while it runs, and its record
when the append does not raise. -/
theorem runAttempt_breaks (id : String) (handle : ExecutionHandle)
    (hbreaks : Breaks engine environment attempt) :
    ∃ error, (runAttempt environment id handle attempt).outcome engine = .error error ∧
      ((runAttempt environment id handle attempt).after engine).handles =
        engine.handles.insert id { handle with attempts := attempt } ∧
      (environment.recording attempt = false →
        ((runAttempt environment id handle attempt).after engine).storage =
          engine.storage.map (·.extend id [attemptDoc id attempt])) := by
  obtain ⟨updated, hupdated⟩ : ∃ updated : Engine, updated = { engine with
    handles := engine.handles.insert id { handle with attempts := attempt } } := ⟨_, rfl⟩
  unfold runAttempt
  obtain ⟨hfirst, hfirstAfter⟩ := bind_of_returns _ (outcome_update engine id _)
    ((after_update engine id _).trans hupdated.symm)
  rw [hfirst, hfirstAfter]
  by_cases hrecording : updated.storage.isSome ∧ environment.recording attempt = true
  · obtain ⟨hraises, hafter⟩ := record_raises updated hrecording.1 id "attempt"
      [("attempt", .int attempt)]
    rw [hrecording.2]
    obtain ⟨hsecond, hsecondAfter⟩ := bind_of_raises _ hraises hafter
    rw [hsecond, hsecondAfter, hupdated]
    exact ⟨_, rfl, rfl, nofun⟩
  · obtain ⟨hrecorded, hrecord⟩ := record_goes updated hrecording id "attempt"
      [("attempt", .int attempt)]
    obtain ⟨hsecond, hsecondAfter⟩ := bind_of_returns _ hrecorded hrecord
    rw [hsecond, hsecondAfter]
    by_cases hpublishing : updated.bus.isSome ∧ environment.publishing attempt = true
    · obtain ⟨hraises, hafter⟩ := emit_raises { updated with
        storage := updated.storage.map fun book ↦ book.append id (recordDoc id "attempt"
          [("attempt", .int attempt)]) } hpublishing.1 id "exec.started" attempt
        (handle.spec.1.item "request_id") [("attempt", .int attempt)]
      rw [hpublishing.2]
      obtain ⟨hthird, hthirdAfter⟩ := bind_of_raises _ hraises hafter
      rw [hthird, hthirdAfter, hupdated]
      exact ⟨_, rfl, rfl, fun _ ↦ rfl⟩
    · obtain ⟨hemitted, hemit⟩ := emit_goes { updated with
        storage := updated.storage.map fun book ↦ book.append id (recordDoc id "attempt"
          [("attempt", .int attempt)]) } hpublishing id "exec.started" attempt
        (handle.spec.1.item "request_id") [("attempt", .int attempt)]
      obtain ⟨hthird, hthirdAfter⟩ := bind_of_returns _ hemitted hemit
      rw [hthird, hthirdAfter]
      rcases hbreaks with hbreaks | hbreaks | ⟨text, hspawn⟩
      · rw [hupdated] at hrecording
        exact absurd hbreaks hrecording
      · rw [hupdated] at hpublishing
        exact absurd hbreaks hpublishing
      · rw [hspawn, hupdated]
        exact ⟨_, rfl, rfl, fun _ ↦ rfl⟩

theorem breaks_extended {first : ExecutionHandle} {docs events : List Json} :
    Breaks (engine.extended id first docs events) environment attempt ↔
      Breaks engine environment attempt := by
  unfold Breaks Engine.extended
  simp only [Option.isSome_map]

/-- The loop from an attempt on makes the attempts up to a last one. Those before it failed, and at
none of them something raised. At the last one something raises, or the loop returns its outcome,
which is a failure only when the budget is used up. -/
theorem runAttempts_cases (environment : Environment) (id : String) (handle : ExecutionHandle)
    (remaining attempt : Nat) (engine : Engine) :
    ∃ last, attempt ≤ last ∧ last ≤ attempt + remaining ∧
      (∀ number, attempt ≤ number → number < last → (environment.spawn number).failing ∧
        ¬ Breaks engine environment number) ∧ ((Breaks engine environment last ∧ ∃ error,
          (runAttempts environment id handle attempt remaining).outcome engine = .error error ∧
          ((runAttempts environment id handle attempt remaining).after engine).handles =
            engine.handles.insert id { handle with attempts := last } ∧
          (environment.recording last = false →
            ((runAttempts environment id handle attempt remaining).after engine).storage =
              engine.storage.map (·.extend id
                ((List.range' attempt (last + 1 - attempt)).map (attemptDoc id))))) ∨
        (¬ Breaks engine environment last ∧ ∃ outcome,
          judge (environment.spawn last) = .ok outcome ∧
          (outcome.state = .failed → last = attempt + remaining) ∧
          (runAttempts environment id handle attempt remaining).outcome engine =
            .ok (last, outcome) ∧
          (runAttempts environment id handle attempt remaining).after engine =
            engine.extended id { handle with attempts := last }
              ((List.range' attempt (last + 1 - attempt)).map (attemptDoc id))
              ((List.range' attempt (last + 1 - attempt)).map
                (startedDoc id (handle.spec.1.item "request_id"))))) := by
  induction remaining generalizing attempt engine with
  | zero =>
    refine ⟨attempt, le_rfl, le_rfl, fun number hfrom hbefore ↦ by omega, ?_⟩
    unfold runAttempts
    by_cases hbreaks : Breaks engine environment attempt
    · obtain ⟨error, herror, hhandles, hstorage⟩ := runAttempt_breaks id handle hbreaks
      obtain ⟨hraises, hafter⟩ := bind_of_raises _ herror rfl
      rw [hraises, hafter, Nat.add_sub_cancel_left]
      exact .inl ⟨hbreaks, error, rfl, hhandles, hstorage⟩
    · obtain ⟨outcome, hjudge, houtcome, hafter⟩ := runAttempt_goes id handle hbreaks
      obtain ⟨hreturns, hthen⟩ := bind_of_returns _ houtcome hafter
      rw [hreturns, hthen, Nat.add_sub_cancel_left]
      exact .inr ⟨hbreaks, outcome, hjudge, fun _ ↦ rfl, rfl, rfl⟩
  | succ remaining ih =>
    unfold runAttempts
    by_cases hbreaks : Breaks engine environment attempt
    · obtain ⟨error, herror, hhandles, hstorage⟩ := runAttempt_breaks id handle hbreaks
      obtain ⟨hraises, hafter⟩ := bind_of_raises _ herror rfl
      refine ⟨attempt, le_rfl, by omega, fun number hfrom hbefore ↦ by omega, ?_⟩
      rw [hraises, hafter, Nat.add_sub_cancel_left]
      exact .inl ⟨hbreaks, error, rfl, hhandles, hstorage⟩
    · obtain ⟨outcome, hjudge, houtcome, hafter⟩ := runAttempt_goes id handle hbreaks
      obtain ⟨hreturns, hthen⟩ := bind_of_returns _ houtcome hafter
      by_cases hfailed : outcome.state = .failed
      · have hfailing := (judge_failed_iff hjudge).mp hfailed
        obtain ⟨last, hfrom, hwithin, hearlier, hlast⟩ := ih (attempt + 1)
          (engine.extended id { handle with attempts := attempt } [attemptDoc id attempt]
            [startedDoc id (handle.spec.1.item "request_id") attempt])
        refine ⟨last, by omega, by omega, fun number hnumber hbefore ↦ ?_, ?_⟩
        · by_cases hhere : number = attempt
          · rw [hhere]
            exact ⟨hfailing, hbreaks⟩
          · obtain ⟨hspawn, hgoes⟩ := hearlier number (by omega) hbefore
            exact ⟨hspawn, fun hbreaks' ↦ hgoes (breaks_extended.mpr hbreaks')⟩
        · rw [hreturns, hthen, if_pos hfailed]
          have hrange : List.range' attempt (last + 1 - attempt) =
              attempt :: List.range' (attempt + 1) (last + 1 - (attempt + 1)) := by
            rw [← range'_succ]
            congr 1
            omega
          rcases hlast with ⟨hbreaks', error, herror, hhandles, hstorage⟩ |
            ⟨hgoes, final, hjudge', hbudget, houtcome', hafter'⟩
          · refine .inl ⟨breaks_extended.mp hbreaks', error, herror, ?_, fun hrecording ↦ ?_⟩
            · rw [hhandles]
              exact insert_insert _ _ _ _
            · rw [hstorage hrecording, hrange]
              unfold Engine.extended
              rw [Option.map_map]
              rfl
          · refine .inr ⟨fun hbreaks' ↦ hgoes (breaks_extended.mpr hbreaks'), final, hjudge',
              fun hstate ↦ by have := hbudget hstate; omega, houtcome', ?_⟩
            rw [hafter', Engine.extended_extended, hrange]
            rfl
      · refine ⟨attempt, le_rfl, by omega, fun number hfrom hbefore ↦ by omega, .inr ⟨hbreaks,
          outcome, hjudge, fun hstate ↦ absurd hstate hfailed, ?_, ?_⟩⟩
        · rw [hreturns, if_neg hfailed]
          rfl
        · rw [hthen, if_neg hfailed, Nat.add_sub_cancel_left]
          rfl

end Attempts

/-! ### Definite ends -/

/-- A record of an outcome. -/
def IsTerminalDoc (doc : Json) : Prop := doc.get? "kind" = some (.str "terminal")

instance : DecidablePred IsTerminalDoc := fun _ ↦ inferInstanceAs (Decidable (_ = _))

def IsTerminalEvent (event : Json) : Prop :=
  event.get? "event_name" ∈ ["exec.completed", "exec.failed", "exec.timeout"].map (some ∘ Json.str)

instance : DecidablePred IsTerminalEvent := fun _ ↦ inferInstanceAs (Decidable (_ ∈ _))

/-- Neither the journal nor the bus raises, at an attempt that comes up or for the outcome. -/
def Serves (engine : Engine) (environment : Environment) (budget : Nat) : Prop :=
  (∀ number, ComesUp environment budget number →
    ¬ (engine.storage.isSome ∧ environment.recording number) ∧
      ¬ (engine.bus.isSome ∧ environment.publishing number)) ∧
  ¬ (engine.storage.isSome ∧ environment.recordingOutcome) ∧
    ¬ (engine.bus.isSome ∧ environment.publishingOutcome)

/-- The run of an execution ends definitely: its handle is terminal and has a result, its attempts
are within the budget, and none came after a timeout or a success. When the journal and the bus
served, it returned, with one record and one event of its outcome. -/
structure EndsDefinitely (digest : Bytes → String) (environment : Environment) (engine : Engine)
    (id : String) (handle : ExecutionHandle) : Prop where
  found : ((run digest environment id).after engine).handles.get? id = some handle
  terminal : handle.state.terminal
  result : handle.result.isSome
  bounded : handle.attempts ≤ handle.spec.maxRetries + 1
  stopped : ∀ number, 1 ≤ number → number < handle.attempts → ¬ (environment.spawn number).stopping
  served : Serves engine environment handle.spec.maxRetries →
    (∃ outcome, (run digest environment id).outcome engine = .ok outcome) ∧
    ∃ docs events,
      ((run digest environment id).after engine).records id = engine.records id ++ docs ∧
      ((run digest environment id).after engine).events = engine.events ++ events ∧
      (engine.storage.isSome → docs.countP IsTerminalDoc = 1) ∧
      (engine.bus.isSome → events.countP IsTerminalEvent = 1)

section Ends

variable {digest : Bytes → String} {engine : Engine} {environment : Environment} {id : String}
  {handle : ExecutionHandle}

def outcomeDoc (digest : Bytes → String) (id : String) (outcome : Outcome)
    (attempts : Nat) : Json :=
  recordDoc id "terminal" (outcomeFields digest outcome attempts)

def outcomeEvent (id : String) (handle : ExecutionHandle) (outcome : Outcome) (attempts : Nat) :
    Json :=
  eventDoc id (terminalEvent outcome.state) attempts (handle.spec.1.item "request_id")
    [("exit_code", exitCodeJson outcome.exitCode), ("attempts", .int attempts)]

section

variable (digest : Bytes → String)

/-- After the loop the handle has its outcome, whatever raises. -/
theorem handles_conclude (environment : Environment) (id : String)
    (handle : ExecutionHandle) (attempts : Nat) (outcome : Outcome) (engine : Engine) :
    ((conclude digest environment id handle attempts outcome).after engine).handles =
      engine.handles.insert id (handle.ended attempts outcome) := by
  obtain ⟨storage, bus, handles, nextId⟩ := engine
  unfold conclude
  cases storage with
  | none =>
    cases bus with
    | none => rfl
    | some events => cases hpublishing : environment.publishingOutcome <;> rfl
  | some book =>
    cases hrecording : environment.recordingOutcome with
    | true => rfl
    | false =>
      cases bus with
      | none => rfl
      | some events => cases hpublishing : environment.publishingOutcome <;> rfl

/-- When nothing raises after the loop, the record and the event of the outcome are there. -/
theorem conclude_goes (environment : Environment) (id : String)
    (handle : ExecutionHandle) (attempts : Nat) (outcome : Outcome) (engine : Engine)
    (hrecording : ¬ (engine.storage.isSome ∧ environment.recordingOutcome = true))
    (hpublishing : ¬ (engine.bus.isSome ∧ environment.publishingOutcome = true)) :
    (conclude digest environment id handle attempts outcome).outcome engine = .ok outcome ∧
      (conclude digest environment id handle attempts outcome).after engine =
        engine.extended id (handle.ended attempts outcome) [outcomeDoc digest id outcome attempts]
          [outcomeEvent id handle outcome attempts] := by
  exact told_goes engine hrecording hpublishing id "terminal" _ _ attempts _ _ _ _

/-- A run of a pending execution is its loop, and what comes after it. -/
theorem run_pending (environment : Environment)
    (hhandle : engine.handles.get? id = some handle) (hpending : handle.state = .pending) :
    ∀ started : Engine, started = { engine with
        handles := engine.handles.insert id { handle with state := .running } } →
      (run digest environment id).outcome engine =
        (runAttempts environment id { handle with state := .running } 1 handle.spec.maxRetries >>=
          fun made ↦ conclude digest environment id { handle with state := .running } made.1
            made.2).outcome started ∧
      (run digest environment id).after engine =
        (runAttempts environment id { handle with state := .running } 1 handle.spec.maxRetries >>=
          fun made ↦ conclude digest environment id { handle with state := .running } made.1
            made.2).after started := by
  rintro started rfl
  have hrun : (run digest environment id).run engine = ((do
      update id { handle with state := .running }
      let made ← runAttempts environment id { handle with state := .running } 1
        handle.spec.maxRetries
      conclude digest environment id { handle with state := .running } made.1 made.2 :
        EngineCall Outcome)).run engine := by
    unfold run
    rw [run_bind]
    simp only [outcome_get, after_get, hhandle, hpending, ne_eq, not_true_eq_false, if_false]
  unfold Call.outcome Call.after
  rw [hrun]
  obtain ⟨hfirst, hfirstAfter⟩ := bind_of_returns (fun _ ↦ do
      let made ← runAttempts environment id { handle with state := .running } 1
        handle.spec.maxRetries
      conclude digest environment id { handle with state := .running } made.1 made.2)
    (outcome_update engine id { handle with state := .running }) (after_update engine id _)
  exact ⟨hfirst, hfirstAfter⟩

end

/-! ### What is written -/

theorem kind_recordDoc (id kind : String) (fields : List (String × Json)) :
    (recordDoc id kind fields).get? "kind" = some (.str kind) := by
  unfold recordDoc
  rw [Json.get?_canonical_obj]
  rfl

theorem countP_attemptDocs (id : String) (numbers : List Nat) :
    (numbers.map (attemptDoc id)).countP IsTerminalDoc = 0 := by
  rw [countP_eq_zero]
  intro doc hdoc
  obtain ⟨attempt, -, rfl⟩ := mem_map.mp hdoc
  intro hterminal
  have hkind : (attemptDoc id attempt).get? "kind" = some (.str "attempt") :=
    kind_recordDoc id "attempt" _
  have hboth := hkind.symm.trans (of_decide_eq_true hterminal)
  exact absurd (Json.str.inj (Option.some.inj hboth)) (by decide)

theorem isTerminalDoc_outcomeDoc (digest : Bytes → String) (id : String) (outcome : Outcome)
    (attempts : Nat) : IsTerminalDoc (outcomeDoc digest id outcome attempts) :=
  kind_recordDoc id "terminal" _

theorem countP_startedDocs (id : String) (request : Json) (numbers : List Nat) :
    (numbers.map (startedDoc id request)).countP IsTerminalEvent = 0 := by
  rw [countP_eq_zero]
  intro doc hdoc
  obtain ⟨attempt, -, rfl⟩ := mem_map.mp hdoc
  rw [decide_eq_true_eq]
  show ¬ some (Json.str "exec.started") ∈ _
  decide

theorem isTerminalEvent_outcomeEvent (id : String) (handle : ExecutionHandle) {outcome : Outcome}
    (houtcome : outcome.state = .completed ∨ outcome.state = .failed ∨ outcome.state = .timeout)
    (attempts : Nat) : IsTerminalEvent (outcomeEvent id handle outcome attempts) := by
  show some (Json.str (terminalEvent outcome.state)) ∈ _
  rcases houtcome with hstate | hstate | hstate <;> rw [hstate] <;> decide

theorem Engine.records_extended (engine : Engine) (id : String) (handle : ExecutionHandle)
    (docs events : List Json) : (engine.extended id handle docs events).records id =
      engine.records id ++ if engine.storage.isSome then docs else [] := by
  unfold Engine.records Engine.extended
  cases engine.storage with
  | none => rfl
  | some book =>
    show (book.extend id docs).records id = _
    rw [JournalBook.records_extend, if_pos rfl]
    rfl

theorem Engine.events_extended (engine : Engine) (id : String) (handle : ExecutionHandle)
    (docs events : List Json) : (engine.extended id handle docs events).events =
      engine.events ++ if engine.bus.isSome then events else [] := by
  unfold Engine.events Engine.extended
  cases engine.bus <;> rfl

/-- An attempt that comes up is made, unless something raises before. -/
theorem ComesUp.le {budget last number : Nat} {outcome : Outcome}
    (hnumber : ComesUp environment budget number)
    (hjudge : judge (environment.spawn last) = .ok outcome) (hfrom : 1 ≤ last)
    (hbudget : outcome.state = .failed → last = 1 + budget) : number ≤ last := by
  by_contra hafter
  obtain ⟨-, hwithin, hearlier⟩ := hnumber
  have hfailing := hearlier last hfrom (Nat.lt_of_not_le hafter)
  have hlast := hbudget ((judge_failed_iff hjudge).mpr hfailing)
  omega

/-- A run of a pending execution ends definitely exactly when nothing raises at an attempt that
comes up: not the append of its record, not the publish of its event, and not `subprocess.run` with
an error that is not caught. -/
theorem endsDefinitely_iff (digest : Bytes → String) (environment : Environment)
    (hhandle : engine.handles.get? id = some handle) (hpending : handle.state = .pending) :
    (∃ final, EndsDefinitely digest environment engine id final) ↔
      ∀ number, ComesUp environment handle.spec.maxRetries number →
        ¬ Breaks engine environment number := by
  obtain ⟨started, hstarted⟩ : ∃ started : Engine, started = { engine with
    handles := engine.handles.insert id { handle with state := .running } } := ⟨_, rfl⟩
  obtain ⟨houtcome, hafter⟩ := run_pending digest environment hhandle hpending started hstarted
  have hbreaksIff : ∀ number, Breaks started environment number ↔
      Breaks engine environment number :=
    fun number ↦ by rw [hstarted]; rfl
  obtain ⟨last, hfrom, hwithin, hearlier, hcases⟩ := runAttempts_cases environment id
    { handle with state := .running } handle.spec.maxRetries 1 started
  have hcomes : ComesUp environment handle.spec.maxRetries last :=
    ⟨hfrom, by omega, fun number hnumber hbefore ↦ (hearlier number hnumber hbefore).1⟩
  constructor
  · rintro ⟨final, hends⟩ number hnumber hbreaks
    rcases hcases with ⟨-, error, hraises, hhandles, -⟩ | ⟨hgoes, outcome, hjudge, hbudget, -, -⟩
    · obtain ⟨-, hthen⟩ := bind_of_raises (fun made ↦ conclude digest environment id
        { handle with state := .running } made.1 made.2) hraises rfl
      have hfound := hends.found
      rw [hafter, hthen, hhandles, hstarted, get?_insert_self] at hfound
      have hterminal := hends.terminal
      rw [← Option.some.inj hfound] at hterminal
      cases hterminal
    · have hle := hnumber.le hjudge hfrom hbudget
      by_cases hlast : number = last
      · rw [hlast] at hbreaks
        exact hgoes ((hbreaksIff last).mpr hbreaks)
      · exact (hearlier number hnumber.1 (by omega)).2 ((hbreaksIff number).mpr hbreaks)
  · intro hclean
    rcases hcases with ⟨hbreaks, -⟩ | ⟨-, outcome, hjudge, hbudget, hreturns, hmade⟩
    · exact absurd ((hbreaksIff last).mp hbreaks) (hclean last hcomes)
    · obtain ⟨hthen, hthenAfter⟩ := bind_of_returns (fun made ↦ conclude digest environment id
        { handle with state := .running } made.1 made.2) hreturns hmade
      have hstates := judge_terminal hjudge
      refine ⟨ExecutionHandle.ended { handle with state := .running } last outcome, ?_⟩
      exact {
        found := by
          rw [hafter, hthenAfter, handles_conclude, get?_insert_self]
        terminal := by
          show outcome.state.terminal = true
          rcases hstates with hstate | hstate | hstate <;> rw [hstate] <;> rfl
        result := rfl
        bounded := by
          show last ≤ handle.spec.maxRetries + 1
          omega
        stopped := by
          intro number hnumber hbefore
          exact Spawned.not_stopping_of_failing (hearlier number hnumber hbefore).1
        served := by
          rintro ⟨-, hrecording, hpublishing⟩
          obtain ⟨hconcluded, hconcludedAfter⟩ := conclude_goes digest environment id
            { handle with state := .running } last outcome (started.extended id _ _ _)
            (by unfold Engine.extended; rw [Option.isSome_map, hstarted]; exact hrecording)
            (by unfold Engine.extended; rw [Option.isSome_map, hstarted]; exact hpublishing)
          rw [houtcome, hthen, hconcluded, hafter, hthenAfter, hconcludedAfter,
            Engine.extended_extended, Engine.records_extended, Engine.events_extended, hstarted]
          refine ⟨⟨outcome, rfl⟩, _, _, rfl, rfl, fun hstorage ↦ ?_, fun hbus ↦ ?_⟩
          · rw [if_pos hstorage, countP_append, countP_attemptDocs,
              countP_singleton, if_pos (decide_eq_true (isTerminalDoc_outcomeDoc ..))]
          · rw [if_pos hbus, countP_append, countP_startedDocs, countP_singleton,
              if_pos (decide_eq_true (isTerminalEvent_outcomeEvent id _ hstates last))] }

end Ends

def sampleSpec : Spec :=
  ⟨.obj [("command", .arr [.str "tool"]), ("timeout_seconds", .int 5), ("max_retries", .int 1)], by
    decide +kernel⟩

def sampleEngine : Engine :=
  ⟨some .empty, some [], OrderedDict.empty.insert "x-000001" ⟨sampleSpec, .pending, 0, none⟩, 2⟩

/-- Nothing raises but what `subprocess.run` does. -/
def calm (spawn : Nat → Spawned) : Environment :=
  ⟨fun _ ↦ false, fun _ ↦ false, spawn, false, false⟩

theorem sampleEngine_handle : sampleEngine.handles.get? "x-000001" =
    some ⟨sampleSpec, .pending, 0, none⟩ := rfl

/-- The first attempt fails and the second one succeeds. -/
theorem endsDefinitely_iff_sample : ∃ final, EndsDefinitely (fun _ ↦ "")
    (calm fun number ↦ .returned (if number = 1 then 1 else 0) [] []) sampleEngine
      "x-000001" final :=
  (endsDefinitely_iff (fun _ ↦ "") (calm fun number ↦ .returned (if number = 1 then 1 else 0) [] [])
    sampleEngine_handle rfl).mpr (by
      intro number _ hbreaks
      rcases hbreaks with ⟨-, hraises⟩ | ⟨-, hraises⟩ | ⟨text, hspawn⟩
      · cases hraises
      · cases hraises
      · cases hspawn)

/-- The command has a null byte, so that `subprocess.run` raises `ValueError`, which is not caught.
The run raises, and the execution is running for ever. -/
theorem null_byte_runs_forever :
    ((run (fun _ ↦ "") (calm fun _ ↦ .raised "embedded null byte") "x-000001").outcome
        sampleEngine = .error (.spawn "embedded null byte")) ∧
      ((((run (fun _ ↦ "") (calm fun _ ↦ .raised "embedded null byte") "x-000001").after
        sampleEngine).handles.get? "x-000001").map fun handle ↦ (handle.state, handle.result)) =
          some (.running, none) ∧
      ¬ ∃ final, EndsDefinitely (fun _ ↦ "") (calm fun _ ↦ .raised "embedded null byte")
        sampleEngine "x-000001" final := by
  have hrunning : ((((run (fun _ ↦ "") (calm fun _ ↦ .raised "embedded null byte")
      "x-000001").after sampleEngine).handles.get? "x-000001").map
        fun handle ↦ (handle.state, handle.result)) = some (.running, none) := by
    decide +kernel
  refine ⟨by decide +kernel, hrunning, ?_⟩
  rintro ⟨final, hends⟩
  rw [hends.found] at hrunning
  have hterminal := hends.terminal
  rw [(Prod.mk.inj (Option.some.inj hrunning)).1] at hterminal
  cases hterminal

end AbsoluteZero.Execution

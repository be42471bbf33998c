import AbsoluteZero.Execution.Running

/-!
# Engines created one after another

An engine counts its ids from one, and the journals of the ids outlive it. As long as an execution
is cancelled or run only while the journal of its id has no record, each id has one outcome
(`lawful_restarts`); the second engine over a storage runs into the records of the first one.
-/

namespace AbsoluteZero.Execution

open Foundations Storage OrderedDict List

/-! ### Lineages -/

/-- The engine of the moment. `submissions` are the ids that were handed out, with their specs,
`owner` is the submission of an id that was the last one, `authors` has the submission of every
record, and `ended` the ids that were terminal when their engine went away. -/
structure Lineage where
  engine : Engine
  submissions : List (String × Spec)
  owner : OrderedDict String Nat
  authors : JournalBook Nat
  ended : List String

inductive EngineOperation
  | submit (spec : Json)
  | cancel (id : String)
  | run (environment : Environment) (id : String)
  | restart

/-- The environment with a storage that takes every record. -/
def Environment.durable (environment : Environment) : Environment :=
  { environment with recording := fun _ ↦ false, recordingOutcome := false }

namespace Lineage

/-- The first engine over an empty storage. -/
def start (bus : Option (List Json)) : Lineage :=
  ⟨Engine.new (some .empty) bus, [], .empty, .empty, []⟩

/-- The lineage with another engine, whose new records under an id are its last submission's. -/
def credited (lineage : Lineage) (id : String) (engine : Engine) : Lineage :=
  { lineage with
    engine := engine
    authors := lineage.authors.extend id (List.replicate
      ((engine.records id).length - (lineage.engine.records id).length)
      ((lineage.owner.get? id).getD 0)) }

def perform (digest : Bytes → String) (lineage : Lineage) : EngineOperation → Lineage
  | .submit spec =>
    if hcheck : checkSpec spec = .ok () then
      { lineage with
        engine := (submit spec).after lineage.engine
        submissions := lineage.submissions ++
          [(executionId lineage.engine.nextId, ⟨spec, hcheck⟩)]
        owner := lineage.owner.insert (executionId lineage.engine.nextId)
          lineage.submissions.length }
    else lineage
  | .cancel id => lineage.credited id ((cancel false id).after lineage.engine)
  | .run environment id =>
    lineage.credited id ((Execution.run digest environment.durable id).after lineage.engine)
  | .restart => { lineage with
      engine := Engine.new lineage.engine.storage lineage.engine.bus
      ended := lineage.ended ++
        (lineage.engine.handles.items.filter fun item ↦ item.2.state.terminal).map Prod.fst }

def run (digest : Bytes → String) (lineage : Lineage) (operations : List EngineOperation) :
    Lineage :=
  operations.foldl (perform digest) lineage

/-- The execution of an id is terminal, or was when its engine went away. -/
def Ended (lineage : Lineage) (id : String) : Prop :=
  (∃ handle, lineage.engine.handles.get? id = some handle ∧ handle.state.terminal) ∨
    id ∈ lineage.ended

/-- An id has one outcome: its records are numbered attempts within the budget and at most one
record of the outcome, which is there once the execution is terminal, and all were made for one
submission. -/
def Lawful (lineage : Lineage) (id : String) : Prop :=
  ∃ index spec, lineage.submissions[index]? = some (id, spec) ∧
    (∀ author ∈ lineage.authors.records id, author = index) ∧
    ∃ attempts terminals,
      lineage.engine.records id =
        (List.range' 1 attempts).map (attemptDoc id) ++ terminals ∧
      attempts ≤ spec.maxRetries + 1 ∧ (∀ doc ∈ terminals, IsTerminalDoc doc) ∧
      terminals.length ≤ 1 ∧ (lineage.Ended id → terminals.length = 1)

def Fresh (lineage : Lineage) : EngineOperation → Prop
  | .cancel id | .run _ id => ∀ handle, lineage.engine.handles.get? id = some handle →
      handle.state = .pending → lineage.engine.records id = []
  | .submit _ | .restart => True

def FreshRun (digest : Bytes → String) (lineage : Lineage) : List EngineOperation → Prop
  | [] => True
  | operation :: rest =>
    lineage.Fresh operation ∧ (lineage.perform digest operation).FreshRun digest rest

end Lineage

/-- What a call on a pending execution leaves: the handle with the same spec, and in its journal
attempts from one on and at most one outcome, which is there if the handle is terminal. -/
structure Worked (engine after : Engine) (id : String) (handle : ExecutionHandle) : Prop where
  handles : ∃ final, after.handles = engine.handles.insert id final ∧ final.spec = handle.spec ∧
    ∃ attempts terminals,
      after.storage = engine.storage.map (·.extend id
        ((List.range' 1 attempts).map (attemptDoc id) ++ terminals)) ∧
      attempts ≤ handle.spec.maxRetries + 1 ∧ (∀ doc ∈ terminals, IsTerminalDoc doc) ∧
      terminals.length ≤ 1 ∧ (final.state.terminal → terminals.length = 1)

section Calls

variable {engine : Engine} {id : String} {handle : ExecutionHandle}

theorem cancel_unchanged (fails : Bool)
    (hnot : ∀ handle, engine.handles.get? id = some handle → handle.state ≠ .pending) :
    (cancel fails id).after engine = engine := by
  unfold cancel
  rw [Call.after_get_bind]
  cases hhandle : engine.handles.get? id with
  | none => rfl
  | some handle =>
    simp only
    rw [if_pos (hnot handle hhandle)]
    rfl

theorem run_unchanged (digest : Bytes → String) (environment : Environment)
    (hnot : ∀ handle, engine.handles.get? id = some handle → handle.state ≠ .pending) :
    (run digest environment id).after engine = engine := by
  unfold run
  rw [Call.after_get_bind]
  cases hhandle : engine.handles.get? id with
  | none => rfl
  | some handle =>
    simp only
    rw [if_pos (hnot handle hhandle)]
    rfl

theorem worked_cancel (hhandle : engine.handles.get? id = some handle)
    (hpending : handle.state = .pending) :
    Worked engine ((cancel false id).after engine) id handle := by
  have hafter : (cancel false id).after engine = engine.extended id
      { handle with state := .cancelled, result := some ⟨.cancelled, none, none, none⟩ }
      [recordDoc id "terminal" [("outcome", .str ExecutionState.cancelled.text)]] [] := by
    obtain ⟨storage, bus, handles, nextId⟩ := engine
    unfold cancel
    rw [Call.after_get_bind]
    rw [hhandle]
    simp only
    rw [if_neg (not_not_intro hpending)]
    unfold Engine.extended
    cases storage <;> cases bus <;> simp <;> rfl
  rw [hafter]
  exact ⟨_, rfl, rfl, 0, [_], rfl, Nat.zero_le _, fun doc hdoc ↦ by
    rw [mem_singleton.mp hdoc]
    exact kind_recordDoc id "terminal" _, le_rfl, fun _ ↦ rfl⟩

/-- After the loop the record of the outcome is there when its append does not raise. -/
theorem storage_conclude (digest : Bytes → String) (environment : Environment)
    (hrecording : environment.recordingOutcome = false) (id : String) (handle : ExecutionHandle)
    (attempts : Nat) (outcome : Outcome) (engine : Engine) :
    ((conclude digest environment id handle attempts outcome).after engine).storage =
      engine.storage.map (·.extend id [outcomeDoc digest id outcome attempts]) := by
  obtain ⟨storage, bus, handles, nextId⟩ := engine
  unfold conclude
  rw [hrecording]
  cases storage with
  | none | some book =>
    cases bus with
    | none => rfl
    | some events => cases hpublishing : environment.publishingOutcome <;> rfl

theorem worked_run (digest : Bytes → String) (environment : Environment)
    (hhandle : engine.handles.get? id = some handle) (hpending : handle.state = .pending) :
    Worked engine ((run digest environment.durable id).after engine) id handle := by
  obtain ⟨started, hstarted⟩ : ∃ started : Engine, started = { engine with
    handles := engine.handles.insert id { handle with state := .running } } := ⟨_, rfl⟩
  obtain ⟨-, hafter⟩ := run_pending digest environment.durable hhandle hpending started hstarted
  obtain ⟨last, hfrom, hwithin, hearlier, hcases⟩ := runAttempts_cases environment.durable id
    { handle with state := .running } handle.spec.maxRetries 1 started
  rw [hafter]
  rcases hcases with ⟨-, error, hraises, hhandles, hstorage⟩ |
    ⟨-, outcome, hjudge, -, hreturns, hmade⟩
  · obtain ⟨-, hthen⟩ := Call.bind_of_raises (fun made ↦ conclude digest environment.durable id
      { handle with state := .running } made.1 made.2) hraises rfl
    rw [hthen]
    refine ⟨{ handle with state := .running, attempts := last }, ?_, rfl, last, [], ?_, by omega,
      nofun, Nat.zero_le 1, nofun⟩
    · rw [hhandles, hstarted, insert_insert]
    · rw [hstorage rfl, hstarted, Nat.add_sub_cancel, append_nil]
  · obtain ⟨-, hthen⟩ := Call.bind_of_returns (fun made ↦ conclude digest environment.durable id
      { handle with state := .running } made.1 made.2) hreturns hmade
    rw [hthen]
    refine ⟨ExecutionHandle.ended { handle with state := .running } last outcome, ?_, rfl, last,
      [outcomeDoc digest id outcome last], ?_, by omega, fun doc hdoc ↦ ?_, le_rfl, fun _ ↦ rfl⟩
    · rw [handles_conclude, hstarted]
      unfold Engine.extended
      simp only [insert_insert]
    · rw [storage_conclude digest environment.durable rfl, hstarted, Nat.add_sub_cancel]
      unfold Engine.extended
      simp only [Option.map_map]
      exact congrArg (fun change ↦ Option.map change engine.storage)
        (funext fun book ↦ (book.extend_append id _ _).symm)
    · rw [mem_singleton.mp hdoc]
      exact isTerminalDoc_outcomeDoc digest id outcome last

end Calls

/-! ### What a lineage keeps -/

namespace Lineage

/-- The records are where the engine keeps them, each has its submission, every handle is that of
the last submission of its id, and every id that was handed out has one outcome. -/
structure Sound (lineage : Lineage) : Prop where
  storage : lineage.engine.storage.isSome
  owned : ∀ id handle, lineage.engine.handles.get? id = some handle →
    ∃ index, lineage.owner.get? id = some index ∧
      lineage.submissions[index]? = some (id, handle.spec)
  counted : ∀ id, (lineage.authors.records id).length = (lineage.engine.records id).length
  unknown : ∀ id, id ∉ lineage.submissions.map Prod.fst →
    lineage.engine.records id = [] ∧ id ∉ lineage.ended
  lawful : ∀ id ∈ lineage.submissions.map Prod.fst, lineage.Lawful id

theorem sound_start (bus : Option (List Json)) : (start bus).Sound where
  storage := rfl
  owned := nofun
  counted := fun _ ↦ rfl
  unknown := fun _ _ ↦ ⟨rfl, not_mem_nil⟩
  lawful := nofun

section Steps

variable {lineage : Lineage}

theorem credited_self (id : String) : lineage.credited id lineage.engine = lineage := by
  unfold credited
  rw [Nat.sub_self]
  rfl

theorem records_of_worked {engine after : Engine} {docs : List Json} {id : String}
    (hstorage : engine.storage.isSome)
    (hafter : after.storage = engine.storage.map (·.extend id docs)) (other : String) :
    after.records other = engine.records other ++ if id = other then docs else [] := by
  obtain ⟨book, hbook⟩ := Option.isSome_iff_exists.mp hstorage
  rw [Engine.records, hafter, Engine.records, hbook]
  exact JournalBook.records_extend book id other docs

theorem Sound.credited (hsound : lineage.Sound) {after : Engine} {id : String}
    {handle : ExecutionHandle} (hhandle : lineage.engine.handles.get? id = some handle)
    (hfresh : lineage.engine.records id = []) (hworked : Worked lineage.engine after id handle) :
    (lineage.credited id after).Sound := by
  obtain ⟨final, hhandles, hspec, attempts, terminals, hstorage, hbudget, hterminals,
      hone, hended⟩ :=
    hworked.handles
  obtain ⟨docs, hdocs⟩ : ∃ docs, docs = (List.range' 1 attempts).map (attemptDoc id) ++ terminals :=
    ⟨_, rfl⟩
  rw [← hdocs] at hstorage
  have hrecords := records_of_worked hsound.storage hstorage
  obtain ⟨index, howner, hsubmission⟩ := hsound.owned id handle hhandle
  have hnew : after.records id = docs := by
    rw [hrecords, hfresh, if_pos rfl, nil_append]
  have hnone : lineage.authors.records id = [] := by
    rw [← length_eq_zero_iff, hsound.counted, hfresh, length_nil]
  have hauthors : ∀ other, (lineage.credited id after).authors.records other =
      lineage.authors.records other ++ if id = other then List.replicate docs.length index
        else [] := by
    intro other
    unfold Lineage.credited
    rw [hnew, hfresh, howner]
    exact JournalBook.records_extend _ id other _
  have hmember : id ∈ lineage.submissions.map Prod.fst :=
    mem_map_of_mem (mem_of_getElem? hsubmission)
  exact {
    storage := by
      show after.storage.isSome
      rw [hstorage, Option.isSome_map]
      exact hsound.storage
    owned := by
      intro other current hcurrent
      have hcurrent' : after.handles.get? other = some current := hcurrent
      rw [hhandles, get?_insert] at hcurrent'
      by_cases hid : id = other
      · subst hid
        rw [if_pos rfl] at hcurrent'
        rw [← Option.some.inj hcurrent', hspec]
        exact ⟨index, howner, hsubmission⟩
      · rw [if_neg hid] at hcurrent'
        exact hsound.owned other current hcurrent'
    counted := by
      intro other
      show _ = (after.records other).length
      rw [hauthors, hrecords, length_append, length_append, hsound.counted]
      by_cases hid : id = other
      · rw [if_pos hid, if_pos hid, length_replicate]
      · rw [if_neg hid, if_neg hid]
        rfl
    unknown := by
      intro other hother
      obtain ⟨hempty, hnot⟩ := hsound.unknown other hother
      refine ⟨?_, hnot⟩
      show after.records other = []
      have hid : id ≠ other := by
        rintro rfl
        exact hother hmember
      rw [hrecords, if_neg hid, hempty, nil_append]
    lawful := by
      intro other hother
      by_cases hid : id = other
      · subst hid
        refine ⟨index, handle.spec, hsubmission, fun author hauthor ↦ ?_, attempts, terminals,
          hnew.trans hdocs, hbudget, hterminals, hone, fun hends ↦ ?_⟩
        · rw [hauthors, hnone, if_pos rfl, nil_append] at hauthor
          exact eq_of_mem_replicate hauthor
        · rcases hends with ⟨current, hcurrent, hterminal⟩ | hearlier
          · have hcurrent' : after.handles.get? id = some current := hcurrent
            rw [hhandles, get?_insert_self] at hcurrent'
            rw [← Option.some.inj hcurrent'] at hterminal
            exact hended hterminal
          · -- An execution that ended in an earlier engine has its record already.
            obtain ⟨-, -, -, -, attempts', terminals', hrecords', -, -, -, hended'⟩ :=
              hsound.lawful id hmember
            have hlength := hended' (.inr hearlier)
            rw [hfresh] at hrecords'
            have hempty := (append_eq_nil_iff.mp hrecords'.symm).2
            rw [hempty] at hlength
            cases hlength
      · obtain ⟨index', spec, hsubmission', hauthors', attempts', terminals', hrecords', hrest⟩ :=
          hsound.lawful other hother
        obtain ⟨hbudget', hterminals', hone', hended'⟩ := hrest
        refine ⟨index', spec, hsubmission', fun author hauthor ↦ ?_, attempts', terminals', ?_,
          hbudget', hterminals', hone', fun hends ↦ ?_⟩
        · rw [hauthors, if_neg hid, append_nil] at hauthor
          exact hauthors' author hauthor
        · show after.records other = _
          rw [hrecords, if_neg hid, append_nil, hrecords']
        · refine hended' ?_
          rcases hends with ⟨current, hcurrent, hterminal⟩ | hearlier
          · have hcurrent' : after.handles.get? other = some current := hcurrent
            rw [hhandles, get?_insert, if_neg hid] at hcurrent'
            exact .inl ⟨current, hcurrent', hterminal⟩
          · exact .inr hearlier }

theorem after_submit {engine : Engine} {spec : Json} (hcheck : checkSpec spec = .ok ()) :
    (submit spec).after engine = { engine with
      handles := engine.handles.insert (executionId engine.nextId)
        ⟨⟨spec, hcheck⟩, .pending, 0, none⟩
      nextId := engine.nextId + 1 } := by
  unfold submit
  split
  · next error herror =>
    rw [hcheck] at herror
    cases herror
  · rfl

section

variable (hsound : lineage.Sound)

include hsound

theorem Sound.submit (digest : Bytes → String) (spec : Json) :
    (lineage.perform digest (.submit spec)).Sound := by
  unfold perform
  by_cases hcheck : checkSpec spec = .ok ()
  · simp only [hcheck, dite_true]
    rw [after_submit hcheck]
    obtain ⟨id, hid⟩ : ∃ id, id = executionId lineage.engine.nextId := ⟨_, rfl⟩
    rw [← hid]
    have hkeeps : ∀ {index : Nat} {entry : String × Spec},
        lineage.submissions[index]? = some entry →
          (lineage.submissions ++ [(id, (⟨spec, hcheck⟩ : Spec))])[index]? = some entry := by
      intro index entry hentry
      rw [getElem?_append_left (List.getElem?_eq_some_iff.mp hentry).1, hentry]
    have hmembers : ∀ other, other ∈ (lineage.submissions ++
        [(id, (⟨spec, hcheck⟩ : Spec))]).map Prod.fst ↔
          other ∈ lineage.submissions.map Prod.fst ∨ other = id := by
      intro other
      rw [map_append, mem_append, map_singleton, mem_singleton]
    exact {
      storage := hsound.storage
      owned := by
        intro other current hcurrent
        rw [get?_insert] at hcurrent
        by_cases hother : id = other
        · subst hother
          rw [if_pos rfl] at hcurrent
          refine ⟨lineage.submissions.length, get?_insert_self _ _ _, ?_⟩
          rw [getElem?_concat_length, ← Option.some.inj hcurrent]
        · rw [if_neg hother] at hcurrent
          obtain ⟨index, howner, hsubmission⟩ := hsound.owned other current hcurrent
          refine ⟨index, ?_, hkeeps hsubmission⟩
          rw [get?_insert, if_neg hother, howner]
      counted := hsound.counted
      unknown := by
        intro other hother
        exact hsound.unknown other fun hmem ↦ hother ((hmembers other).mpr (.inl hmem))
      lawful := by
        intro other hother
        by_cases hknown : other ∈ lineage.submissions.map Prod.fst
        · obtain ⟨index, spec', hsubmission, hauthors, attempts, terminals, hrecords, hbudget,
            hterminals, hone, hended⟩ := hsound.lawful other hknown
          refine ⟨index, spec', hkeeps hsubmission, hauthors, attempts, terminals, hrecords,
            hbudget, hterminals, hone, fun hends ↦ hended ?_⟩
          rcases hends with ⟨current, hcurrent, hterminal⟩ | hearlier
          · rw [get?_insert] at hcurrent
            by_cases hsame : id = other
            · rw [if_pos hsame] at hcurrent
              rw [← Option.some.inj hcurrent] at hterminal
              cases hterminal
            · rw [if_neg hsame] at hcurrent
              exact .inl ⟨current, hcurrent, hterminal⟩
          · exact .inr hearlier
        · obtain ⟨hempty, hnot⟩ := hsound.unknown other hknown
          obtain rfl := ((hmembers other).mp hother).resolve_left hknown
          have hnone : lineage.authors.records other = [] := by
            rw [← length_eq_zero_iff, hsound.counted, hempty, length_nil]
          refine ⟨lineage.submissions.length, ⟨spec, hcheck⟩, getElem?_concat_length,
            fun author hauthor ↦ ?_, 0, [], hempty, Nat.zero_le _, nofun, Nat.zero_le 1,
            fun hends ↦ ?_⟩
          · have hauthor' : author ∈ lineage.authors.records other := hauthor
            rw [hnone] at hauthor'
            cases hauthor'
          · rcases hends with ⟨current, hcurrent, hterminal⟩ | hearlier
            · rw [get?_insert_self] at hcurrent
              rw [← Option.some.inj hcurrent] at hterminal
              cases hterminal
            · exact absurd hearlier hnot }
  · simp only [hcheck, dite_false]
    exact hsound

theorem Sound.restart (digest : Bytes → String) :
    (lineage.perform digest .restart).Sound := by
  have hended : ∀ id, (lineage.perform digest .restart).Ended id → lineage.Ended id := by
    rintro id (⟨current, hcurrent, -⟩ | hmem)
    · cases hcurrent
    · rcases mem_append.mp hmem with hearlier | hnow
      · exact .inr hearlier
      · obtain ⟨⟨name, handle⟩, hitem, rfl⟩ := mem_map.mp hnow
        obtain ⟨hin, hterminal⟩ := mem_filter.mp hitem
        exact .inl ⟨handle, (get?_eq_some_iff _).mpr hin, hterminal⟩
  exact {
    storage := hsound.storage
    owned := nofun
    counted := hsound.counted
    unknown := by
      intro id hid
      obtain ⟨hempty, hnot⟩ := hsound.unknown id hid
      refine ⟨hempty, fun hmem ↦ ?_⟩
      rcases hended id (.inr hmem) with ⟨handle, hhandle, -⟩ | hearlier
      · obtain ⟨index, -, hsubmission⟩ := hsound.owned id handle hhandle
        exact hid (mem_map_of_mem (mem_of_getElem? hsubmission))
      · exact hnot hearlier
    lawful := by
      intro id hid
      obtain ⟨index, spec, hsubmission, hauthors, attempts, terminals, hrecords, hbudget,
        hterminals, hone, hends⟩ := hsound.lawful id hid
      exact ⟨index, spec, hsubmission, hauthors, attempts, terminals, hrecords, hbudget, hterminals,
        hone, fun hnow ↦ hends (hended id hnow)⟩ }

theorem Sound.perform (digest : Bytes → String)
    {operation : EngineOperation} (hfresh : lineage.Fresh operation) :
    (lineage.perform digest operation).Sound := by
  cases operation with
  | submit spec => exact hsound.submit digest spec
  | restart => exact hsound.restart digest
  | cancel id =>
    show (lineage.credited id ((cancel false id).after lineage.engine)).Sound
    by_cases hpending : ∃ handle, lineage.engine.handles.get? id = some handle ∧
        handle.state = .pending
    · obtain ⟨handle, hhandle, hstate⟩ := hpending
      exact hsound.credited hhandle (hfresh handle hhandle hstate) (worked_cancel hhandle hstate)
    · rw [cancel_unchanged false fun handle hhandle hstate ↦ hpending ⟨handle, hhandle, hstate⟩,
        credited_self]
      exact hsound
  | run environment id =>
    show (lineage.credited id
      ((Execution.run digest environment.durable id).after lineage.engine)).Sound
    by_cases hpending : ∃ handle, lineage.engine.handles.get? id = some handle ∧
        handle.state = .pending
    · obtain ⟨handle, hhandle, hstate⟩ := hpending
      exact hsound.credited hhandle (hfresh handle hhandle hstate)
        (worked_run digest environment hhandle hstate)
    · rw [run_unchanged digest environment.durable fun handle hhandle hstate ↦
        hpending ⟨handle, hhandle, hstate⟩, credited_self]
      exact hsound

theorem Sound.run (digest : Bytes → String)
    {operations : List EngineOperation} (hfresh : lineage.FreshRun digest operations) :
    (lineage.run digest operations).Sound := by
  induction operations generalizing lineage with
  | nil => exact hsound
  | cons operation rest ih => exact ih (hsound.perform digest hfresh.1) hfresh.2

end

end Steps

/-- Assumes: an execution that is pending has no record when it is cancelled or run. After every run
over an empty storage, each id that was handed out has one outcome. -/
theorem lawful_restarts (digest : Bytes → String) (bus : Option (List Json))
    {operations : List EngineOperation} (hfresh : (start bus).FreshRun digest operations)
    {id : String} (hid : id ∈ ((start bus).run digest operations).submissions.map Prod.fst) :
    ((start bus).run digest operations).Lawful id :=
  ((sound_start bus).run digest hfresh).lawful id hid

/-- An engine runs an execution, and the next one has another one under the next id. -/
def sampleOperations : List EngineOperation :=
  [.submit sampleSpec.1, .run (calm fun _ ↦ .returned 0 [] []) "x-000001", .restart,
    .submit sampleSpec.1, .submit sampleSpec.1, .cancel "x-000002"]

theorem lawful_restarts_sample :
    ((start none).run (fun _ ↦ "") sampleOperations).Lawful "x-000002" :=
  lawful_restarts (fun _ ↦ "") none (by
    refine ⟨trivial, fun handle _ _ ↦ ?_, trivial, trivial, trivial, fun handle _ _ ↦ ?_, trivial⟩
    · decide +kernel
    · decide +kernel) (by decide +kernel)

/-- Two engines over one storage each submit an execution and cancel it. Both have the id
`x-000001`, whose journal has two records of an outcome. -/
theorem second_engine_reuses :
    let lineage := (start none).run (fun _ ↦ "")
      [.submit sampleSpec.1, .cancel "x-000001", .restart, .submit sampleSpec.1, .cancel "x-000001"]
    lineage.engine.records "x-000001" =
        [recordDoc "x-000001" "terminal" [("outcome", .str "cancelled")],
          recordDoc "x-000001" "terminal" [("outcome", .str "cancelled")]] ∧
      lineage.authors.records "x-000001" = [0, 1] ∧ ¬ lineage.Lawful "x-000001" := by
  refine ⟨by decide +kernel, by decide +kernel, ?_⟩
  rintro ⟨index, spec, -, hauthors, -⟩
  have hfirst := hauthors 0 mem_cons_self
  have hsecond := hauthors 1 (mem_cons_of_mem _ mem_cons_self)
  omega

end Lineage

end AbsoluteZero.Execution

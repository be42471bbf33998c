import AbsoluteZero.Foundations.Chain
import AbsoluteZero.Foundations.PythonEquality
import AbsoluteZero.Reasoning.Invocation
import AbsoluteZero.Reasoning.Preparation

/-!
# What every run of attempts keeps

Over well-formed returns the governor ends within the attempt ceiling and the budget, every record
has the hashes of all earlier ones and what is left of the budget, and every record but the last is
one that the policy retries (`runAttempts_governed`, by the invariant `Ongoing` of the states
between turns).
-/

namespace AbsoluteZero.Reasoning

open Foundations JsonText List

/-- A mapping that `json.dumps` accepts. -/
def DatumDict.Jsonable (dict : DatumDict) : Prop := ∀ item ∈ dict.items, item.2 ≠ .foreign

/-- An amount that can be charged. -/
def IsAmount (consumed : Json) : Prop := ∃ amount : Int, consumed = .int amount ∧ 0 ≤ amount

/-- A return with an amount, a known class or origin, an output that `json.loads` has the stack for,
and values that `json.dumps` accepts. -/
def BoundaryReturn.WellFormed (platform : Platform) : BoundaryReturn → Prop
  | .returned consumed output timing => IsAmount consumed ∧
      (output ≠ .foreign ∧ ∀ text, output.text = .ok text → platform.overflows text = false) ∧
        timing.Jsonable
  | .failed consumed failureClass timing metadata => IsAmount consumed ∧
      (∃ known, readReportedClass failureClass = .ok known) ∧ timing.Jsonable ∧ metadata.Jsonable
  | .expired consumed partialOutput timing =>
      IsAmount consumed ∧ partialOutput ≠ .foreign ∧ timing.Jsonable
  | .cancelled consumed origin partialOutput timing => IsAmount consumed ∧
      (∃ known, readOrigin origin = .ok known) ∧ partialOutput ≠ .foreign ∧ timing.Jsonable

theorem jsonable_empty : DatumDict.Jsonable .empty := fun _ hitem ↦ by cases hitem

theorem jsonable_insert {dict : DatumDict} {key : String} {datum : Datum} (hdict : dict.Jsonable)
    (hdatum : datum ≠ .foreign) : DatumDict.Jsonable (dict.insert key datum) := by
  intro item hitem
  have hget := (OrderedDict.get?_eq_some_iff (dict.insert key datum)).mpr
    (show (item.1, item.2) ∈ (dict.insert key datum).items from hitem)
  rw [OrderedDict.get?_insert] at hget
  split at hget
  · cases hget
    exact hdatum
  · exact hdict _ ((OrderedDict.get?_eq_some_iff dict).mp hget)

variable {output : Output}

theorem toDatum_ne_foreign (houtput : output ≠ .foreign) : output.toDatum ≠ .foreign := by
  cases output with
  | foreign => exact absurd rfl houtput
  | json value | bytes text | undecodable repr =>
    intro hforeign
    cases hforeign

theorem jsonable_withRace {signalIds : List String} {resolution : String} {metadata : DatumDict}
    (hmetadata : metadata.Jsonable) : (withRace signalIds resolution metadata).Jsonable := by
  unfold withRace
  split
  · exact hmetadata
  · exact jsonable_insert hmetadata (by simp [race])

theorem jsonable_partialMetadata (houtput : output ≠ .foreign) :
    (partialMetadata output).Jsonable := by
  unfold partialMetadata
  split
  · exact jsonable_empty
  · exact jsonable_insert jsonable_empty (toDatum_ne_foreign houtput)

theorem exists_toJson {dict : DatumDict} (hdict : dict.Jsonable) :
    ∃ fields, dict.toJson = .ok (.obj fields) ∧
      dict.items = fields.map fun field ↦ (field.1, .json field.2) := by
  have hitems : ∀ items : List (String × Datum), (∀ item ∈ items, item.2 ≠ .foreign) →
      ∃ fields : List (String × Json),
        items.mapM (fun item ↦ (item.2.toJson).map fun value ↦ (item.1, value)) = .ok fields ∧
          items = fields.map fun field ↦ (field.1, .json field.2) := by
    intro items hjsonable
    induction items with
    | nil => exact ⟨[], rfl, rfl⟩
    | cons item rest ih =>
      obtain ⟨key, datum⟩ := item
      obtain ⟨fields, hfields, hrest⟩ := ih fun other hother ↦
        hjsonable other (mem_cons_of_mem _ hother)
      cases datum with
      | foreign => exact absurd rfl (hjsonable _ mem_cons_self)
      | json value =>
        refine ⟨(key, value) :: fields, ?_, by rw [map_cons, ← hrest]⟩
        rw [mapM_cons, hfields]
        rfl
  obtain ⟨fields, hfields, hsplit⟩ := hitems dict.items hdict
  refine ⟨fields, ?_, hsplit⟩
  unfold DatumDict.toJson
  rw [hfields]
  rfl

/-! ### Judging -/

/-- What a charge is against a budget of which some is consumed. -/
structure Charge.Fair (ceiling total : Int) (charge : Charge) : Prop where
  actual_nonneg : 0 ≤ charge.actual
  total_eq : charge.total = total + charge.actual
  total_le : charge.total ≤ ceiling

/-- An amount is charged as far as the budget goes. -/
theorem applyConsumption_spec {ceiling total : Int} {consumed : Json} (hamount : IsAmount consumed)
    (htotal : total ≤ ceiling) :
    ∃ charge, applyConsumption ceiling total consumed = .ok charge ∧ charge.Fair ceiling total := by
  obtain ⟨amount, rfl, hnonneg⟩ := hamount
  unfold applyConsumption
  simp only [if_neg (Int.not_lt.mpr hnonneg)]
  split
  · next hover =>
    refine ⟨_, rfl, ?_, ?_, ?_⟩ <;> simp only <;> omega
  · next hwithin =>
    exact ⟨_, rfl, hnonneg, rfl, Int.not_lt.mp hwithin⟩

/-- What a verdict guarantees when some of the budget was consumed before it. -/
structure Verdict.Fair (request : ReasoningRequest) (total : Int) (verdict : Verdict) : Prop where
  charge : verdict.charge.Fair request.budget.ceiling total
  combination : ∀ platform resolution records refs,
    (outcomeFields platform request resolution records refs verdict).combination? = none
  timing : verdict.timing.Jsonable
  metadata : verdict.metadata.Jsonable
  retry : ∀ failureClass, verdict.retryClass = some failureClass →
    verdict.failureClass = some failureClass

/-- The return carries an output that conforms, with these fields. -/
def BoundaryReturn.Conforms (platform : Platform) (request : ReasoningRequest)
    (fields : List (String × Json)) : BoundaryReturn → Prop
  | .returned _ output _ => ∃ text, output.text = .ok text ∧
      loads platform.reader text = some (.obj fields) ∧
      ∀ field ∈ request.requiredFields, (OrderedDict.find field fields).isSome = true
  | _ => False

variable {platform : Platform} {request : ReasoningRequest} {resolution : ProviderResolution}
  {policy : ExecutionPolicyView} {signalIds : List String} {total : Int}

/-- With the stack for it an output is parsed, and it conforms if the parser says so. -/
theorem parseF8_spec (hstack : ∀ text, output.text = .ok text → platform.overflows text = false)
    (consumed : Json) (timing : DatumDict) :
    ∃ conformance, parseF8 platform request output = .ok conformance ∧
      ∀ fields, conformance = .conforms fields →
        (BoundaryReturn.returned consumed output timing).Conforms platform request fields := by
  unfold parseF8
  cases htext : output.text with
  | error reason => exact ⟨_, rfl, fun _ hconforms ↦ by cases hconforms⟩
  | ok text =>
    simp only [hstack text htext, Bool.false_eq_true, if_false]
    split
    · exact ⟨_, rfl, fun _ hconforms ↦ by cases hconforms⟩
    · next read hread =>
      split
      · next hmissing =>
        refine ⟨_, rfl, fun fields hconforms ↦ ?_⟩
        cases hconforms
        refine ⟨text, htext, hread, fun field hfield ↦ ?_⟩
        rw [Option.isSome_iff_ne_none]
        intro hnone
        exact (filter_eq_nil_iff.mp hmissing field hfield) (by rw [hnone]; rfl)
      · exact ⟨_, rfl, fun _ hconforms ↦ by cases hconforms⟩
    · exact ⟨_, rfl, fun _ hconforms ↦ by cases hconforms⟩

theorem fair_overdraftVerdict {charge : Charge} (hcharge : charge.Fair request.budget.ceiling total)
    (reported : Option FailureClass) : (overdraftVerdict charge reported).Fair request total where
  charge := hcharge
  combination _ _ _ _ := rfl
  timing := jsonable_empty
  metadata := by
    have hreason : DatumDict.Jsonable
        (OrderedDict.empty.insert "reason" (.json (.str "boundary_overdraft"))) :=
      jsonable_insert jsonable_empty (by simp)
    cases reported with
    | none => exact hreason
    | some failureClass => exact jsonable_insert hreason (by simp)
  retry _ hretry := by cases hretry

theorem fair_returnedVerdict {charge : Charge} (hcharge : charge.Fair request.budget.ceiling total)
    {timing : DatumDict} (houtput : output ≠ .foreign) (htiming : timing.Jsonable)
    (conformance : Conformance) :
    (returnedVerdict signalIds charge output timing conformance).Fair request total := by
  cases conformance
  · constructor
    · exact hcharge
    · intros
      rfl
    · exact htiming
    · exact jsonable_withRace jsonable_empty
    · intro failureClass hretry
      cases hretry
  · constructor
    · exact hcharge
    · intros
      rfl
    · exact htiming
    · exact jsonable_withRace (jsonable_insert (jsonable_insert jsonable_empty (by simp))
        (toDatum_ne_foreign houtput))
    · exact fun failureClass hretry ↦ hretry

theorem readReportedClass_ne_f7 {failureClass : Json} {known : FailureClass}
    (hread : readReportedClass failureClass = .ok known) : known ≠ .f7 := by
  unfold readReportedClass at hread
  split at hread
  · split at hread
    · cases hread
    · cases hread
    · next hne hread' =>
      cases hread
      rintro rfl
      exact hne rfl
  · cases hread

/-- A well-formed return has a fair verdict; a verdict of a returned output says what conforms. -/
theorem judge_spec {entry : BoundaryReturn} (hentry : entry.WellFormed platform)
    (htotal : total ≤ request.budget.ceiling) :
    ∃ verdict, judge platform request signalIds total entry = .ok verdict ∧
      verdict.Fair request total ∧ (verdict.recoveryKind = .returned →
        ∃ fields, entry.Conforms platform request fields ∧ verdict.output = .obj fields) := by
  cases entry with
  | returned consumed output timing =>
    obtain ⟨hamount, ⟨houtput, hstack⟩, htiming⟩ := hentry
    obtain ⟨charge, hok, hfair⟩ := applyConsumption_spec hamount htotal
    obtain ⟨conformance, hparse, hconforms⟩ := @parseF8_spec output platform request hstack consumed
      timing
    simp only [judge, hok, hparse, bind, Except.bind, Except.map]
    split
    · exact ⟨_, rfl, fair_overdraftVerdict hfair none, nofun⟩
    · refine ⟨_, rfl, fair_returnedVerdict hfair houtput htiming conformance, fun hkind ↦ ?_⟩
      cases conformance with
      | conforms fields => exact ⟨fields, hconforms fields rfl, rfl⟩
      | fails reason => cases hkind
  | failed consumed failureClass timing metadata =>
    obtain ⟨hamount, ⟨known, hknown⟩, htiming, hmetadata⟩ := hentry
    obtain ⟨charge, hok, hfair⟩ := applyConsumption_spec hamount htotal
    rw [judge, hknown]
    refine ⟨_, by rw [hok]; rfl, ?_⟩
    split
    · exact ⟨fair_overdraftVerdict hfair (some known), nofun⟩
    · refine ⟨⟨hfair, fun _ _ _ _ ↦ ?_, htiming, hmetadata, fun _ hretry ↦ hretry⟩,
        nofun⟩
      have hne := readReportedClass_ne_f7 hknown
      simp [OutcomeFields.combination?, outcomeFields, hne]
  | expired consumed partialOutput timing =>
    obtain ⟨hamount, hpartial, htiming⟩ := hentry
    obtain ⟨charge, hok, hfair⟩ := applyConsumption_spec hamount htotal
    rw [judge, hok]
    refine ⟨_, rfl, ?_⟩
    split
    · exact ⟨fair_overdraftVerdict hfair none, nofun⟩
    · exact ⟨⟨hfair, fun _ _ _ _ ↦ rfl, htiming, jsonable_partialMetadata hpartial,
        fun _ hretry ↦ hretry⟩, nofun⟩
  | cancelled consumed origin partialOutput timing =>
    obtain ⟨hamount, ⟨known, hknown⟩, hpartial, htiming⟩ := hentry
    obtain ⟨charge, hok, hfair⟩ := applyConsumption_spec hamount htotal
    rw [judge, hknown]
    refine ⟨_, by rw [hok]; rfl, ?_⟩
    exact ⟨⟨hfair, fun _ _ _ _ ↦ rfl, htiming,
      jsonable_withRace (jsonable_partialMetadata hpartial), fun _ hretry ↦ by cases hretry⟩,
      nofun⟩

/-- The record can be hashed. -/
def SealedOutcomeRecord.Jsonable (record : SealedOutcomeRecord) : Prop :=
  record.timing.Jsonable ∧ record.metadata.Jsonable

variable {record : SealedOutcomeRecord}

theorem exists_toDict (hrecord : record.Jsonable) : ∃ value, record.toDict = .ok value := by
  obtain ⟨timing, htiming, -⟩ := exists_toJson hrecord.1
  obtain ⟨metadata, hmetadata, -⟩ := exists_toJson hrecord.2
  unfold SealedOutcomeRecord.toDict
  rw [htiming, hmetadata]
  exact ⟨_, rfl⟩

theorem exists_contentHash (hrecord : record.Jsonable) :
    ∃ hash, record.contentHash platform = .ok hash := by
  obtain ⟨value, hvalue⟩ := exists_toDict hrecord
  unfold SealedOutcomeRecord.contentHash
  rw [hvalue]
  exact ⟨_, rfl⟩

theorem exists_contentHashes {records : List SealedOutcomeRecord}
    (hrecords : ∀ record ∈ records, record.Jsonable) :
    ∃ refs, records.mapM (SealedOutcomeRecord.contentHash platform) = .ok refs := by
  induction records with
  | nil => exact ⟨[], rfl⟩
  | cons record rest ih =>
    obtain ⟨hash, hhash⟩ := exists_contentHash (hrecords record mem_cons_self)
    obtain ⟨refs, hrefs⟩ := ih fun other hother ↦ hrecords other (mem_cons_of_mem _ hother)
    rw [mapM_cons, hhash, hrefs]
    exact ⟨hash :: refs, rfl⟩

theorem sealRecord_spec {records : List SealedOutcomeRecord} {verdict : Verdict}
    (hrecords : ∀ record ∈ records, record.Jsonable) (hverdict : verdict.Fair request total) :
    ∃ record refs, sealRecord platform request resolution records verdict = .ok record ∧
      records.mapM (SealedOutcomeRecord.contentHash platform) = .ok refs ∧
      record.toOutcomeFields = outcomeFields platform request resolution records refs verdict := by
  obtain ⟨refs, hrefs⟩ := @exists_contentHashes platform _ hrecords
  have hlegal : (outcomeFields platform request resolution records refs verdict).complaint? =
      none := by
    have hindex : ¬ (records.length : Int) + 1 < 1 := by omega
    have hconsumed := Int.not_lt.mpr hverdict.charge.actual_nonneg
    have hremaining : ¬ request.budget.ceiling - verdict.charge.total < 0 := by
      have := hverdict.charge.total_le
      omega
    unfold OutcomeFields.complaint?
    rw [hverdict.combination platform resolution records refs]
    exact (if_neg hindex).trans ((if_neg hconsumed).trans (if_neg hremaining))
  refine ⟨⟨_, hlegal⟩, refs, ?_, hrefs, rfl⟩
  unfold sealRecord
  rw [hrefs]
  change (buildSealedOutcome _).mapError RunError.outcome = _
  rw [buildSealedOutcome_of_legal hlegal]
  rfl

/-- How a record accounts for those before it: its number, their hashes, and the rest of the
budget. -/
structure Accounts (platform : Platform) (ceiling : Int) (before : List SealedOutcomeRecord)
    (record : SealedOutcomeRecord) : Prop where
  index : record.attemptIndex = before.length + 1
  history : before.mapM (SealedOutcomeRecord.contentHash platform) = .ok record.attemptHistoryRefs
  remaining : record.budgetRemaining =
    ceiling - ((before ++ [record]).map fun sealed ↦ sealed.budgetConsumed).sum

def Retried (policy : ExecutionPolicyView) (record : SealedOutcomeRecord) : Prop :=
  ∃ failureClass ∈ policy.retryableClasses, record.failureClass = some failureClass

theorem recoveryKind_of_retried (hretried : Retried policy record) :
    record.recoveryKind ≠ .returned ∧ record.recoveryKind ≠ .cancelled := by
  obtain ⟨failureClass, -, hclass⟩ := hretried
  have hlegal := record.legal
  unfold OutcomeFields.complaint? at hlegal
  split at hlegal
  · cases hlegal
  · split at hlegal
    · cases hlegal
    · split at hlegal
      · cases hlegal
      · constructor <;> intro hkind <;>
          simp [OutcomeFields.combination?, hkind, hclass] at hlegal

/-- The loop between two turns, after the returns that it took. -/
structure Ongoing (platform : Platform) (request : ReasoningRequest)
    (policy : ExecutionPolicyView) (taken : List BoundaryReturn) (state : LoopState) : Prop where
  chained : Chained (Accounts platform request.budget.ceiling) [] state.records
  consumed : (state.records.map fun sealed ↦ sealed.budgetConsumed).sum = state.total
  within : state.total < request.budget.ceiling
  count : state.records.length = taken.length
  attempts : state.attemptIndex ≤ policy.attemptCeiling
  retried : ∀ record ∈ state.records, Retried policy record
  jsonable : ∀ record ∈ state.records, record.Jsonable

/-- What holds of the returns that a finished run took, and of its records. -/
structure Governed (platform : Platform) (request : ReasoningRequest)
    (policy : ExecutionPolicyView) (taken : List BoundaryReturn)
    (records : List SealedOutcomeRecord) : Prop where
  crossings : 1 ≤ taken.length ∧ (taken.length : Int) ≤ policy.attemptCeiling
  sealed : ∃ crossed, crossed.length = taken.length ∧ (records = crossed ∨ ∃ last,
    records = crossed ++ [last] ∧ last.recoveryKind = .failed ∧ last.failureClass = some .f3 ∧
      last.budgetConsumed = 0)
  chained : Chained (Accounts platform request.budget.ceiling) [] records
  within : (records.map fun sealed ↦ sealed.budgetConsumed).sum ≤ request.budget.ceiling
  retried : ∀ before record after, records = before ++ record :: after → after ≠ [] →
    Retried policy record ∧ record.recoveryKind ≠ .returned ∧ record.recoveryKind ≠ .cancelled
  returned : ∀ record ∈ records, record.recoveryKind = .returned →
    ∃ entry fields, taken.getLast? = some entry ∧ entry.Conforms platform request fields ∧
      record.output = .obj fields

/-! ### Steps and runs -/

theorem sum_consumed_concat (records : List SealedOutcomeRecord) (record : SealedOutcomeRecord) :
    ((records ++ [record]).map fun sealed ↦ sealed.budgetConsumed).sum =
      (records.map fun sealed ↦ sealed.budgetConsumed).sum + record.budgetConsumed := by
  rw [map_append, sum_append, map_singleton, sum_singleton]

theorem chained_of_sealed {records : List SealedOutcomeRecord}
    {refs : List String} {verdict : Verdict}
    (hrecords : Chained (Accounts platform request.budget.ceiling) [] records)
    (hconsumed : (records.map fun sealed ↦ sealed.budgetConsumed).sum = total)
    (hverdict : verdict.Fair request total)
    (hrefs : records.mapM (SealedOutcomeRecord.contentHash platform) = .ok refs)
    (hfields : record.toOutcomeFields =
      outcomeFields platform request resolution records refs verdict) :
    Chained (Accounts platform request.budget.ceiling) [] (records ++ [record]) ∧
      ((records ++ [record]).map fun sealed ↦ sealed.budgetConsumed).sum =
        verdict.charge.total := by
  have hsum : ((records ++ [record]).map fun sealed ↦ sealed.budgetConsumed).sum =
      verdict.charge.total := by
    rw [sum_consumed_concat, hconsumed, hverdict.charge.total_eq, hfields]
    rfl
  refine ⟨chained_concat.mpr ⟨hrecords, ?_⟩, hsum⟩
  constructor
  · rw [hfields]
    rfl
  · rw [hfields]
    exact hrefs
  · rw [nil_append, hsum, hfields]
    rfl

theorem fair_exhaustionVerdict (htotal : total = request.budget.ceiling) :
    (exhaustionVerdict request.budget.ceiling).Fair request total where
  charge := ⟨Int.le_refl 0, by rw [htotal]; exact (Int.add_zero _).symm, Int.le_refl _⟩
  combination _ _ _ _ := rfl
  timing := jsonable_empty
  metadata := jsonable_insert jsonable_empty (by simp)
  retry _ hretry := by cases hretry

/-- A record behind which another one stands is one of those before the last. -/
theorem mem_init_of_split {records : List SealedOutcomeRecord} {last : SealedOutcomeRecord}
    {before after : List SealedOutcomeRecord}
    (hsplit : records ++ [last] = before ++ record :: after) (hafter : after ≠ []) :
    record ∈ records := by
  rcases eq_nil_or_concat after with rfl | ⟨init, final, rfl⟩
  · exact absurd rfl hafter
  · rw [concat_eq_append, ← cons_append, ← append_assoc] at hsplit
    rw [(append_inj' hsplit rfl).1]
    exact mem_append_right _ mem_cons_self

theorem governed_of_stop {taken : List BoundaryReturn} {state : LoopState} {entry : BoundaryReturn}
    {verdict : Verdict} (hstate : Ongoing platform request policy taken state)
    (hchained : Chained (Accounts platform request.budget.ceiling) [] (state.records ++ [record]))
    (hsum : ((state.records ++ [record]).map fun sealed ↦ sealed.budgetConsumed).sum ≤
      request.budget.ceiling)
    (hkind : record.recoveryKind = verdict.recoveryKind) (houtput : record.output = verdict.output)
    (hreturned : verdict.recoveryKind = .returned →
      ∃ fields, entry.Conforms platform request fields ∧ verdict.output = .obj fields) :
    Governed platform request policy (taken ++ [entry]) (state.records ++ [record]) where
  crossings := by
    have hattempts := hstate.attempts
    rw [LoopState.attemptIndex, hstate.count] at hattempts
    rw [length_append, length_singleton]
    omega
  sealed := ⟨_, by rw [length_append, length_append, hstate.count]; rfl, .inl rfl⟩
  chained := hchained
  within := hsum
  retried := by
    intro before sealed after hsplit hafter
    have hmem := mem_init_of_split hsplit hafter
    exact ⟨hstate.retried sealed hmem, recoveryKind_of_retried (hstate.retried sealed hmem)⟩
  returned := by
    intro sealed hsealed hkind'
    rcases mem_append.mp hsealed with hmem | hlast
    · exact absurd hkind' (recoveryKind_of_retried (hstate.retried sealed hmem)).1
    · rw [mem_singleton.mp hlast] at hkind' ⊢
      obtain ⟨fields, hconforms, hfields⟩ := hreturned (hkind.symm.trans hkind')
      exact ⟨entry, fields, getLast?_concat, hconforms, houtput.trans hfields⟩

/-- The records of a turn that finds the budget gone are governed. -/
theorem governed_of_exhaustion {taken : List BoundaryReturn} {state : LoopState}
    {entry : BoundaryReturn} {record last : SealedOutcomeRecord}
    (hstate : Ongoing platform request policy taken state) (hretried : Retried policy record)
    (hchained : Chained (Accounts platform request.budget.ceiling) []
      (state.records ++ [record] ++ [last]))
    (hsum : ((state.records ++ [record] ++ [last]).map fun sealed ↦ sealed.budgetConsumed).sum ≤
      request.budget.ceiling)
    (hkind : last.recoveryKind = .failed) (hclass : last.failureClass = some .f3)
    (hconsumed : last.budgetConsumed = 0) :
    Governed platform request policy (taken ++ [entry]) (state.records ++ [record] ++ [last]) where
  crossings := by
    have hattempts := hstate.attempts
    rw [LoopState.attemptIndex, hstate.count] at hattempts
    rw [length_append, length_singleton]
    omega
  sealed := ⟨state.records ++ [record],
    by rw [length_append, length_append, hstate.count]; rfl,
    .inr ⟨last, rfl, hkind, hclass, hconsumed⟩⟩
  chained := hchained
  within := hsum
  retried := by
    intro before sealed after hsplit hafter
    have hsealed : Retried policy sealed := by
      rcases mem_append.mp (mem_init_of_split hsplit hafter) with hmem | hrecord
      · exact hstate.retried sealed hmem
      · exact mem_singleton.mp hrecord ▸ hretried
    exact ⟨hsealed, recoveryKind_of_retried hsealed⟩
  returned := by
    intro sealed hsealed hkind'
    rcases mem_append.mp hsealed with hmem | hlast
    · rcases mem_append.mp hmem with hmem | hrecord
      · exact absurd hkind' (recoveryKind_of_retried (hstate.retried sealed hmem)).1
      · exact absurd hkind' (recoveryKind_of_retried (mem_singleton.mp hrecord ▸ hretried)).1
    · rw [mem_singleton.mp hlast, hkind] at hkind'
      cases hkind'

theorem of_retryDisposition_ne_terminal {failureClass : FailureClass} {attemptIndex ceiling : Int}
    (hdisposition : retryDisposition policy failureClass attemptIndex total ceiling ≠ .terminal) :
    failureClass ∈ policy.retryableClasses ∧ attemptIndex < policy.attemptCeiling ∧
      (retryDisposition policy failureClass attemptIndex total ceiling = .retry ↔
        total < ceiling) := by
  unfold retryDisposition at hdisposition ⊢
  split at hdisposition
  · next hboth =>
    rw [if_pos hboth]
    refine ⟨hboth.1, hboth.2, ?_⟩
    by_cases hopen : total < ceiling <;> simp [hopen]
  · exact absurd rfl hdisposition

/-- One turn on a well-formed return: it stops with governed records, or goes on with a higher
attempt index. -/
theorem turn_spec {taken : List BoundaryReturn} {state : LoopState} {entry : BoundaryReturn}
    (hentry : entry.WellFormed platform) (hstate : Ongoing platform request policy taken state) :
    (∃ records, turn platform request resolution policy signalIds state entry =
        .ok (.stop records) ∧ Governed platform request policy (taken ++ [entry]) records) ∨
    ∃ later, turn platform request resolution policy signalIds state entry = .ok (.next later) ∧
      Ongoing platform request policy (taken ++ [entry]) later ∧
      later.attemptIndex = state.attemptIndex + 1 := by
  obtain ⟨verdict, hjudge, hfair, hreturned⟩ :=
    @judge_spec platform request signalIds _ _ hentry (Int.le_of_lt hstate.within)
  obtain ⟨record, refs, hseal, hrefs, hfields⟩ :=
    @sealRecord_spec platform request resolution _ _ _ hstate.jsonable hfair
  obtain ⟨hchained, hsum⟩ :=
    chained_of_sealed hstate.chained hstate.consumed hfair hrefs hfields
  have hkind : record.recoveryKind = verdict.recoveryKind := by
    rw [hfields]
    rfl
  have hclass : record.failureClass = verdict.failureClass := by
    rw [hfields]
    rfl
  have hstop : Governed platform request policy (taken ++ [entry]) (state.records ++ [record]) :=
    governed_of_stop hstate hchained (hsum ▸ hfair.charge.total_le) hkind (by rw [hfields]; rfl)
      hreturned
  have hjsonable : ∀ sealed ∈ state.records ++ [record], sealed.Jsonable := by
    intro sealed hsealed
    rcases mem_append.mp hsealed with hmem | hlast
    · exact hstate.jsonable sealed hmem
    · rw [mem_singleton.mp hlast, SealedOutcomeRecord.Jsonable, hfields]
      exact ⟨hfair.timing, hfair.metadata⟩
  unfold turn
  simp only [hjudge, hseal, bind, Except.bind]
  cases hretry : verdict.retryClass with
  | none => exact .inl ⟨_, rfl, hstop⟩
  | some failureClass =>
    have hretried (hretryable : failureClass ∈ policy.retryableClasses) : Retried policy record :=
      ⟨failureClass, hretryable, hclass.trans (hfair.retry failureClass hretry)⟩
    simp only
    cases hdisposition : retryDisposition policy failureClass state.attemptIndex
        verdict.charge.total request.budget.ceiling with
    | terminal => exact .inl ⟨_, rfl, hstop⟩
    | retry =>
      obtain ⟨hretryable, hbelow, hopen⟩ := of_retryDisposition_ne_terminal
        (fun hterminal ↦ by rw [hdisposition] at hterminal; cases hterminal)
      refine .inr ⟨_, rfl, ?_, ?_⟩
      · exact {
          chained := hchained
          consumed := hsum
          within := hopen.mp hdisposition
          count := by rw [length_append, length_append, hstate.count]; rfl
          attempts := by
            simp only [LoopState.attemptIndex, length_append, length_singleton] at hbelow ⊢
            omega
          retried := by
            intro sealed hsealed
            rcases mem_append.mp hsealed with hmem | hlast
            · exact hstate.retried sealed hmem
            · exact mem_singleton.mp hlast ▸ hretried hretryable
          jsonable := hjsonable }
      · simp only [LoopState.attemptIndex, length_append, length_singleton]
        omega
    | exhaustedBudget =>
      obtain ⟨hretryable, -, hopen⟩ := of_retryDisposition_ne_terminal
        (fun hterminal ↦ by rw [hdisposition] at hterminal; cases hterminal)
      have hgone : verdict.charge.total = request.budget.ceiling := by
        have hover : ¬ verdict.charge.total < request.budget.ceiling := by
          rw [← hopen, hdisposition]
          simp
        have hwithin := hfair.charge.total_le
        omega
      have hlastFair := fair_exhaustionVerdict hgone
      obtain ⟨last, lastRefs, hlast, hlastRefs, hlastFields⟩ :=
        @sealRecord_spec platform request resolution _ _ _ hjsonable hlastFair
      obtain ⟨hlastChained, hlastSum⟩ :=
        chained_of_sealed hchained hsum hlastFair hlastRefs hlastFields
      rw [hlast]
      refine .inl ⟨_, rfl, governed_of_exhaustion hstate (hretried hretryable) hlastChained
        (hlastSum ▸ hlastFair.charge.total_le) ?_ ?_ ?_⟩ <;> rw [hlastFields] <;> rfl

theorem ongoing_start : Ongoing platform request policy [] ⟨[], 0⟩ where
  chained := chained_nil
  consumed := rfl
  within := request.budget.ceiling_pos
  count := rfl
  attempts := policy.ceiling_pos
  retried _ hsealed := by cases hsealed
  jsonable _ hsealed := by cases hsealed

/-- Assumes: the returns are well formed and as many as the policy allows attempts. The loop ends
with governed records. -/
theorem run_governed {script : List BoundaryReturn}
    (hscript : ∀ entry ∈ script, entry.WellFormed platform)
    (hlength : policy.attemptCeiling ≤ script.length) :
    ∃ records, (Tape.run (turn platform request resolution policy signalIds) scriptExhausted script
        ⟨[], 0⟩).outcome = .ok records ∧
      Governed platform request policy (Tape.run (turn platform request resolution policy signalIds)
        scriptExhausted script ⟨[], 0⟩).taken records := by
  refine Tape.run_spec (Ongoing platform request policy) (Governed platform request policy)
    (fun state ↦ (policy.attemptCeiling + 1 - state.attemptIndex).toNat) ?_ ?_ ongoing_start ?_
  · intro taken state hstate
    have hattempts := hstate.attempts
    omega
  · intro taken state entry hentry hstate
    rcases @turn_spec platform request resolution policy signalIds _ _ _ (hscript entry hentry)
      hstate with hstop | ⟨later, hnext, hlater, hindex⟩
    · exact .inl hstop
    · have hattempts := hlater.attempts
      exact .inr ⟨later, hnext, hlater, by omega⟩
  · simp only [LoopState.attemptIndex, length_nil]
    omega

theorem refusedInitiation_spec (reasons : List String) :
    ∃ record, refusedInitiation platform request resolution reasons = .ok [record] ∧
      record.recoveryKind = .failed ∧ record.failureClass = some .f6 ∧ record.budgetConsumed = 0 ∧
        Chained (Accounts platform request.budget.ceiling) [] [record] := by
  have hfair : Verdict.Fair request 0 ⟨.failed, some .f6, none, .empty, .null,
      OrderedDict.empty.insert "initiation_refusal_reasons" (.json (.arr (reasons.map .str))),
      ⟨0, false, 0⟩, none⟩ := {
    charge := ⟨Int.le_refl 0, rfl, Int.le_of_lt request.budget.ceiling_pos⟩
    combination := fun _ _ _ _ ↦ rfl
    timing := jsonable_empty
    metadata := jsonable_insert jsonable_empty (by simp)
    retry := fun _ hretry ↦ by cases hretry }
  obtain ⟨record, refs, hseal, hrefs, hfields⟩ :=
    @sealRecord_spec platform request resolution _ [] _ (fun _ hrecord ↦ by cases hrecord) hfair
  refine ⟨record, by rw [refusedInitiation, hseal]; rfl, by rw [hfields]; rfl, by rw [hfields]; rfl,
    by rw [hfields]; rfl, ?_⟩
  exact (chained_of_sealed chained_nil rfl hfair hrefs hfields).1

theorem holdable_preparationCoordinates (inputs : PrepareInputs) (rqmHash : String) :
    Holdable platform.reader (preparationCoordinates platform inputs rqmHash).toJson := by
  refine ⟨(preparationCoordinates platform inputs rqmHash).nodup, ?_⟩
  simp [preparationCoordinates, HoldableFields, Holdable]

/-- A pair that was prepared passes its initiation. -/
theorem checkInitiation_of_prepare {inputs : PrepareInputs} {rows : List DescriptorRow}
    (hprepared : prepare platform inputs rows = .ok (request, resolution)) :
    checkInitiation platform request resolution = [] := by
  obtain ⟨hrequest, selection, -, rfl⟩ := prepare_ok hprepared
  obtain ⟨rqmHash, reduced, envelope, target, schema, scope, -, -, -, -, -, -, rfl⟩ :=
    hrequest.exists_parts
  generalize hpair : preparedRequest platform inputs rqmHash reduced envelope target schema scope =
    request
  have hmissing : request.constraints.missing = [] := hpair ▸ rfl
  have hcoordinates : (resolutionOf platform inputs request
      selection).preparationCoordinates.toJson.pyEq request.preparationCoordinates.toJson = true :=
    hpair ▸ pyEq_self (holdable_preparationCoordinates inputs rqmHash)
  have hhash : (resolutionOf platform inputs request selection).resolvedForRequestHash =
      request.contentHash platform := rfl
  unfold checkInitiation
  rw [if_pos hmissing, if_pos hcoordinates, if_pos hhash]
  rfl

/-- Assumes: the timeout table covers the rung of the request at the latency constraint, and the
returns are well formed and as many as the policy allows attempts. The governor ends. A pair whose
initiation is refused gets one record and crosses nothing; every other run is governed. -/
theorem runAttempts_governed {latencyConstraint : String} {script : List BoundaryReturn}
    {timeout : TimeoutClass}
    (htimeout : deriveTimeoutClass policy latencyConstraint request.requiredRung = .ok timeout)
    (hscript : ∀ entry ∈ script, entry.WellFormed platform)
    (hlength : policy.attemptCeiling ≤ script.length) :
    ∃ records, (runAttempts platform request resolution policy latencyConstraint signalIds
        script).outcome = .ok records ∧ ((checkInitiation platform request resolution ≠ [] ∧
          (runAttempts platform request resolution policy latencyConstraint signalIds
            script).taken = [] ∧ ∃ record, records = [record] ∧ record.recoveryKind = .failed ∧
            record.failureClass = some .f6 ∧ record.budgetConsumed = 0 ∧
            Chained (Accounts platform request.budget.ceiling) [] records) ∨
        (checkInitiation platform request resolution = [] ∧
          Governed platform request policy (runAttempts platform request resolution policy
            latencyConstraint signalIds script).taken records)) ∧
      ∀ inputs rows, prepare platform inputs rows = .ok (request, resolution) →
        checkInitiation platform request resolution = [] := by
  have hpassed := fun inputs rows ↦
    @checkInitiation_of_prepare platform request resolution inputs rows
  unfold runAttempts
  cases hinitiation : checkInitiation platform request resolution with
  | cons reason reasons =>
    obtain ⟨record, hok, hkind, hclass, hconsumed, hchained⟩ :=
      @refusedInitiation_spec platform request resolution (reason :: reasons)
    rw [hinitiation] at hpassed
    exact ⟨[record], hok, .inl ⟨cons_ne_nil _ _, rfl, record, rfl, hkind, hclass, hconsumed,
      hchained⟩, hpassed⟩
  | nil =>
    simp only [htimeout]
    obtain ⟨records, hok, hgoverned⟩ :=
      @run_governed platform request resolution policy signalIds script hscript hlength
    exact ⟨records, hok, .inr ⟨trivial, hgoverned⟩, fun _ _ _ ↦ trivial⟩

/-- A policy of one attempt that retries nothing, with the given table. -/
def singleAttempt (table : TimeoutTable) : ExecutionPolicyView where
  policyVersion := 1
  attemptCeiling := 1
  retryableClasses := []
  substitutionClasses := [.f1, .f2]
  timeoutTable := table
  ceiling_pos := Int.zero_lt_one

theorem exists_plainPair : ∃ request resolution,
    prepare plainPlatform plainInputs [plainRow "prov.a" .large .local] =
      .ok (request, resolution) ∧ request.requiredRung = "C1" := by
  have hrun : ((prepare plainPlatform plainInputs
      [plainRow "prov.a" .large .local]).toOption.map fun pair ↦ pair.1.requiredRung) =
        some "C1" := by decide +kernel
  obtain ⟨⟨request, resolution⟩, hprepared, hrung⟩ := Checked.exists_of_toOption_map hrun
  exact ⟨request, resolution, hprepared, hrung⟩

theorem runAttempts_governed_plain : ∃ request resolution records,
    prepare plainPlatform plainInputs [plainRow "prov.a" .large .local] =
      .ok (request, resolution) ∧
    (runAttempts plainPlatform request resolution (singleAttempt defaultTimeoutTable) "standard" []
      [.failed (.int 5) (.str "F1") .empty .empty]).outcome = .ok records ∧ records ≠ [] := by
  obtain ⟨request, resolution, hprepared, hrung⟩ := exists_plainPair
  have htimeout : deriveTimeoutClass (singleAttempt defaultTimeoutTable) "standard"
      request.requiredRung = .ok (defaultTimeout .standard .c1) := by
    rw [hrung]
    exact deriveTimeoutClass_default rfl .standard .c1
  obtain ⟨records, hok, hcases, hpassed⟩ := @runAttempts_governed plainPlatform request resolution
    (singleAttempt defaultTimeoutTable) [] "standard"
    [.failed (.int 5) (.str "F1") .empty .empty] _ htimeout (by
      intro entry hentry
      rw [mem_singleton.mp hentry]
      exact ⟨⟨5, rfl, by decide⟩, ⟨.f1, by decide⟩, jsonable_empty, jsonable_empty⟩) (by decide)
  refine ⟨request, resolution, records, hprepared, hok, ?_⟩
  rcases hcases with ⟨hrefused, -⟩ | ⟨-, hgoverned⟩
  · exact absurd (hpassed _ _ hprepared) hrefused
  · obtain ⟨crossed, hlength, hrecords⟩ := hgoverned.sealed
    have hcrossed := hgoverned.crossings.1
    rintro rfl
    rcases hrecords with rfl | ⟨last, hlast, -⟩
    · rw [← hlength] at hcrossed
      cases hcrossed
    · exact absurd hlast (append_ne_nil_of_right_ne_nil _ (cons_ne_nil last [])).symm

/-- A policy built with an empty timeout table, and a prepared pair: no run of attempts ends
well. -/
theorem not_governed_untimed : ∃ request resolution policy,
    prepare plainPlatform plainInputs [plainRow "prov.a" .large .local] =
        .ok (request, resolution) ∧
      buildExecutionPolicyView (.int 1) (.int 1) [] none (some []) = .ok policy ∧
      ∀ script records, (runAttempts plainPlatform request resolution policy "standard" []
        script).outcome ≠ .ok records := by
  obtain ⟨request, resolution, hprepared, hrung⟩ := exists_plainPair
  refine ⟨request, resolution, singleAttempt .empty, hprepared, by decide +kernel, ?_⟩
  intro script records hok
  have htimeout : (deriveTimeoutClass (singleAttempt .empty) "standard" "C1").toOption = none := by
    decide +kernel
  unfold runAttempts at hok
  rw [checkInitiation_of_prepare hprepared, hrung] at hok
  cases hderived : deriveTimeoutClass (singleAttempt .empty) "standard" "C1" with
  | error message =>
    cases hok
  | ok timeout =>
    rw [hderived] at htimeout
    cases htimeout

end AbsoluteZero.Reasoning

import AbsoluteZero.Kernel.History
import Mathlib.Data.List.Infix

/-!
# Outbound event ids

An emission is identified by its request id, the sequence number of its transition and its place in
the row, joined by colons (`emissionId_inj`). A request id that is admitted again after its cleanup
sends its old ids once more; as long as none is, all ids of a run are different
(`Coordinator.emissionIds_nodup`).
-/

namespace AbsoluteZero.Kernel

open Foundations OrderedDict SeparatedText List

/-- An emission id determines the request, the sequence number and the place in the row. -/
theorem emissionId_inj {first second : String} {sequence sequence' index index' : Nat}
    (hid : emissionId (.str first) sequence index = emissionId (.str second) sequence' index') :
    first = second ∧ sequence = sequence' ∧ index = index' := by
  obtain ⟨hhead, hindex⟩ := separator_append_inj ':'
    (notMem_toString index rfl) (notMem_toString index' rfl) hid
  obtain ⟨hrequest, hsequence⟩ := separator_append_inj ':'
    (notMem_toString sequence rfl) (notMem_toString sequence' rfl) hhead
  exact ⟨hrequest, toString_inj hsequence, toString_inj hindex⟩

def Cleaned (requestId : Json) (log : List Record) : Prop :=
  ∃ record ∈ log, record.Concerns requestId ∧ record.event = .str "__cleanup__"

theorem Cleaned.append {requestId : Json} {log : List Record} (hlog : Cleaned requestId log)
    (record : Record) : Cleaned requestId (log ++ [record]) := by
  obtain ⟨cleanup, hmem, hcleanup⟩ := hlog
  exact ⟨cleanup, mem_append_left _ hmem, hcleanup⟩

/-- The envelope admits a request id whose cleanup is in the log. -/
def Core.Readmits (core : Core) (env : Json) : Prop :=
  core.Newcomer env ∧ Cleaned (env.item "request_id") core.log

/-! ### The invariant -/

/-- The emission ids are different. The transition that an id names is not past the entry of its
request; if the request has no entry, it has been cleaned up. -/
structure Core.Distinct (core : Core) : Prop where
  nodup : (core.emissions.map Emission.eventId).Nodup
  keyed : ∀ requestId entry, core.ledger.get? requestId = some entry →
    entry.requestId = requestId ∧ ∃ text, requestId = .str text
  below : ∀ text entry, core.ledger.get? (.str text) = some entry →
    ∀ sequence index, emissionId (.str text) sequence index ∈
      core.emissions.map Emission.eventId → sequence ≤ entry.transitionSequence
  gone : ∀ text, core.ledger.get? (.str text) = none →
    ∀ sequence index, emissionId (.str text) sequence index ∈
      core.emissions.map Emission.eventId → Cleaned (.str text) core.log

theorem Core.distinct_init (view : ConfigView) : (Core.init view).Distinct where
  nodup := nodup_nil
  keyed _ _ hentry := by cases hentry
  below _ _ hentry := by cases hentry
  gone _ _ _ _ hmem := by cases hmem

theorem Core.emissions_logRecord (core : Core) (record : Record) :
    (core.logRecord record).emissions = core.emissions := by
  simp [emissions, logRecord, Publication.emission?]

/-- The emissions of a transition are sent unless they are alerts. -/
theorem Core.emissions_commit (core : Core) (unit : Applied) : (core.act (.commit unit)).emissions =
      core.emissions ++ unit.emissions.filter fun emission ↦ ¬ emission.IsFault := by
  have hsent : unit.publications.filterMap Publication.emission? =
      unit.emissions.filter fun emission ↦ ¬ emission.IsFault := by
    rw [Applied.publications, filterMap_cons_none rfl, filterMap_filterMap, ← filterMap_eq_filter]
    refine filterMap_congr fun emission _ ↦ ?_
    by_cases hfault : emission.IsFault <;> simp [hfault, Publication.emission?, Option.guard]
  rw [← hsent]
  exact filterMap_append

theorem Core.Distinct.quiet {core next : Core} (hcore : core.Distinct)
    (hemissions : next.emissions = core.emissions)
    (hkept : ∀ requestId entry, next.ledger.get? requestId = some entry →
      core.ledger.get? requestId = some entry)
    (hdropped : ∀ requestId, next.ledger.get? requestId = none →
      core.ledger.get? requestId = none ∨ Cleaned requestId next.log)
    (hlog : ∀ requestId, Cleaned requestId core.log → Cleaned requestId next.log) :
    next.Distinct where
  nodup := hemissions ▸ hcore.nodup
  keyed requestId entry hentry := hcore.keyed requestId entry (hkept requestId entry hentry)
  below text entry hentry sequence index hmem :=
    hcore.below text entry (hkept _ entry hentry) sequence index (hemissions ▸ hmem)
  gone text hnone sequence index hmem := by
    rcases hdropped _ hnone with hbefore | hcleaned
    · exact hlog _ (hcore.gone text hbefore sequence index (hemissions ▸ hmem))
    · exact hcleaned

theorem ids_applied {entry : RequestState} {event eventId : Json} {row : Row} {guardResult : Bool}
    {config : ConfigView} {info : Option (List (String × Json))} {unit : Applied}
    (happlied : applied entry event eventId row guardResult config info = .ok unit) {text : String}
    (htext : entry.requestId = .str text) :
    ((unit.emissions.filter fun emission ↦ ¬ emission.IsFault).map Emission.eventId).Nodup ∧
      ∀ sent ∈ (unit.emissions.filter fun emission ↦ ¬ emission.IsFault).map Emission.eventId,
        ∃ index, sent = emissionId (.str text) (entry.transitionSequence + 1) index := by
  have hids := (announces_applied happlied).ids
  rw [(applied_fixed happlied).1, (applied_sequence happlied).1, htext] at hids
  have hsublist : ((unit.emissions.filter fun emission ↦ ¬ emission.IsFault).map
      Emission.eventId).Sublist (unit.emissions.map Emission.eventId) :=
    filter_sublist.map Emission.eventId
  refine ⟨hsublist.nodup ?_, fun sent hsent ↦ ?_⟩
  · rw [hids]
    exact List.Nodup.map (fun _ _ hid ↦ (emissionId_inj hid).2.2) nodup_range'
  · have hmem := hsublist.subset hsent
    rw [hids] at hmem
    obtain ⟨index, -, hindex⟩ := mem_map.mp hmem
    exact ⟨index, hindex.symm⟩

/-- Assumes: no emission names a transition of the request past its entry. A transition of the entry
keeps the ids different. -/
theorem Core.Distinct.commit {core : Core} (hcore : core.Distinct) {entry : RequestState}
    {event eventId : Json} {row : Row} {guardResult : Bool} {config : ConfigView}
    {info : Option (List (String × Json))} {unit : Applied}
    (happlied : applied entry event eventId row guardResult config info = .ok unit) {text : String}
    (htext : entry.requestId = .str text)
    (hbelow : ∀ sequence index, emissionId (.str text) sequence index ∈
      core.emissions.map Emission.eventId → sequence ≤ entry.transitionSequence) :
    (core.act (.commit unit)).Distinct := by
  obtain ⟨hrecord, hid, -⟩ := applied_fixed happlied
  obtain ⟨-, hsequence⟩ := applied_sequence happlied
  obtain ⟨hnodup, hnamed⟩ := ids_applied happlied htext
  have hledger : (core.act (.commit unit)).ledger = core.ledger.insert (.str text) unit.entry := by
    rw [← htext, ← hrecord]
    rfl
  have hsplit {sent : String}
      (hsent : sent ∈ (core.act (.commit unit)).emissions.map Emission.eventId) :
      sent ∈ core.emissions.map Emission.eventId ∨
        ∃ index, sent = emissionId (.str text) (entry.transitionSequence + 1) index := by
    rw [emissions_commit, map_append] at hsent
    exact (mem_append.mp hsent).imp_right (hnamed sent)
  refine ⟨?_, fun requestId found hfound ↦ ?_, fun other found hfound sequence index hsent ↦ ?_,
    fun other hnone sequence index hsent ↦ ?_⟩
  · rw [emissions_commit, map_append]
    refine List.nodup_append.mpr ⟨hcore.nodup, hnodup, fun old hold new hnew heq ↦ ?_⟩
    obtain ⟨index, rfl⟩ := hnamed new hnew
    have hle := hbelow _ index (heq ▸ hold)
    omega
  · rw [hledger, get?_insert] at hfound
    split at hfound
    · next heq =>
      cases hfound
      exact ⟨hid.trans (htext.trans heq), text, heq.symm⟩
    · exact hcore.keyed requestId found hfound
  · rw [hledger, get?_insert] at hfound
    split at hfound
    · next heq =>
      cases hfound
      cases heq
      rw [hsequence]
      rcases hsplit hsent with hold | ⟨index', hindex⟩
      · exact (hbelow sequence index hold).trans (Nat.le_succ _)
      · exact (emissionId_inj hindex).2.1.le
    · next hne =>
      rcases hsplit hsent with hold | ⟨index', hindex⟩
      · exact hcore.below other found hfound sequence index hold
      · exact absurd (congrArg Json.str (emissionId_inj hindex).1.symm) hne
  · rw [hledger, get?_insert] at hnone
    split at hnone
    · cases hnone
    · next hne =>
      rcases hsplit hsent with hold | ⟨index', hindex⟩
      · exact (hcore.gone other hnone sequence index hold).append _
      · exact absurd (congrArg Json.str (emissionId_inj hindex).1.symm) hne

/-- Every possible action on behalf of an envelope that readmits nothing keeps the ids different,
and the envelope still readmits nothing. -/
theorem Core.Distinct.act {core : Core} {env : Json} {action : Action}
    (hpossible : core.Possible env action) (hcore : core.Distinct) (hadmits : ¬ core.Readmits env) :
    (core.act action).Distinct ∧ ¬ (core.act action).Readmits env := by
  have hname (next : Core) (hevent : env.item "event_name" ≠ .str "request.received") :
      ¬ next.Readmits env := fun hreadmits ↦ hevent hreadmits.1.name
  have hfound {next : Core} {entry : RequestState}
      (hentry : next.ledger.get? (env.item "request_id") = some entry) : ¬ next.Readmits env :=
    fun hreadmits ↦ by rw [hreadmits.1.fresh] at hentry; cases hentry
  have hnone (hnew : core.Newcomer env) {text : String} (htext : env.item "request_id" = .str text)
      (sequence index : Nat) :
      emissionId (.str text) sequence index ∉ core.emissions.map Emission.eventId := fun hsent ↦
    hadmits ⟨hnew, htext ▸ hcore.gone text (htext ▸ hnew.fresh) sequence index hsent⟩
  have hinserted (unit : Applied) (hrecord : unit.record.requestId = env.item "request_id") :
      (core.act (.commit unit)).ledger.get? (env.item "request_id") = some unit.entry := by
    rw [← hrecord]
    exact get?_insert_self _ _ _
  have hlogged (record : Record) (requestId : Json) (hcleaned : Cleaned requestId core.log) :
      Cleaned requestId (core.logRecord record).log := hcleaned.append record
  cases hpossible with
  | configure hinstalls =>
    exact ⟨hcore.quiet (emissions_logRecord _ _) (fun _ _ hentry ↦ hentry)
      (fun _ hold ↦ Or.inl hold) (hlogged _), hname _ (by rw [hinstalls.2.1]; decide)⟩
  | mark hsession =>
    exact ⟨hcore.quiet (emissions_logRecord _ _) (fun _ _ hentry ↦ hentry) (fun _ hold ↦ Or.inl
      hold) (hlogged _), hname _ fun hevent ↦ by rw [hevent] at hsession; revert hsession; decide⟩
  | absorb _ hentry =>
    exact ⟨hcore.quiet (emissions_logRecord _ _) (fun _ _ hold ↦ hold) (fun _ hold ↦ Or.inl hold)
      (hlogged _), hfound hentry⟩
  | strand hnew =>
    obtain ⟨text, htext⟩ := Json.exists_text_of_nonemptyStr hnew.nonempty
    refine ⟨⟨hcore.nodup, fun requestId entry hentry ↦ ?_, fun other entry hentry sequence index
      hsent ↦ ?_, fun other hmissing sequence index hsent ↦ ?_⟩, hfound (get?_insert_self _ _ _)⟩
    · change (core.ledger.insert (env.item "request_id") _).get? requestId = some entry at hentry
      rw [get?_insert] at hentry
      split at hentry
      · next heq =>
        cases hentry
        exact ⟨heq, text, heq ▸ htext⟩
      · exact hcore.keyed requestId entry hentry
    · change (core.ledger.insert (env.item "request_id") _).get? (.str other) = some entry at hentry
      rw [get?_insert] at hentry
      split at hentry
      · next heq => exact absurd hsent (hnone hnew heq sequence index)
      · exact hcore.below other entry hentry sequence index hsent
    · change (core.ledger.insert (env.item "request_id") _).get? (.str other) = none at hmissing
      rw [get?_insert] at hmissing
      split at hmissing
      · cases hmissing
      · exact hcore.gone other hmissing sequence index hsent
  | @admission row guardResult info unit hnew happlied =>
    obtain ⟨text, htext⟩ := Json.exists_text_of_nonemptyStr hnew.nonempty
    have hrecord : unit.record.requestId = env.item "request_id" := (applied_fixed happlied).1
    exact ⟨hcore.commit happlied htext fun sequence index hsent ↦
      absurd hsent (hnone hnew htext sequence index), hfound (hinserted unit hrecord)⟩
  | @advance entry event row guardResult config info unit _ hentry happlied =>
    obtain ⟨hid, text, htext⟩ := hcore.keyed _ _ hentry
    have hrecord : unit.record.requestId = env.item "request_id" :=
      (applied_fixed happlied).1.trans hid
    exact ⟨hcore.commit happlied (hid.trans htext) (hcore.below text entry (htext ▸ hentry)),
      hfound (hinserted unit hrecord)⟩
  | @clean requestId entry hsleep hentry hterminal =>
    refine ⟨hcore.quiet (emissions_logRecord _ _) (fun other found hother ↦ ?_)
      (fun other hmissing ↦ ?_) (hlogged _), hname _ (by rw [hsleep]; decide)⟩
    · change (core.ledger.erase requestId).get? other = some found at hother
      exact (get?_of_erase hother).2
    · change (core.ledger.erase requestId).get? other = none at hmissing
      rw [get?_erase] at hmissing
      split at hmissing
      · next heq =>
        exact Or.inr ⟨Coordinator.cleanupRecord requestId entry,
          mem_append_right _ (mem_singleton_self _), ⟨heq, rfl⟩, rfl⟩
      · exact Or.inl hmissing

/-- In every run that admits no request id again after its cleanup, whatever the tables are, no two
emissions have the same event id. -/
theorem Coordinator.emissionIds_nodup (accepts : Nat → Bool) (clock : Nat → Json)
    (view : ConfigView) {envs : List Json} (hadmits : ∀ before env, before ++ [env] <+: envs →
      ¬ ((init { accepts := accepts } clock view).run before).core.Readmits env) :
    (((init { accepts := accepts } clock view).run envs).core.emissions.map
      Emission.eventId).Nodup := by
  refine (step_induction Core.Distinct accepts clock view envs (Core.distinct_init view)
    fun before env hbefore hdistinct halted ↦ ?_).nodup
  exact (IsPlan.keeps (fun core ↦ core.Distinct ∧ ¬ core.Readmits env)
    (fun core action hpossible hholds ↦ hholds.1.act hpossible hholds.2)
    (Core.decide_possible _ halted env) ⟨hdistinct, hadmits before env hbefore⟩).1

theorem emissionIds_nodup_completed :
    ((Coordinator.selftest.run (readmittedRun.take 5)).core.emissions.map
      Emission.eventId).Nodup := by
  refine Coordinator.emissionIds_nodup (fun _ ↦ true) (fun _ ↦ .int 0) defaultView
    fun before env hbefore hreadmits ↦ ?_
  have hnone : ∀ before ∈ (readmittedRun.take 5).inits,
      ∀ record ∈ (Coordinator.selftest.run before).log, record.event ≠ .str "__cleanup__" := by
    decide +kernel
  obtain ⟨record, hrecord, -, hcleanup⟩ := hreadmits.2
  exact hnone before ((mem_inits _ _).mpr ((prefix_append before [env]).trans hbefore))
    record hrecord hcleanup

/-- The second admission of a request sends a routing directive with another target under the id of
the first one. -/
theorem readmittedRun_repeats : ∃ first ∈ (Coordinator.selftest.run readmittedRun).core.emissions,
      ∃ second ∈ (Coordinator.selftest.run readmittedRun).core.emissions,
        first.eventName = .str "routing.directive" ∧ second.eventName = .str "routing.directive" ∧
        first.eventId = second.eventId ∧ first.payload ≠ second.payload := by
  decide +kernel

end AbsoluteZero.Kernel

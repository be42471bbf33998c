import AbsoluteZero.Verification.Changes
import Mathlib.Data.List.Induction

/-!
# Open judgments and the demands behind them

A demand opens a judgment exactly when it is well formed for the rules it names
(`exists_judgmentOf_iff`), and the judgment is accounted for by it from then on
(`Judgment.Accounted`): its checks and levels are the demand's, and evidence and terminal checks
answer each other (`sound_run`).
-/

namespace AbsoluteZero.Verification

open Foundations OrderedDict Checked List

namespace Demand

variable (demand : Demand)

def level? (check : String) : Option String :=
  (demand.staticCheckLevels.get? check).or (demand.delegatedCheckLevels.get? check)

def Names (check : String) : Prop :=
  check ∈ demand.delegatedCheckLevels.keys ∨ check ∈ demand.staticCheckLevels.keys

/-- The rules that the demand names are known and require every check that it delegates, no check is
both delegated and static, and the artifact is named. -/
def WellFormed (store : RulesStore) : Prop :=
  ∃ rules, store.lookup demand.artifactType demand.rulesVersion = .ok rules ∧
    (∀ check ∈ demand.delegatedCheckLevels.keys, check ∈ rules.requiredChecks) ∧
    (∀ check ∈ demand.delegatedCheckLevels.keys, check ∉ demand.staticCheckLevels.keys) ∧
    demand.artifactRef ≠ ""

theorem exists_level?_iff {check : String} : (∃ level, demand.level? check = some level) ↔
    demand.Names check := by
  unfold level? Names
  rw [← exists_get?_iff, ← exists_get?_iff]
  cases demand.staticCheckLevels.get? check with
  | none | some level => simp

end Demand

/-- A judgment as a demand opens it: nothing dispatched, nothing run, no evidence. -/
structure Judgment.OpenedBy (rules : ArtifactRules) (demand : Demand) (judgment : Judgment) :
    Prop where
  judgmentId : judgment.judgmentId = demand.judgmentId
  artifactRef : judgment.artifactRef = demand.artifactRef
  rulesVersion : judgment.rulesVersion = demand.rulesVersion
  record : judgment.record = ⟨.str demand.artifactRef, .int demand.rulesVersion, [], .null⟩
  keys : judgment.delegations.keys = demand.delegatedCheckLevels.keys
  required : ∀ check delegation, judgment.delegations.get? check = some delegation →
    ∃ deadline, rules.deadline check = .ok deadline ∧
      delegation = ⟨demand.judgmentId ++ ":" ++ check, check, demand.artifactRef, deadline,
        .required, none⟩
  pending : judgment.staticPending = demand.staticCheckLevels.keys
  levels : ∀ check, judgment.levels.get? check = demand.level? check
  closed : judgment.closed = false

theorem append_colon_ne_empty (first second : String) : first ++ ":" ++ second ≠ "" := by
  intro hempty
  have hlist := congrArg String.toList hempty
  simp at hlist

variable {store : RulesStore} {demand : Demand} {judgment : Judgment}

theorem judgmentOf_eq_ok (hopened : judgmentOf store demand = .ok judgment) :
    demand.WellFormed store ∧ ∃ rules,
      store.lookup demand.artifactType demand.rulesVersion = .ok rules ∧
        judgment.OpenedBy rules demand := by
  obtain ⟨rules, hrules, hrest⟩ := bind_eq_ok_iff.mp hopened
  obtain ⟨specs, hspecs, hopen⟩ := bind_eq_ok_iff.mp hrest
  have hkeys := keys_of_comprehend hspecs
  obtain ⟨htwice, delegations, record, hdelegations, hrecord, rfl⟩ :=
    openJudgment_eq_ok_iff.mp hopen
  obtain ⟨⟨hartifact, -⟩, rfl⟩ := buildEvidenceRecord_eq_ok_iff.mp hrecord
  refine ⟨⟨rules, hrules, ?_, ?_, hartifact⟩, rules, hrules, ?_⟩
  · intro check hcheck
    obtain ⟨level, hlevel⟩ := (exists_get?_iff _).mpr hcheck
    obtain ⟨spec, hspec, -⟩ := get?_of_comprehend hspecs hlevel
    obtain ⟨deadline, hdeadline, -⟩ := map_eq_ok_iff.mp hspec
    exact rules.exists_deadline_iff.mp ⟨deadline, hdeadline⟩
  · intro check hcheck hstatic
    rw [← hkeys] at hcheck
    have hboth := filter_eq_nil_iff.mp htwice check hcheck
    exact hboth (decide_eq_true hstatic)
  · refine ⟨rfl, rfl, rfl, rfl, ?_, ?_, rfl, ?_, rfl⟩
    · exact (keys_of_comprehend hdelegations).trans hkeys
    · intro check delegation hdelegation
      have hmem : check ∈ specs.keys := by
        rw [← keys_of_comprehend hdelegations]
        exact (exists_get?_iff _).mp ⟨delegation, hdelegation⟩
      obtain ⟨spec, hspec⟩ := (exists_get?_iff _).mpr hmem
      obtain ⟨made, hmade, hfound⟩ := get?_of_comprehend hdelegations hspec
      rw [hfound] at hdelegation
      cases hdelegation
      obtain ⟨-, rfl⟩ := buildDelegation_eq_ok_iff.mp hmade
      rw [hkeys] at hmem
      obtain ⟨level, hlevel⟩ := (exists_get?_iff _).mpr hmem
      obtain ⟨other, hother, hspec'⟩ := get?_of_comprehend hspecs hlevel
      rw [hspec] at hspec'
      cases hspec'
      obtain ⟨deadline, hdeadline, rfl⟩ := map_eq_ok_iff.mp hother
      exact ⟨deadline, hdeadline, rfl⟩
    · intro check
      unfold checkLevels Demand.level?
      rw [get?_update, get?_mapValues]
      congr 1
      cases hlevel : demand.delegatedCheckLevels.get? check with
      | none =>
        have hnone := (get?_eq_none_iff _).mp hlevel
        rw [← hkeys] at hnone
        rw [(get?_eq_none_iff _).mpr hnone]
        rfl
      | some level =>
        obtain ⟨spec, hspec, hfound⟩ := get?_of_comprehend hspecs hlevel
        obtain ⟨deadline, -, rfl⟩ := map_eq_ok_iff.mp hspec
        rw [hfound]
        rfl

theorem exists_judgmentOf_iff (hstore : store.Monotonic) :
    (∃ judgment, judgmentOf store demand = .ok judgment) ↔ demand.WellFormed store := by
  constructor
  · rintro ⟨judgment, hjudgment⟩
    exact (judgmentOf_eq_ok hjudgment).1
  · rintro ⟨rules, hrules, hrequired, hdisjoint, hartifact⟩
    obtain ⟨specs, hspecs⟩ : ∃ specs, demand.delegatedCheckLevels.comprehend (fun check level ↦
        (rules.deadline check).map fun deadline ↦ DelegatedSpec.mk deadline level) = .ok specs := by
      refine exists_comprehend_iff.mpr fun check level hlevel ↦ ?_
      have hmem := hrequired check ((exists_get?_iff _).mp ⟨level, hlevel⟩)
      obtain ⟨deadline, hdeadline⟩ := rules.exists_deadline_iff.mpr hmem
      exact ⟨⟨deadline, level⟩, by rw [hdeadline]; rfl⟩
    have hkeys := keys_of_comprehend hspecs
    obtain ⟨delegations, hdelegations⟩ : ∃ delegations, specs.comprehend (fun check spec ↦
        buildDelegation (demand.judgmentId ++ ":" ++ check) check demand.artifactRef spec.deadline)
          = .ok delegations := by
      refine exists_comprehend_iff.mpr fun check spec hspec ↦ ?_
      have hmem : check ∈ specs.keys := (exists_get?_iff _).mp ⟨spec, hspec⟩
      rw [hkeys] at hmem
      exact ⟨_, buildDelegation_eq_ok_iff.mpr
        ⟨⟨append_colon_ne_empty _ _, rules.named check (hrequired check hmem), hartifact⟩, rfl⟩⟩
    have hrecord := buildEvidenceRecord_eq_ok_iff.mpr
      ⟨⟨hartifact, hstore.pos_of_lookup hrules⟩, rfl⟩
    have htwice : declaredTwice specs demand.staticCheckLevels = [] := by
      refine filter_eq_nil_iff.mpr fun check hcheck hboth ↦ ?_
      rw [hkeys] at hcheck
      exact hdisjoint check hcheck (of_decide_eq_true hboth)
    have hopen := openJudgment_eq_ok_iff.mpr
      ⟨htwice, delegations, _, hdelegations, hrecord, rfl⟩
    exact ⟨_, bind_eq_ok_iff.mpr ⟨rules, hrules,
      bind_eq_ok_iff.mpr ⟨specs, hspecs, hopen⟩⟩⟩

/-! ### Judgments in progress -/

def ruleOf (check : String) : Json := .str ("rule." ++ check)

namespace Judgment

def Settled (demand : Demand) (judgment : Judgment) (check : String) : Prop :=
  (∃ delegation, judgment.delegations.get? check = some delegation ∧
      delegation.state.terminal = true) ∨
    check ∈ demand.staticCheckLevels.keys ∧ check ∉ judgment.staticPending

def gatheredKinds : List String := ["independent", "redundant"]

def Contributed (judgment : Judgment) (item : EvidenceItem) : Prop :=
  ∃ check source result kind level, judgment.levels.get? check = some level ∧
    kind ∈ gatheredKinds ∧ item = judgment.observation check source result kind level

structure Accounted (demand : Demand) (judgment : Judgment) : Prop where
  judgmentId : judgment.judgmentId = demand.judgmentId
  artifactRef : judgment.artifactRef = demand.artifactRef
  rulesVersion : judgment.rulesVersion = demand.rulesVersion
  recordArtifact : judgment.record.artifactRef = .str demand.artifactRef
  recordVersion : judgment.record.rulesVersion = .int demand.rulesVersion
  account : judgment.record.derivationAccount = .null
  keys : judgment.delegations.keys = demand.delegatedCheckLevels.keys
  pending : ∀ check ∈ judgment.staticPending, check ∈ demand.staticCheckLevels.keys
  levels : ∀ check, judgment.levels.get? check = demand.level? check
  items : ∀ item ∈ judgment.record.items, judgment.Contributed item
  gathered : ∀ check, judgment.Settled demand check →
    ∃ item ∈ judgment.record.items, item.rule = ruleOf check

theorem OpenedBy.accounted {rules : ArtifactRules} (hopened : judgment.OpenedBy rules demand) :
    judgment.Accounted demand := by
  refine ⟨hopened.judgmentId, hopened.artifactRef, hopened.rulesVersion, ?_, ?_, ?_, hopened.keys,
    ?_, hopened.levels, ?_, ?_⟩
  · rw [hopened.record]
  · rw [hopened.record]
  · rw [hopened.record]
  · rw [hopened.pending]
    exact fun check hcheck ↦ hcheck
  · rw [hopened.record]
    intro item hitem
    cases hitem
  · rintro check (⟨delegation, hfound, hterminal⟩ | ⟨hstatic, hrun⟩)
    · obtain ⟨deadline, -, rfl⟩ := hopened.required check delegation hfound
      cases hterminal
    · rw [hopened.pending] at hrun
      exact absurd hstatic hrun

theorem mem_withItem {item other : EvidenceItem} :
    other ∈ (judgment.withItem item).record.items ↔
      other ∈ judgment.record.items ∨ other = item := by
  change other ∈ judgment.record.items ++ [item] ↔ _
  rw [mem_append, mem_singleton]

variable {next : Judgment}

/-- One more item of a check keeps the account, whatever else the change did, as long as every check
that is terminal now was terminal before or is the one of the item. -/
theorem Accounted.withItem {check source result kind level : String}
    (haccounted : judgment.Accounted demand) (hlevel : judgment.levels.get? check = some level)
    (hkind : kind ∈ gatheredKinds)
    (hsame : next = { judgment.withItem (judgment.observation check source result kind level) with
      delegations := next.delegations, staticPending := next.staticPending })
    (hkeys : next.delegations.keys = judgment.delegations.keys)
    (hpending : ∀ other ∈ next.staticPending, other ∈ judgment.staticPending)
    (hsettled : ∀ other, next.Settled demand other →
      judgment.Settled demand other ∨ other = check) :
    next.Accounted demand := by
  have hrecord : next.record =
      (judgment.withItem (judgment.observation check source result kind level)).record := by
    rw [hsame]
  have hlevels : next.levels = judgment.levels := by rw [hsame]; rfl
  have hartifact : next.artifactRef = judgment.artifactRef := by rw [hsame]; rfl
  refine ⟨?_, hartifact.trans haccounted.artifactRef, ?_, ?_, ?_, ?_,
    hkeys.trans haccounted.keys, fun other hother ↦ haccounted.pending other
      (hpending other hother),
    fun other ↦ hlevels ▸ haccounted.levels other, ?_, ?_⟩
  · rw [hsame]
    exact haccounted.judgmentId
  · rw [hsame]
    exact haccounted.rulesVersion
  · rw [hrecord]
    exact haccounted.recordArtifact
  · rw [hrecord]
    exact haccounted.recordVersion
  · rw [hrecord]
    rfl
  · intro item hitem
    rw [hrecord, mem_withItem] at hitem
    unfold Contributed observation
    rw [hlevels, hartifact]
    rcases hitem with hitem | rfl
    · exact haccounted.items item hitem
    · exact ⟨check, source, result, kind, level, hlevel, hkind, rfl⟩
  · intro other hother
    rw [hrecord]
    rcases hsettled other hother with hbefore | rfl
    · obtain ⟨item, hitem, hrule⟩ := haccounted.gathered other hbefore
      exact ⟨item, mem_withItem.mpr (Or.inl hitem), hrule⟩
    · exact ⟨_, mem_withItem.mpr (Or.inr rfl), rfl⟩

variable {check : String}

theorem keys_withDelegation {delegation after : Delegation}
    (hfound : judgment.delegations.get? check = some delegation) :
    (judgment.withDelegation check after).delegations.keys = judgment.delegations.keys := by
  have hmem : check ∈ judgment.delegations.items.map Prod.fst :=
    (exists_get?_iff _).mp ⟨delegation, hfound⟩
  exact map_fst_upsert_of_mem hmem

section

variable (haccounted : judgment.Accounted demand)

include haccounted

theorem Accounted.step (hstep : judgment.Step next) : next.Accounted demand := by
  cases hstep with
  | acknowledge check delegation hfound hstate =>
    refine { haccounted with
      keys := (keys_withDelegation hfound).trans haccounted.keys
      gathered := ?_ }
    rintro other (⟨after, hafter, hterminal⟩ | hstatic)
    · change (judgment.delegations.insert check _).get? other = some after at hafter
      rw [get?_insert] at hafter
      split at hafter
      · cases hafter
        cases hterminal
      · exact haccounted.gathered other (Or.inl ⟨after, hafter, hterminal⟩)
    · exact haccounted.gathered other (Or.inr hstatic)
  | settle check delegation after outcome level hfound hstate hterminal hlevel =>
    refine haccounted.withItem hlevel (by decide) rfl (keys_withDelegation hfound)
      (fun other hother ↦ hother) ?_
    rintro other (⟨found, hother, hsettled⟩ | hstatic)
    · change (judgment.delegations.insert check _).get? other = some found at hother
      rw [get?_insert] at hother
      split at hother
      · next hcheck => exact Or.inr hcheck.symm
      · exact Or.inl (Or.inl ⟨found, hother, hsettled⟩)
    · exact Or.inl (Or.inr hstatic)
  | static check outcome level hpending hlevel =>
    refine haccounted.withItem hlevel (by decide) rfl rfl
      (fun other hother ↦ (mem_filter.mp hother).1) ?_
    rintro other (hdelegated | ⟨hstatic, hrun⟩)
    · exact Or.inl (Or.inl hdelegated)
    · by_cases hcheck : other = check
      · exact Or.inr hcheck
      · refine Or.inl (Or.inr ⟨hstatic, fun hother ↦ hrun ?_⟩)
        exact mem_filter.mpr ⟨hother, decide_eq_true hcheck⟩

theorem Accounted.heard (hheard : judgment.Heard next) : next.Accounted demand := by
  obtain ⟨check, delegation, outcome, level, hfound, hterminal, hlevel⟩ := hheard
  exact haccounted.withItem hlevel (by decide) rfl rfl (fun other hother ↦ hother)
    fun other hother ↦ Or.inl hother

theorem Accounted.settled (hcomplete : judgment.Complete)
    (hnamed : demand.Names check) : judgment.Settled demand check := by
  rcases hnamed with hdelegated | hstatic
  · rw [← haccounted.keys] at hdelegated
    obtain ⟨delegation, hfound⟩ := (exists_get?_iff _).mpr hdelegated
    refine Or.inl ⟨delegation, hfound, hcomplete.2 delegation ?_⟩
    exact mem_map_of_mem ((get?_eq_some_iff _).mp hfound)
  · exact Or.inr ⟨hstatic, by rw [hcomplete.1]; exact not_mem_nil⟩

theorem Accounted.exists_item_iff (hcomplete : judgment.Complete) :
    (∃ item ∈ judgment.record.items, item.rule = ruleOf check) ↔ demand.Names check := by
  constructor
  · rintro ⟨item, hitem, hrule⟩
    obtain ⟨other, source, result, kind, level, hlevel, -, rfl⟩ := haccounted.items item hitem
    have hsame : other = check := by
      have htext := Json.str.inj hrule
      exact String.append_right_inj "rule." |>.mp htext
    subst hsame
    rw [haccounted.levels] at hlevel
    exact demand.exists_level?_iff.mp ⟨level, hlevel⟩
  · exact fun hnamed ↦ haccounted.gathered check (haccounted.settled hcomplete hnamed)

end

end Judgment

section Runs

variable (registry : StaticRegistry) (digest : String → String) (quotient : Nat → Nat → Rat)
  (policy : DerivationPolicy) (storage : OrderedDict String String)

/-- The demand opened a judgment in a run: at its call the engine was ready for it. -/
def OpenedIn (calls : List Call) (demand : Demand) : Prop :=
  ∃ before after, calls = before ++ .handleDemand demand :: after ∧
    ((Engine.new storage).run registry digest quotient policy before).Fresh demand

structure Engine.Sound (calls : List Call) (engine : Engine) : Prop where
  monotonic : engine.rulesStore.Monotonic
  opened : ∀ artifactRef judgment, engine.judgments.get? artifactRef = some judgment →
    ∃ demand, OpenedIn registry digest quotient policy storage calls demand ∧
      demand.artifactRef = artifactRef ∧ judgment.Accounted demand ∧
      ∃ rules, engine.rulesStore.lookup demand.artifactType demand.rulesVersion = .ok rules

variable {registry digest quotient policy storage} {engine : Engine}

theorem Engine.run_append (calls : List Call) (call : Call) :
    engine.run registry digest quotient policy (calls ++ [call]) =
      (engine.run registry digest quotient policy calls).after registry digest quotient policy
        call := by
  unfold Engine.run
  rw [foldl_append]
  rfl

variable {calls : List Call}

theorem OpenedIn.append {demand : Demand} (call : Call)
    (hopened : OpenedIn registry digest quotient policy storage calls demand) :
    OpenedIn registry digest quotient policy storage (calls ++ [call]) demand := by
  obtain ⟨before, after, rfl, hfresh⟩ := hopened
  exact ⟨before, after ++ [call], by simp, hfresh⟩

/-- Assumes: the property holds of a new engine, and every change of a call keeps it. It holds after
every run. -/
theorem run_invariant (property : List Call → Engine → Prop)
    (hnew : property [] (Engine.new storage)) (hchange : ∀ calls call next,
      property calls ((Engine.new storage).run registry digest quotient policy calls) →
      ((Engine.new storage).run registry digest quotient policy calls).Change digest quotient policy
        call next → property (calls ++ [call]) next) (calls : List Call) :
    property calls ((Engine.new storage).run registry digest quotient policy calls) := by
  induction calls using List.reverseRecOn with
  | nil => exact hnew
  | append_singleton calls call ih =>
    rw [Engine.run_append]
    exact hchange calls call _ ih (Engine.change_after call)

theorem Engine.Sound.replace (call : Call) {artifactRef : String} {judgment next : Judgment}
    (hsound : engine.Sound registry digest quotient policy storage calls)
    (hfound : engine.judgments.get? artifactRef = some judgment)
    (hkept : ∀ demand, judgment.Accounted demand → next.Accounted demand) :
    Engine.Sound registry digest quotient policy storage (calls ++ [call])
      { engine with judgments := engine.judgments.insert artifactRef next } := by
  refine ⟨hsound.monotonic, fun other held hheld ↦ ?_⟩
  rw [get?_insert] at hheld
  split at hheld
  · next hartifact =>
    cases hheld
    obtain ⟨demand, hopened, hsame, haccounted, hrules⟩ := hsound.opened artifactRef judgment hfound
    exact ⟨demand, hopened.append call, hsame.trans hartifact, hkept demand haccounted, hrules⟩
  · obtain ⟨demand, hopened, hsame, haccounted, hrules⟩ := hsound.opened other held hheld
    exact ⟨demand, hopened.append call, hsame, haccounted, hrules⟩

theorem Engine.Sound.fewer (call : Call) {next : Engine}
    (hsound : engine.Sound registry digest quotient policy storage calls)
    (hrules : next.rulesStore = engine.rulesStore)
    (hjudgments : ∀ artifactRef judgment, next.judgments.get? artifactRef = some judgment →
      engine.judgments.get? artifactRef = some judgment) :
    next.Sound registry digest quotient policy storage (calls ++ [call]) := by
  refine ⟨hrules ▸ hsound.monotonic, fun artifactRef judgment hfound ↦ ?_⟩
  obtain ⟨demand, hopened, hsame, haccounted, hknown⟩ :=
    hsound.opened artifactRef judgment (hjudgments artifactRef judgment hfound)
  exact ⟨demand, hopened.append call, hsame, haccounted, hrules ▸ hknown⟩

theorem sound_run (calls : List Call) :
    ((Engine.new storage).run registry digest quotient policy calls).Sound registry digest quotient
      policy storage calls := by
  refine run_invariant (Engine.Sound registry digest quotient policy storage) ?_ ?_ calls
  · refine ⟨RulesStore.monotonic_new, fun artifactRef judgment hfound ↦ ?_⟩
    cases hfound
  intro calls call next hsound hchange
  cases hchange with
  | unchanged => exact hsound.fewer call rfl fun _ _ hfound ↦ hfound
  | ingested version specs rulesStore hingest =>
    refine ⟨hsound.monotonic.ingest hingest, fun artifactRef judgment hfound ↦ ?_⟩
    obtain ⟨demand, hopened, hsame, haccounted, rules, hrules⟩ :=
      hsound.opened artifactRef judgment hfound
    exact ⟨demand, hopened.append _, hsame, haccounted, rules,
      RulesStore.lookup_ingest hsound.monotonic hingest hrules⟩
  | seen demand
  | stranded demand refusal hfresh hrefused => exact hsound.fewer _ rfl fun _ _ hfound ↦ hfound
  | opened demand judgment hfresh hopened =>
    refine ⟨hsound.monotonic, fun artifactRef held hheld ↦ ?_⟩
    rw [get?_insert] at hheld
    split at hheld
    · next hartifact =>
      cases hheld
      obtain ⟨-, rules, hrules, hby⟩ := judgmentOf_eq_ok hopened
      exact ⟨demand, ⟨calls, [], rfl, hfresh⟩, hartifact, hby.accounted, rules, hrules⟩
    · obtain ⟨other, hother, hsame, haccounted, hrules⟩ := hsound.opened artifactRef held hheld
      exact ⟨other, hother.append _, hsame, haccounted, hrules⟩
  | advanced _ artifactRef judgment next hfound hstep =>
    exact hsound.replace call hfound fun demand haccounted ↦ haccounted.step hstep
  | heard artifactRef check polled judgment next hfound hheard =>
    exact hsound.replace _ hfound fun demand haccounted ↦ haccounted.heard hheard
  | faulted artifactRef judgment record hfound hcomplete hrecord =>
    exact hsound.fewer _ rfl fun _ _ hheld ↦ (get?_of_erase hheld).2
  | faultedRaising artifactRef judgment record answer hanswer =>
    exact hsound.fewer _ rfl fun _ _ hfound ↦ hfound
  | stored artifactRef judgment record answer hfound hcomplete hrecord =>
    exact hsound.fewer _ rfl fun _ _ hfound ↦ hfound
  | toldRaising artifactRef judgment record envelope answer hanswer hfound hcomplete
      hrecord hverdict =>
    exact hsound.fewer _ rfl fun _ _ hfound ↦ hfound
  | emitted artifactRef judgment record envelope hfound hcomplete hnone hrecord hverdict =>
    exact hsound.fewer _ rfl fun _ _ hheld ↦ (get?_of_erase hheld).2

end Runs

end AbsoluteZero.Verification

import AbsoluteZero.Verification.Coherence

/-!
# Rebuilding the pending judgments

After a crash the artifacts with a persisted record are terminal, and the demand events are replayed
through a new intake. The rebuild follows the live engine up to the first demand that raises
(`replayDemand_eq`) and ends well exactly when every demand is taken (`rebuild_eq_ok_iff`).
-/

namespace AbsoluteZero.Verification

open Foundations OrderedDict List

/-- `PendingProjection`. -/
structure Projection where
  intake : Intake
  judgments : OrderedDict String Judgment

def Engine.projection (engine : Engine) : Projection := ⟨engine.intake, engine.judgments⟩

/-- The reference to a persisted record. -/
def verdictRef (digest : String → String) (record : EvidenceRecord) : String :=
  "storage:vae/ev/" ++ contentHash digest record

/-- The first loop of `rebuild`: the artifacts with a persisted record are terminal. -/
def markPersisted (digest : String → String) (persisted : OrderedDict String EvidenceRecord) :
    Except Refusal Intake :=
  persisted.items.foldlM
    (fun intake entry ↦ intake.markTerminal entry.1 (verdictRef digest entry.2)) .new

/-- The second loop of `rebuild`, for one demand event. -/
def replayDemand (rulesStore : RulesStore) (projection : Projection) (demand : Demand) :
    Except Refusal Projection :=
  match projection.intake.receive demand.eventName demand.eventId demand.artifactRef
    demand.judgmentId with
  | .error refusal => .error refusal
  | .ok (result, intake) =>
    if result.action = .opened then
      (judgmentOf rulesStore demand).map fun judgment ↦
        ⟨intake, projection.judgments.insert demand.artifactRef judgment⟩
    else .ok ⟨intake, projection.judgments⟩

def rebuild (digest : String → String) (demandEvents : List Demand)
    (persisted : OrderedDict String EvidenceRecord) (rulesStore : RulesStore) :
    Except Refusal Projection := do
  let intake ← markPersisted digest persisted
  demandEvents.foldlM (replayDemand rulesStore) ⟨intake, .empty⟩

/-- The intake in which exactly the artifacts with a persisted record are terminal. -/
def persistedIntake (digest : String → String) (persisted : OrderedDict String EvidenceRecord) :
    Intake :=
  ⟨[], .empty, persisted.mapValues (verdictRef digest)⟩

variable {digest : String → String}

theorem foldlM_markTerminal {entries : List (String × EvidenceRecord)} {intake : Intake}
    (hopen : intake.openJudgments = .empty)
    (hkeys : (intake.terminalVerdicts.keys ++ entries.map Prod.fst).Nodup) :
    entries.foldlM (fun intake entry ↦ intake.markTerminal entry.1 (verdictRef digest entry.2))
        intake = .ok ⟨intake.seenEventIds, .empty, entries.foldl
        (fun dict entry ↦ dict.insert entry.1 (verdictRef digest entry.2))
          intake.terminalVerdicts⟩ := by
  induction entries generalizing intake with
  | nil => exact congrArg Except.ok (by rw [← hopen]; rfl)
  | cons entry rest ih =>
    rw [map_cons, List.nodup_append] at hkeys
    have hnot : entry.1 ∉ intake.terminalVerdicts.keys := fun hmem ↦
      hkeys.2.2 entry.1 hmem entry.1 mem_cons_self rfl
    have hnone := (get?_eq_none_iff _).mpr hnot
    rw [foldlM_cons, Intake.markTerminal_of_none hnone]
    refine (@ih (intake.terminal entry.1 (verdictRef digest entry.2)) ?_ ?_).trans rfl
    · change intake.openJudgments.erase entry.1 = .empty
      rw [hopen]
      rfl
    · obtain ⟨hnew, hrest⟩ := nodup_cons.mp hkeys.2.1
      refine List.nodup_append.mpr ⟨(intake.terminalVerdicts.insert entry.1 _).nodup, hrest, ?_⟩
      intro first hfirst second hsecond hsame
      rcases (mem_keys_insert _).mp hfirst with rfl | hmem
      · exact hnew (hsame ▸ hsecond)
      · exact hkeys.2.2 first hmem second (mem_cons_of_mem _ hsecond) hsame

theorem markPersisted_eq (persisted : OrderedDict String EvidenceRecord) :
    markPersisted digest persisted = .ok (persistedIntake digest persisted) := by
  unfold markPersisted persistedIntake
  rw [foldlM_markTerminal rfl]
  · congr 2
    apply ext
    rw [items_foldl_insert Prod.fst (fun entry ↦ verdictRef digest entry.2)]
    · rfl
    · exact persisted.nodup
  · exact persisted.nodup

/-! ### Demands -/

namespace Engine

variable (engine : Engine)

/-- The engine answers the demand: its event is consumed, and where it opens a judgment it is well
formed. -/
def Takes (demand : Demand) : Prop :=
  demand.eventName ∈ consumed ∧ (engine.Fresh demand → demand.WellFormed engine.rulesStore)

def handling (demands : List Demand) : Engine :=
  demands.foldl (fun engine demand ↦ (engine.handleDemand demand).2) engine

/-- The engine answers every one of the demands in its turn. -/
def TakesAll (engine : Engine) : List Demand → Prop
  | [] => True
  | demand :: rest => engine.Takes demand ∧ TakesAll (engine.handleDemand demand).2 rest

variable {engine}

theorem rulesStore_handleDemand (demand : Demand) :
    (engine.handleDemand demand).2.rulesStore = engine.rulesStore := by
  unfold handleDemand
  split
  · rfl
  split
  · split
    · rfl
    · rfl
  · rfl

theorem exists_answer_iff (hrules : engine.rulesStore.Monotonic) (demand : Demand) :
    (∃ result, (engine.handleDemand demand).1 = .ok result) ↔ engine.Takes demand := by
  unfold Takes
  by_cases hfresh : engine.Fresh demand
  · rw [handleDemand_of_fresh hfresh, ← exists_judgmentOf_iff hrules]
    cases judgmentOf engine.rulesStore demand with
    | error refusal => simp [hfresh]
    | ok judgment => simp [hfresh.1]
  · simp only [hfresh, false_imp_iff, and_true]
    unfold handleDemand
    by_cases hconsumed : demand.eventName ∈ consumed
    · cases hreceived : engine.intake.receive demand.eventName demand.eventId demand.artifactRef
        demand.judgmentId with
      | error refusal =>
        unfold Intake.receive at hreceived
        rw [if_neg (not_not_intro hconsumed)] at hreceived
        split at hreceived
        · cases hreceived
        split at hreceived
        · cases hreceived
        split at hreceived
        · cases hreceived
        · cases hreceived
      | ok received =>
        obtain ⟨result, intake⟩ := received
        have hnot : result.action ≠ .opened := by
          intro hopened
          obtain ⟨-, hseen, hfree, -⟩ := Intake.receive_opened hreceived hopened
          exact hfresh ⟨hconsumed, hseen, hfree⟩
        simp [hnot, hconsumed]
    · simp [Intake.receive, hconsumed]

/-- The rebuild does with a demand what the engine does, unless it raises. -/
theorem replayDemand_eq (demand : Demand) :
    replayDemand engine.rulesStore engine.projection demand =
      (engine.handleDemand demand).1.map fun _ ↦ (engine.handleDemand demand).2.projection := by
  unfold replayDemand handleDemand projection
  cases engine.intake.receive demand.eventName demand.eventId demand.artifactRef
    demand.judgmentId with
  | error refusal => rfl
  | ok received =>
    obtain ⟨result, intake⟩ := received
    by_cases hopened : result.action = .opened
    · simp only [if_pos hopened]
      cases judgmentOf engine.rulesStore demand with
      | error refusal | ok judgment => rfl
    · simp only [if_neg hopened]
      rfl

/-- Replayed demands end well exactly when each is taken, and then where the live engine is. -/
theorem foldlM_replayDemand (hrules : engine.rulesStore.Monotonic) (demands : List Demand)
    (projection : Projection) :
    demands.foldlM (replayDemand engine.rulesStore) engine.projection = .ok projection ↔
      engine.TakesAll demands ∧ projection = (engine.handling demands).projection := by
  induction demands generalizing engine with
  | nil =>
    rw [foldlM_nil]
    constructor
    · intro hsame
      cases hsame
      exact ⟨trivial, rfl⟩
    · rintro ⟨-, rfl⟩
      rfl
  | cons demand rest ih =>
    have hnext : (engine.handleDemand demand).2.rulesStore.Monotonic := by
      rw [rulesStore_handleDemand]
      exact hrules
    have hrest := @ih (engine.handleDemand demand).2 hnext
    rw [rulesStore_handleDemand] at hrest
    rw [foldlM_cons, replayDemand_eq, Checked.bind_eq_ok_iff]
    constructor
    · rintro ⟨after, hafter, hlast⟩
      obtain ⟨result, hresult, rfl⟩ := Checked.map_eq_ok_iff.mp hafter
      obtain ⟨hall, hprojection⟩ := hrest.mp hlast
      exact ⟨⟨(exists_answer_iff hrules demand).mp ⟨result, hresult⟩, hall⟩, hprojection⟩
    · rintro ⟨⟨htakes, hall⟩, hprojection⟩
      obtain ⟨result, hresult⟩ := (exists_answer_iff hrules demand).mpr htakes
      exact ⟨_, Checked.map_eq_ok_iff.mpr ⟨result, hresult, rfl⟩, hrest.mpr ⟨hall, hprojection⟩⟩

end Engine

/-- The engine before any demand, with the persisted records of an earlier process. -/
def restarted (digest : String → String) (persisted : OrderedDict String EvidenceRecord)
    (rulesStore : RulesStore) : Engine :=
  ⟨rulesStore, persistedIntake digest persisted, .empty, .empty, []⟩

/-- A rebuild ends well exactly when the live engine takes every demand, and then with its open
judgments and its intake. -/
theorem rebuild_eq_ok_iff {demandEvents : List Demand}
    {persisted : OrderedDict String EvidenceRecord} {rulesStore : RulesStore}
    (hrules : rulesStore.Monotonic) {projection : Projection} :
    rebuild digest demandEvents persisted rulesStore = .ok projection ↔
      (restarted digest persisted rulesStore).TakesAll demandEvents ∧
        projection = ((restarted digest persisted rulesStore).handling
          demandEvents).projection := by
  unfold rebuild
  rw [markPersisted_eq]
  exact @Engine.foldlM_replayDemand (restarted digest persisted rulesStore) hrules demandEvents
    projection

end AbsoluteZero.Verification

import AbsoluteZero.Kernel.DefaultConfig
import AbsoluteZero.Kernel.Delivery
import AbsoluteZero.Kernel.Possible

/-!
# Pinning

An entry carries the version number of the snapshot it was admitted under, and its transitions are
decided by the view cached under that number. The sender chooses the numbers; every entry stays
decided by its own snapshot exactly when every configuration change leaves the pins alone
(`Coordinator.pinned_iff`).
-/

namespace AbsoluteZero.Kernel

open Foundations Coordinator

/-- What the actions on behalf of an envelope that installs nothing keep: the snapshots, and the
pins of the entries there were. A new entry is pinned to the current version. -/
structure Core.KeptFrom (core : Core) (env : Json) (next : Core) : Prop where
  configs : next.configs = core.configs
  config : next.config = core.config
  entries : ∀ requestId entry, next.ledger.get? requestId = some entry →
    entry.requestId = requestId ∧ entry.configVersion =
      (core.ledger.get? requestId).elim core.config.version RequestState.configVersion
  present : PerRequest env → ∀ requestId, next.ledger.get? requestId = none →
    core.ledger.get? requestId = none

variable {env : Json}

theorem Core.KeptFrom.insert {core next : Core} (hnext : core.KeptFrom env next)
    {requestId : Json} {entry : RequestState} (hid : entry.requestId = requestId)
    (hversion : entry.configVersion =
      (core.ledger.get? requestId).elim core.config.version RequestState.configVersion)
    (log : List Record) (published : List Publication) : core.KeptFrom env { next with
      ledger := next.ledger.insert requestId entry, log := log, published := published } where
  configs := hnext.configs
  config := hnext.config
  entries other found hfound := by
    rw [OrderedDict.get?_insert] at hfound
    split at hfound
    · next heq =>
      cases hfound
      exact heq ▸ ⟨hid, hversion⟩
    · exact hnext.entries other found hfound
  present henv other hnone := by
    rw [OrderedDict.get?_insert] at hnone
    split at hnone
    · cases hnone
    · exact hnext.present henv other hnone

theorem perRequest_of_received
    (hname : env.item "event_name" = .str "request.received") : PerRequest env :=
  ⟨by rw [hname]; decide, by rw [hname]; decide⟩

/-- Every possible action but an installation keeps them. -/
theorem Core.KeptFrom.act {core next : Core} {action : Action}
    (hnever : env.item "event_name" ≠ .str "config.changed") (hpossible : next.Possible env action)
    (hnext : core.KeptFrom env next) : core.KeptFrom env (next.act action) := by
  cases hpossible with
  | configure hinstalls => exact absurd hinstalls.2.1 hnever
  | mark | absorb => exact { hnext with }
  | strand hnew =>
    have hfresh := hnext.present (perRequest_of_received hnew.name) _ hnew.fresh
    refine hnext.insert rfl ?_ _ _
    change next.config.version =
      (core.ledger.get? (env.item "request_id")).elim core.config.version RequestState.configVersion
    rw [hfresh]
    exact congrArg ConfigView.version hnext.config
  | @admission row guardResult info unit hnew happlied =>
    have hfresh := hnext.present (perRequest_of_received hnew.name) _ hnew.fresh
    obtain ⟨hrecord, hid, hversion⟩ := applied_fixed happlied
    rw [Core.act, hrecord]
    refine hnext.insert hid ?_ _ _
    change unit.entry.configVersion =
      (core.ledger.get? (env.item "request_id")).elim core.config.version RequestState.configVersion
    rw [hversion, hfresh]
    exact congrArg ConfigView.version hnext.config
  | @advance entry event row guardResult config info unit _ hentry happlied =>
    obtain ⟨hfound, hpinned⟩ := hnext.entries _ _ hentry
    obtain ⟨hrecord, hid, hversion⟩ := applied_fixed happlied
    rw [Core.act, hrecord, hfound]
    exact hnext.insert (hid.trans hfound) (hversion.trans hpinned) _ _
  | @clean requestId entry hname =>
    refine ⟨hnext.configs, hnext.config, fun other found hfound ↦ ?_, fun henv ↦ ?_⟩
    · change (next.ledger.erase requestId).get? other = some found at hfound
      exact hnext.entries other found (OrderedDict.get?_of_erase hfound).2
    · exact absurd (by rw [hname]; decide) henv.2

/-- What an envelope does to the snapshots and to the pins of the entries, whatever the tables are:
it installs a snapshot and touches no entry, or it leaves the snapshots and every entry it keeps is
pinned as before, a new one to the current version. -/
theorem Core.step_cases {core : Core} (hids : ∀ requestId entry,
    core.ledger.get? requestId = some entry → entry.requestId = requestId) (halted : Bool)
    (env : Json) :
    (∃ view, core.Installs env view ∧ (core.step (halted, env)).configs = core.configs.put view ∧
      (core.step (halted, env)).config = view ∧ (core.step (halted, env)).ledger = core.ledger) ∨
    ((∀ view, ¬ core.Installs env view) ∧ (core.step (halted, env)).configs = core.configs ∧
      (core.step (halted, env)).config = core.config ∧
      ∀ requestId entry, (core.step (halted, env)).ledger.get? requestId = some entry →
        entry.requestId = requestId ∧ entry.configVersion =
            (core.ledger.get? requestId).elim core.config.version RequestState.configVersion) := by
  have hrefl : core.KeptFrom env core := ⟨rfl, rfl, fun requestId entry hentry ↦
    ⟨hids requestId entry hentry, by rw [hentry]; rfl⟩, fun _ _ hnone ↦ hnone⟩
  by_cases hconfig : env.item "event_name" = .str "config.changed"
  · unfold step decide
    cases hvalid : Envelope.validate env core.config.inboundEvents with
    | error reason =>
      refine Or.inr ⟨fun view hinstalls ↦ ?_, rfl, rfl, hrefl.entries⟩
      rw [hinstalls.1] at hvalid
      cases hvalid
    | ok valid =>
      rw [if_pos hconfig, configDecision]
      cases hview : ConfigView.ofData ((env.item "payload").item "snapshot") with
      | error reason =>
        refine Or.inr ⟨fun view hinstalls ↦ ?_, rfl, rfl, hrefl.entries⟩
        rw [hinstalls.2.2] at hview
        cases hview
      | ok view => exact Or.inl ⟨view, ⟨hvalid, hconfig, hview⟩, rfl, rfl, rfl⟩
  · have hkept := IsPlan.keeps (core.KeptFrom env)
      (fun next action hpossible hnext ↦ Core.KeptFrom.act hconfig hpossible hnext)
      (core.decide_possible halted env) hrefl
    exact Or.inr ⟨fun view hinstalls ↦ hconfig hinstalls.2.1, hkept.configs, hkept.config,
      hkept.entries⟩

/-- What holds of entries and snapshots whatever the tables are: an entry carries its request id,
the snapshot it is pinned to is cached, and so is the current one. -/
structure Core.Anchored (core : Core) : Prop where
  ids : ∀ requestId entry, core.ledger.get? requestId = some entry → entry.requestId = requestId
  pinned : ∀ requestId entry, core.ledger.get? requestId = some entry →
    ∃ view, core.configs.at? entry.configVersion = some view
  current : core.configs.at? core.config.version = some core.config

theorem Core.anchored_init (view : ConfigView) : (Core.init view).Anchored where
  ids requestId entry hentry := by cases hentry
  pinned requestId entry hentry := by cases hentry
  current := ConfigCache.at?_put_self

theorem Core.Anchored.step {core : Core} (hcore : core.Anchored) (halted : Bool) (env : Json) :
    (core.step (halted, env)).Anchored := by
  rcases core.step_cases hcore.ids halted env with
    ⟨view, -, hconfigs, hconfig, hledger⟩ | ⟨-, hconfigs, hconfig, hentries⟩
  · refine ⟨?_, fun requestId entry hentry ↦ ?_, ?_⟩
    · rw [hledger]
      exact hcore.ids
    · rw [hledger] at hentry
      rw [hconfigs]
      exact ConfigCache.exists_at?_put (hcore.pinned requestId entry hentry)
    · rw [hconfigs, hconfig]
      exact ConfigCache.at?_put_self
  · refine ⟨fun requestId entry hentry ↦ (hentries requestId entry hentry).1,
      fun requestId entry hentry ↦ ?_, by rw [hconfigs, hconfig]; exact hcore.current⟩
    rw [(hentries requestId entry hentry).2, hconfigs]
    cases hold : core.ledger.get? requestId with
    | none => exact ⟨core.config, hcore.current⟩
    | some earlier => exact hcore.pinned requestId earlier hold

variable (accepts : Nat → Bool) (clock : Nat → Json) (view : ConfigView) (envs : List Json)

theorem Coordinator.anchored_run : ((init { accepts := accepts } clock view).run
    envs).core.Anchored := by
  rw [core_run, core_init _ _ _ rfl]
  exact List.foldlRecOn _ Core.step (Core.anchored_init view) fun _ hstate input _ ↦
    hstate.step input.1 input.2

/-! ### The snapshot of the admission -/

/-- An envelope that leaves the pins of the entries alone: a snapshot it installs under a version
that an entry is pinned to is the one cached under that version. -/
def Core.KeepsPins (core : Core) (env : Json) : Prop :=
  ∀ view, core.Installs env view → ∀ requestId entry, core.ledger.get? requestId = some entry →
    ConfigView.versionKey? entry.configVersion = ConfigView.versionKey? view.version →
      pinnedView core.configs core.config entry = view

/-- Envelopes none of which changes the configuration leave the pins alone. -/
theorem Core.keepsPins_of_forall_ne {envs : List Json}
    (hnames : ∀ env ∈ envs, env.item "event_name" ≠ .str "config.changed") {before : List Json}
    (hbefore : before ++ [env] <+: envs) (core : Core) : core.KeepsPins env :=
  fun _ hinstalls ↦ absurd hinstalls.2.1 (hnames env (hbefore.subset (by simp)))

/-- A coordinator next to the snapshots that were current when its entries were made. -/
structure Tracked where
  coord : Coordinator
  admittedUnder : Json → ConfigView

namespace Tracked

/-- Handle an envelope, noting the current snapshot for every request that has no entry yet. -/
def step (tracked : Tracked) (env : Json) : Tracked where
  coord := tracked.coord.step env
  admittedUnder requestId :=
    match tracked.coord.ledger.get? requestId with
    | some _ => tracked.admittedUnder requestId
    | none => tracked.coord.config

/-- A new coordinator tracked through a sequence of envelopes. -/
def run :
    Tracked :=
  envs.foldl step ⟨.init { accepts := accepts } clock view, fun _ ↦ view⟩

/-- The transitions of every entry are decided by the snapshot it was admitted under. -/
def Pinned (tracked : Tracked) : Prop :=
  ∀ requestId entry, tracked.coord.ledger.get? requestId = some entry →
    tracked.coord.pinned entry = tracked.admittedUnder requestId

theorem coord_run : (run accepts clock view envs).coord =
      (Coordinator.init { accepts := accepts } clock view).run envs :=
  (List.foldl_hom coord fun _ _ ↦ rfl).symm

/-- Assumes: every entry is decided by the snapshot it was admitted under. It stays so exactly when
the envelope leaves the pins alone. -/
theorem pinned_step_iff {tracked : Tracked} (hanchored : tracked.coord.core.Anchored)
    (hpinned : tracked.Pinned) (env : Json) :
    (tracked.step env).Pinned ↔ tracked.coord.core.KeepsPins env := by
  have hstep := core_step tracked.coord env
  have hadmitted (requestId : Json) (entry : RequestState)
      (hentry : tracked.coord.ledger.get? requestId = some entry) :
      (tracked.step env).admittedUnder requestId = tracked.admittedUnder requestId := by
    simp only [step, hentry]
  have hpin (entry : RequestState) : (tracked.step env).coord.pinned entry =
      pinnedView (tracked.coord.step env).core.configs (tracked.coord.step env).core.config
        entry := rfl
  rcases tracked.coord.core.step_cases hanchored.ids tracked.coord.halted env with
    ⟨view, hinstalls, hconfigs, hconfig, hledger⟩ | ⟨hnever, hconfigs, hconfig, hentries⟩
  · -- A snapshot is installed: the pin of an entry moves only if it has the same version.
    rw [← hstep] at hconfigs hconfig hledger
    have hmoved (requestId : Json) (entry : RequestState)
        (hentry : tracked.coord.ledger.get? requestId = some entry) :
        (tracked.step env).coord.pinned entry =
          if ConfigView.versionKey? entry.configVersion = ConfigView.versionKey? view.version
          then view else tracked.coord.pinned entry := by
      obtain ⟨cached, hcached⟩ := hanchored.pinned requestId entry hentry
      rw [hpin, pinnedView, hconfigs, hconfig, ConfigCache.at?_put]
      split
      · rfl
      · change (tracked.coord.core.configs.at? entry.configVersion).getD view =
          (tracked.coord.core.configs.at? entry.configVersion).getD tracked.coord.config
        rw [hcached]
        rfl
    constructor
    · intro hafter other hother requestId entry hentry hversion
      have hview : other = view := by
        have heq := hother.2.2.symm.trans hinstalls.2.2
        exact Except.ok.inj heq
      have hkept := hafter requestId entry (by
        change (tracked.coord.step env).core.ledger.get? requestId = some entry
        rw [hledger]
        exact hentry)
      rw [hmoved requestId entry hentry, ← hview, if_pos hversion,
        hadmitted requestId entry hentry] at hkept
      exact (hpinned requestId entry hentry).trans hkept.symm
    · intro hkeeps requestId entry hentry
      have hold : tracked.coord.ledger.get? requestId = some entry := by
        change tracked.coord.core.ledger.get? requestId = some entry
        rw [← hledger]
        exact hentry
      rw [hmoved requestId entry hold, hadmitted requestId entry hold]
      split
      · next hversion =>
        rw [← hkeeps view hinstalls requestId entry hold hversion]
        exact hpinned requestId entry hold
      · exact hpinned requestId entry hold
  · rw [← hstep] at hconfigs hconfig hentries
    refine iff_of_true (fun requestId entry hentry ↦ ?_) fun view hinstalls ↦
      absurd hinstalls (hnever view)
    have hversion := (hentries requestId entry hentry).2
    rw [hpin, pinnedView, hconfigs, hconfig, hversion]
    cases hold : tracked.coord.ledger.get? requestId with
    | none =>
      simp only [step, core_ledger, hold]
      exact congrArg (Option.getD · _) hanchored.current
    | some earlier =>
      rw [hadmitted requestId earlier hold, ← hpinned requestId earlier hold, core_ledger, hold]
      rfl

end Tracked

/-- In a run, every transition of a request is decided by the snapshot that was current when the
request was admitted, at every point of the run, if and only if every envelope leaves the pins
alone. -/
theorem Coordinator.pinned_iff :
    (∀ before, before <+: envs → (Tracked.run accepts clock view before).Pinned) ↔
      ∀ before env, before ++ [env] <+: envs →
        ((init { accepts := accepts } clock view).run before).core.KeepsPins env := by
  have hanchored (before : List Json) :
      (Tracked.run accepts clock view before).coord.core.Anchored := by
    rw [Tracked.coord_run]
    exact anchored_run accepts clock view before
  have hnext (before : List Json) (env : Json) : Tracked.run accepts clock view (before ++ [env]) =
      (Tracked.run accepts clock view before).step env := List.foldl_append
  constructor
  · intro hpinned before env hbefore
    have hafter := hpinned (before ++ [env]) hbefore
    rw [hnext, Tracked.pinned_step_iff (hanchored before)
      (hpinned before ((List.prefix_append before [env]).trans hbefore)),
      Tracked.coord_run] at hafter
    exact hafter
  · intro hkeeps before
    induction before using List.reverseRecOn with
    | nil => exact fun _ requestId entry hentry ↦ by cases hentry
    | append_singleton before env ih =>
      intro hbefore
      have hpinned := ih ((List.prefix_append before [env]).trans hbefore)
      rw [hnext, Tracked.pinned_step_iff (hanchored before) hpinned, Tracked.coord_run]
      exact hkeeps before env hbefore

/-- A request in flight, and a snapshot under the version it is pinned to with another replan
bound. -/
def reusedVersionRun : List Json :=
  [Envelope.inbound "e1" "request.received" "r1" [("declared_type", .str "type.alpha")],
    Envelope.system "e2" "config.changed" [("snapshot", snapshot [("fault_policy",
      .obj [("max_replans", .int 0), ("max_active_requests", .int 1000)])])]]

/-- The snapshot that decides the request is no longer the one it was admitted under. -/
theorem reusedVersionRun_not_pinned :
    ¬ (Tracked.run (fun _ ↦ true) (fun _ ↦ .int 0) defaultView reusedVersionRun).Pinned := by
  intro hpinned
  have hmoved : ∃ entry ∈ (Tracked.run (fun _ ↦ true) (fun _ ↦ .int 0) defaultView
      reusedVersionRun).coord.ledger.get? (.str "r1"),
      ((Tracked.run (fun _ ↦ true) (fun _ ↦ .int 0) defaultView
        reusedVersionRun).coord.pinned entry).data ≠
      ((Tracked.run (fun _ ↦ true) (fun _ ↦ .int 0) defaultView
        reusedVersionRun).admittedUnder (.str "r1")).data := by
    decide +kernel
  obtain ⟨entry, hentry, hdata⟩ := hmoved
  exact hdata (congrArg ConfigView.data (hpinned (.str "r1") entry hentry))

end AbsoluteZero.Kernel

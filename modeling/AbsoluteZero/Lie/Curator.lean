import AbsoluteZero.Lie.Publications

/-!
# The curator

`Curator` keeps the rulesets that it has adopted, and adopts one only when the version advances.
With no other rulesets, equal derivation states of a runtime identify one layer.
-/

namespace AbsoluteZero.Lie

open Foundations List

/-- The rulesets of a `Curator`; its overlay is that of the runtime. -/
structure Curator where
  rulesets : OrderedDict Nat DerivationRuleset
  currentRuleset : DerivationRuleset

namespace Curator

def new (ruleset : DerivationRuleset) : Curator where
  rulesets := OrderedDict.empty.insert ruleset.version ruleset
  currentRuleset := ruleset

def rulesetVersion (curator : Curator) (version : Nat) : Option DerivationRuleset :=
  curator.rulesets.get? version

/-- `adopt_ruleset`, with the text of the refusal. -/
def adoptRuleset (curator : Curator) (ruleset : DerivationRuleset) : Except String Curator :=
  if ruleset.version ≤ curator.currentRuleset.version then
    .error ("curator.ruleset_version_not_advancing:current=" ++
      toString curator.currentRuleset.version ++ ":proposed=" ++ toString ruleset.version)
  else .ok ⟨curator.rulesets.insert ruleset.version ruleset, ruleset⟩

/-- Every ruleset stands under its own version, and none beyond the current one. -/
def Keeps (curator : Curator) : Prop :=
  ∀ version ruleset, curator.rulesetVersion version = some ruleset →
    ruleset.version = version ∧ version ≤ curator.currentRuleset.version

theorem rulesetVersion_insert (rulesets : OrderedDict Nat DerivationRuleset)
    (ruleset : DerivationRuleset) (version : Nat) :
    rulesetVersion ⟨rulesets.insert ruleset.version ruleset, ruleset⟩ version =
      if ruleset.version = version then some ruleset else rulesets.get? version :=
  OrderedDict.get?_insert ..

theorem keeps_new (ruleset : DerivationRuleset) : (new ruleset).Keeps := by
  intro version found hfound
  rw [new, rulesetVersion_insert] at hfound
  split at hfound <;> cases hfound
  next hversion => exact ⟨hversion, hversion.ge⟩

variable {curator adopted : Curator} {ruleset : DerivationRuleset}

/-- An adoption adds a ruleset and takes none away. -/
theorem Keeps.adoptRuleset (hkeeps : curator.Keeps)
    (hadopted : curator.adoptRuleset ruleset = .ok adopted) :
    adopted.Keeps ∧ ∀ version found, curator.rulesetVersion version = some found →
      adopted.rulesetVersion version = some found := by
  unfold Curator.adoptRuleset at hadopted
  split at hadopted
  · cases hadopted
  next hadvances =>
  cases hadopted
  refine ⟨fun version found hfound ↦ ?_, fun version found hfound ↦ ?_⟩
  · rw [rulesetVersion_insert] at hfound
    split at hfound
    · next hversion =>
      cases hfound
      exact ⟨hversion, hversion.ge⟩
    · obtain ⟨hversion, hcurrent⟩ := hkeeps version found hfound
      exact ⟨hversion, hcurrent.trans (Nat.le_of_not_le hadvances)⟩
  · rw [rulesetVersion_insert, if_neg]
    · exact hfound
    · rintro rfl
      exact hadvances (hkeeps _ found hfound).2

end Curator

/-- A call of the curator, or one of the runtime: a changed ruleset is what the curator has under
some version. -/
inductive CuratedCall
  | adoptRuleset (ruleset : DerivationRuleset)
  | onRulesetChanged (version : Nat)
  | append (record : Record)
  | rule (note : Annotation)
  | onLedgerAppended
  | onCurationRuling
  | onRegenerate

/-- The call that reaches the runtime; `on_ruleset_changed(None)` is refused. -/
def CuratedCall.runtimeCall? (curator : Curator) : CuratedCall → Option RuntimeCall
  | .adoptRuleset _ => none
  | .onRulesetChanged version => (curator.rulesetVersion version).map .onRulesetChanged
  | .append record => some (.append record)
  | .rule note => some (.rule note)
  | .onLedgerAppended => some .onLedgerAppended
  | .onCurationRuling => some .onCurationRuling
  | .onRegenerate => some .onRegenerate

/-- A curator over a runtime with its publications. -/
structure Curated where
  curator : Curator
  history : History

namespace Curated

variable (digest : String → String)

def step (curated : Curated) (call : CuratedCall) : Curated where
  curator := match call with
    | .adoptRuleset ruleset =>
      (curated.curator.adoptRuleset ruleset).toOption.getD curated.curator
    | _ => curated.curator
  history := (call.runtimeCall? curated.curator).elim curated.history (curated.history.step digest)

def run (storage : Storage) (ruleset : DerivationRuleset) (calls : List CuratedCall) : Curated :=
  calls.foldl (step digest) ⟨.new ruleset, .run digest storage ruleset []⟩

/-- The ruleset of the runtime and those of its publications are the curator's. -/
structure Sound (curated : Curated) : Prop where
  keeps : curated.curator.Keeps
  recorded : curated.history.Recorded digest
  present : curated.curator.rulesetVersion curated.history.runtime.ruleset.version =
    some curated.history.runtime.ruleset
  published : ∀ publication ∈ curated.history.published,
    curated.curator.rulesetVersion publication.ruleset.version = some publication.ruleset

variable {digest} {curated : Curated}

/-- What a call of the runtime does to its ruleset and to what is published. -/
theorem step_rulesets (history : History) (call : RuntimeCall) :
    ((history.step digest call).runtime.ruleset = history.runtime.ruleset ∨
      call = .onRulesetChanged (history.step digest call).runtime.ruleset) ∧
    ∀ publication ∈ (history.step digest call).published,
      publication ∈ history.published ∨
        publication.ruleset = (history.step digest call).runtime.ruleset := by
  have hrepublish (runtime : LieRuntime) :
      (runtime.republish digest).ruleset = runtime.ruleset := by
    unfold LieRuntime.republish
    split <;> rfl
  have hrecord (runtime : LieRuntime) : ∀ publication ∈ (history.record digest runtime).published,
      publication ∈ history.published ∨ publication.ruleset = runtime.ruleset := by
    intro publication hmem
    rcases mem_append.mp hmem with hmem | hmem
    · exact .inl hmem
    · obtain ⟨layer, -, rfl⟩ := mem_map.mp hmem
      exact .inr rfl
  cases call with
  | append record =>
    refine ⟨.inl ?_, fun _ ↦ .inl⟩
    show (history.runtime.append record).ruleset = _
    unfold LieRuntime.append
    split <;> rfl
  | rule note =>
    refine ⟨.inl ?_, fun _ ↦ .inl⟩
    show (history.runtime.rule note).ruleset = _
    unfold LieRuntime.rule
    split <;> rfl
  | onRulesetChanged ruleset =>
    exact ⟨.inr (congrArg _ (hrepublish { history.runtime with ruleset := ruleset }).symm),
      hrecord _⟩
  | onLedgerAppended | onCurationRuling | onRegenerate =>
    exact ⟨.inl (hrepublish history.runtime), hrecord _⟩

/-- The runtime takes a call that changes the ruleset, if at all, to one of the curator's. -/
theorem Sound.runtime (hsound : curated.Sound digest) {call : RuntimeCall}
    (hkept : ∀ ruleset, call = .onRulesetChanged ruleset →
      curated.curator.rulesetVersion ruleset.version = some ruleset) :
    Sound digest ⟨curated.curator, curated.history.step digest call⟩ := by
  obtain ⟨hpresent, hpublished⟩ := @step_rulesets digest curated.history call
  have hruleset := hpresent.elim (fun hsame ↦ hsame ▸ hsound.present) (hkept _)
  refine ⟨hsound.keeps, hsound.recorded.step ?_, hruleset, fun publication hmem ↦ ?_⟩
  · cases call with
    | onRulesetChanged ruleset =>
      intro publication hmem hstate
      -- the curator has one ruleset under the version that the two states share
      have hversion : publication.ruleset.version = ruleset.version :=
        congrArg DerivationState.rulesetVersion
          ((hsound.recorded.state_eq hmem).symm.trans hstate)
      have hpublication := hsound.published publication hmem
      rw [hversion, hkept ruleset rfl] at hpublication
      exact (Option.some.inj hpublication).symm
    | _ => trivial
  · rcases hpublished publication hmem with hold | hnew
    · exact hsound.published publication hold
    · rw [hnew]
      exact hruleset

theorem Sound.step (hsound : curated.Sound digest) (call : CuratedCall) :
    (curated.step digest call).Sound digest := by
  cases call with
  | adoptRuleset ruleset =>
    show Sound digest ⟨(curated.curator.adoptRuleset ruleset).toOption.getD _, _⟩
    cases hadopted : curated.curator.adoptRuleset ruleset with
    | error text => exact hsound
    | ok adopted =>
      obtain ⟨hkeeps, hgrown⟩ := hsound.keeps.adoptRuleset hadopted
      exact ⟨hkeeps, hsound.recorded, hgrown _ _ hsound.present,
        fun publication hmem ↦ hgrown _ _ (hsound.published publication hmem)⟩
  | onRulesetChanged version =>
    show Sound digest ⟨_, ((curated.curator.rulesetVersion version).map _).elim _ _⟩
    cases hfound : curated.curator.rulesetVersion version with
    | none => exact hsound
    | some ruleset =>
      refine @Sound.runtime _ _ hsound (.onRulesetChanged ruleset) fun _ hchanged ↦ ?_
      cases hchanged
      rwa [(hsound.keeps version ruleset hfound).1]
  | append record => exact @Sound.runtime _ _ hsound (.append record) fun _ h ↦ by cases h
  | rule note => exact @Sound.runtime _ _ hsound (.rule note) fun _ h ↦ by cases h
  | onLedgerAppended => exact @Sound.runtime _ _ hsound .onLedgerAppended fun _ h ↦ by cases h
  | onCurationRuling => exact @Sound.runtime _ _ hsound .onCurationRuling fun _ h ↦ by cases h
  | onRegenerate => exact @Sound.runtime _ _ hsound .onRegenerate fun _ h ↦ by cases h

/-- Whatever rulesets are offered to the curator, and whichever it keeps take effect: after every
history equal derivation states identify one layer. -/
theorem history_identifies (digest : String → String) (storage : Storage)
    (ruleset : DerivationRuleset) (calls : List CuratedCall) :
    (run digest storage ruleset calls).history.Identifies := by
  have hsound : (run digest storage ruleset calls).Sound digest := by
    refine foldlRecOn calls _ ⟨Curator.keeps_new ruleset, History.recorded_new storage ruleset,
      OrderedDict.get?_insert_self .., fun _ hmem ↦ by cases hmem⟩
      fun curated hcurated call _ ↦ hcurated.step call
  exact hsound.recorded.stateIdentifies

end Curated

end AbsoluteZero.Lie

import AbsoluteZero.Foundations.Checked
import AbsoluteZero.Governance.Catalog

/-!
# Regeneration of snapshots

A compilation as of a catalog position reads the entries up to it, the documents listed there, and
whether these are deprecated by now. So every later append leaves its result as it is
(`StoreDesk.compileSnapshot_run`), a deprecation of a listed document excepted.
-/

namespace AbsoluteZero.Governance

open Foundations

variable (digest : Json → String)

namespace PolicyStore.SameAsOf

variable {position : Nat} {first second : PolicyStore}

theorem assemble (hsame : first.SameAsOf position second) :
    Governance.assemble second position = Governance.assemble first position := by
  rw [Governance.assemble, hsame.documentsAsOf, Governance.assemble]
  congr 1
  refine List.filterMap_congr fun ref href ↦ ?_
  rw [(hsame.documents ref href).1, (hsame.documents ref href).2]

theorem compileSnapshot (hsame : first.SameAsOf position second) (rulesetVersion : Nat) :
    Governance.compileSnapshot digest second position rulesetVersion =
      Governance.compileSnapshot digest first position rulesetVersion := by
  simp only [Governance.compileSnapshot, if_neg (not_lt.mpr hsame.reached.1),
    if_neg (not_lt.mpr hsame.reached.2), hsame.assemble, vocabularyAsOf, hsame.entries]

end PolicyStore.SameAsOf

variable {snapshot : CompiledSnapshot}

theorem snapshot_compileAssembled {assembled : List Assembled} {position : Nat}
    {vocabulary : Vocabulary} {rulesetVersion : Nat}
    (hsnapshot : (compileAssembled digest assembled position vocabulary rulesetVersion).snapshot =
      some snapshot) :
    checkVocabulary assembled vocabulary = [] ∧ checkScopeAndModifier assembled = [] ∧
      checkDependency assembled vocabulary = [] ∧ checkTotality assembled vocabulary = [] ∧
      conflictErrors assembled = [] ∧
      snapshot = constructSnapshot digest assembled position vocabulary rulesetVersion := by
  unfold compileAssembled at hsnapshot
  split at hsnapshot
  · cases hsnapshot
  · next hvocabulary =>
    split at hsnapshot
    · cases hsnapshot
    · next hscope =>
      split at hsnapshot
      · cases hsnapshot
      · next hdependency =>
        split at hsnapshot
        · cases hsnapshot
        · next htotality =>
          split at hsnapshot
          · cases hsnapshot
          · next hconflict =>
            refine ⟨not_not.mp hvocabulary, not_not.mp hscope, not_not.mp hdependency,
              not_not.mp htotality, not_not.mp hconflict, ?_⟩
            exact (Option.some.inj hsnapshot).symm

variable {store : PolicyStore} {result : CompileResult} {position rulesetVersion : Nat}

/-- What it takes for a compilation to return a snapshot. -/
theorem compileSnapshot_eq_ok
    (hresult : compileSnapshot digest store position rulesetVersion = .ok result) :
    position ≤ store.catalogPosition ∧ ∃ vocabulary, store.vocabularyAsOf position = some vocabulary
      ∧ result = compileAssembled digest (assemble store position) position vocabulary
        rulesetVersion := by
  obtain ⟨hposition, hpermitted⟩ := Checked.unless_eq_ok_iff.mp hresult
  obtain ⟨-, hfound⟩ := Checked.unless_eq_ok_iff.mp hpermitted
  split at hfound
  · cases hfound
  · next vocabulary hvocabulary =>
    exact ⟨not_lt.mp hposition, vocabulary, hvocabulary, (Except.ok.inj hfound).symm⟩

theorem compiled_at (hresult : compileSnapshot digest store position rulesetVersion = .ok result)
    (hsnapshot : result.snapshot = some snapshot) :
    snapshot.catalogPosition = position ∧ snapshot.compilerRulesetVersion = rulesetVersion := by
  obtain ⟨-, vocabulary, -, rfl⟩ := compileSnapshot_eq_ok digest hresult
  obtain ⟨-, -, -, -, -, rfl⟩ := snapshot_compileAssembled digest hsnapshot
  exact ⟨rfl, rfl⟩

theorem compiles_at (hresult : compileSnapshot digest store position rulesetVersion = .ok result)
    (hsnapshot : result.snapshot = some snapshot) :
    compileSnapshot digest store snapshot.catalogPosition snapshot.compilerRulesetVersion =
      .ok result := by
  obtain ⟨hat, hruleset⟩ := compiled_at digest hresult hsnapshot
  rw [hat, hruleset, hresult]

variable {recorded : SnapshotManifest}

/-- A manifest with the content hash of what its position and ruleset version compile to
regenerates. -/
theorem regenerate_of_compiles (hresult : compileSnapshot digest store recorded.catalogPosition
      recorded.compilerRulesetVersion = .ok result) (hsnapshot : result.snapshot = some snapshot)
    (hhash : snapshot.contentHash = recorded.contentHash) :
    regenerate digest store recorded = .ok snapshot := by
  unfold regenerate
  rw [hresult]
  simp only [Except.bind, bind, hsnapshot, hhash, ne_eq, not_true_eq_false, if_false]
  rfl

theorem contentHash_of_regenerate (hregenerate : regenerate digest store recorded = .ok snapshot) :
    snapshot.contentHash = recorded.contentHash := by
  obtain ⟨result, -, hsnapshot⟩ := Checked.bind_eq_ok_iff.mp hregenerate
  split at hsnapshot
  · cases hsnapshot
  · obtain ⟨hhash, hsame⟩ := Checked.unless_eq_ok_iff.mp hsnapshot
    cases hsame
    exact not_not.mp hhash

theorem reached_of_regenerate (hregenerate : regenerate digest store recorded = .ok snapshot) :
    recorded.catalogPosition ≤ store.catalogPosition := by
  obtain ⟨result, hresult, -⟩ := Checked.bind_eq_ok_iff.mp hregenerate
  exact (compileSnapshot_eq_ok digest hresult).1

/-- A manifest goes on regenerating after an entry that spares what is listed as of it. -/
theorem regenerate_extended (hsound : store.Sound) {payload : CatalogPayload}
    (hpermits : store.Permits payload) (hspares : store.Spares recorded.catalogPosition payload)
    (hregenerate : regenerate digest store recorded = .ok snapshot) :
    regenerate digest (store.extended payload) recorded = .ok snapshot := by
  have hsame := PolicyStore.SameAsOf.extended hsound (reached_of_regenerate digest hregenerate)
    hpermits hspares
  rw [← hregenerate, regenerate, hsame.compileSnapshot, regenerate]

/-- Assumes: no further append that storage commits deprecates a document version that is listed as
of the position and not deprecated yet. Then the position compiles to what it compiled to, and the
manifest of the compiled snapshot, under any version, regenerates. -/
theorem StoreDesk.compileSnapshot_run {storage : Storage} {history further : List Append}
    {desk : StoreDesk} (hdesk : desk = (fresh storage).run history) {position : Nat}
    (hposition : position ≤ desk.store.catalogPosition) (rulesetVersion : Nat)
    (hfurther : IsPlan performed (Spares position) desk further) :
    compileSnapshot digest (desk.run further).store position rulesetVersion =
      compileSnapshot digest desk.store position rulesetVersion ∧ ∀ result snapshot version,
      compileSnapshot digest desk.store position rulesetVersion = .ok result →
        result.snapshot = some snapshot →
        regenerate digest (desk.run further).store (snapshot.manifest version) = .ok snapshot := by
  have hsound : desk.store.Sound := hdesk ▸ sound_run_fresh storage history
  have hsame := (sameAsOf_run hsound hposition hfurther).compileSnapshot digest rulesetVersion
  refine ⟨hsame, fun result snapshot version hresult hsnapshot ↦ ?_⟩
  exact regenerate_of_compiles digest (compiles_at digest (hsame.trans hresult) hsnapshot)
    hsnapshot rfl

/-- A policy document of the system scope with one rule, authored against the first vocabulary. -/
def sampleDocument (name : String) (rule : Rule) : PolicyDocument where
  header :=
    { scope := .system
      name := name
      domainRefs := ["execution"]
      provenance := ⟨"alice", .str "epoch-0", "authoring"⟩
      vocabularyVersion := 1
      schemaVersion := 1 }
  rules := [rule]
  nodup := List.nodup_singleton _

/-- Running is allowed on every resource. -/
def allowRun : Rule where
  ruleId := "r1"
  target := ⟨"execution", "run", "*"⟩
  effect := .allow
  condition := none
  final := false

def sampleDesk : StoreDesk :=
  (StoreDesk.fresh ⟨.empty, []⟩).run
    [.vocabulary defaultVocabulary, .document (sampleDocument "baseline" allowRun) true]

/-- A second version of the document leaves what is compiled as of the position before it alone. -/
theorem StoreDesk.compileSnapshot_run_sample :
    compileSnapshot Json.repr (sampleDesk.run [.document (sampleDocument "baseline" allowRun)
      false]).store 2 1 = compileSnapshot Json.repr sampleDesk.store 2 1 := by
  have hdesk : sampleDesk = (fresh ⟨.empty, []⟩).run
    [.vocabulary defaultVocabulary, .document (sampleDocument "baseline" allowRun) true] := rfl
  have hplan : IsPlan performed (Spares 2) sampleDesk
    [.document (sampleDocument "baseline" allowRun) false] := ⟨fun _ ↦ trivial, trivial⟩
  exact (compileSnapshot_run Json.repr hdesk (by decide) 1 hplan).1

def sampleDeprecation : Append :=
  .deprecation (sampleDocument "baseline" allowRun).docId 1 ⟨"alice", .str "epoch-1", "superseded"⟩

/-- The number of entries that a compilation returns. -/
def entryCount (result : Except Refusal CompileResult) : Option Nat :=
  result.toOption.bind fun result ↦ result.snapshot.map fun snapshot ↦ snapshot.entries.length

def StoreDesk.activated (desk : StoreDesk) (result : Except Refusal CompileResult) : StoreDesk :=
  match result with
  | .ok result => (activate result).after desk
  | .error _ => desk

/-- A document is compiled, activated, and then deprecated: what is compiled as of the same position
no longer has its rule, and the activated manifest no longer regenerates. -/
theorem StoreDesk.later_deprecation_recompiles :
    let desk := sampleDesk.activated (compileSnapshot Json.repr sampleDesk.store 2 1)
    let later := desk.run [sampleDeprecation]
    entryCount (compileSnapshot Json.repr desk.store 2 1) = some 1 ∧
      entryCount (compileSnapshot Json.repr later.store 2 1) = some 0 ∧
      desk.store.activeSnapshotVersion = some 1 ∧
      (desk.store.manifests.map fun recorded ↦
        refusalKind (regenerate Json.repr desk.store recorded)) = [none] ∧
      (desk.store.manifests.map fun recorded ↦
        refusalKind (regenerate Json.repr later.store recorded)) =
          [some .regenerationMismatch] := by
  decide +kernel

end AbsoluteZero.Governance

import AbsoluteZero.Governance.Reference

/-!
# Grants and final rules

A grant turns an approval requirement into an allowance unless the winning entry is final. A final
rule that denies or asks for approval is immune to grants exactly if a denial wins, or a final rule
comes first among the approval requirements of the highest scope, or no grant covers the question
(`same_effect_iff`).
-/

namespace AbsoluteZero.Governance

open Foundations List

/-- The effect of a decision; none for any other end of an evaluation. -/
def effectOf : Except Refusal Outcome → Option Effect
  | .ok (.decision decision) => some decision.effect
  | _ => none

/-- Some grant of the slice covers the question and is not revoked in the slice. -/
def Covered (digest : Json → String) (slice : List GrantRecord) (question : Question) : Prop :=
  ∃ record ∈ slice, record.kind = .grant ∧ record.askSignature = askSignature digest question ∧
    ∀ other ∈ slice, other.kind = .revocation → other.grantId ≠ record.grantId

theorem isSome_coveringGrant (digest : Json → String) (slice : List GrantRecord)
    (question : Question) :
    (coveringGrant slice (askSignature digest question)).isSome ↔
      Covered digest slice question := by
  have hmem : ∀ record, record ∈ (slice.filter fun record ↦ record.kind = .grant ∧
      record.askSignature = askSignature digest question ∧ record.grantId ∉
        (slice.filter fun record ↦ record.kind = .revocation).map GrantRecord.grantId) ↔
      record ∈ slice ∧ record.kind = .grant ∧ record.askSignature = askSignature digest question ∧
        ∀ other ∈ slice, other.kind = .revocation → other.grantId ≠ record.grantId := by
    simp
  rw [coveringGrant, isSome_head?]
  constructor
  · intro hsome
    obtain ⟨record, hrecord⟩ := exists_mem_of_ne_nil _ hsome
    exact ⟨record, (hmem record).mp hrecord⟩
  · rintro ⟨record, hrecord⟩
    exact ne_nil_of_mem ((hmem record).mpr hrecord)

/-! ### The order of equal rules -/

def ScopedRule.orderKey (entry : ScopedRule) : String ×ₗ Citation :=
  toLex (entry.rule.target.resourceSelector, entry.citation)

/-- A final rule is the first among the approval requirements of the highest scope. -/
def FinalFirst (rules : List ScopedRule) : Prop :=
  ∃ rule ∈ topRules rules, rule.rule.final = true ∧ rule.rule.effect.kind = .requireApproval ∧
    ∀ other ∈ topRules rules, other.rule.effect.kind = .requireApproval →
      rule.orderKey ≤ other.orderKey

theorem pyEq_of_final {assembled : List Assembled} (hscopes : checkScopeAndModifier assembled = [])
    {final entry : ScopedRule} (hfinal : final ∈ scopedRules assembled)
    (hmarked : final.rule.final = true) (hentry : entry ∈ scopedRules assembled)
    (hscope : entry.scope ≠ .system)
    (hoverlap : targetsOverlap final.rule.target entry.rule.target = true) :
    final.rule.effect.pyEq entry.rule.effect = true := by
  unfold checkScopeAndModifier at hscopes
  simp only at hscopes
  split at hscopes
  · next hillegal => exact absurd (sortedBy_eq_nil.mp hscopes) hillegal
  · rw [sortedBy_eq_nil, flatMap_eq_nil_iff] at hscopes
    have hnone := hscopes final (mem_filter.mpr ⟨hfinal, hmarked⟩)
    rw [map_eq_nil_iff, filter_eq_nil_iff] at hnone
    have hentry := hnone entry hentry
    by_contra hne
    exact hentry (decide_eq_true ⟨hscope, hoverlap, hne⟩)

theorem targetsOverlap_of_targets {first second : ScopedRule} {domain operation resource : String}
    (hfirst : first.targets domain operation resource = true)
    (hsecond : second.targets domain operation resource = true) :
    targetsOverlap first.rule.target second.rule.target = true := by
  obtain ⟨haction, hselector⟩ := action_of_targets hfirst
  obtain ⟨haction', hselector'⟩ := action_of_targets hsecond
  obtain ⟨hdomain, hoperation⟩ := Prod.mk.inj (haction.trans haction'.symm)
  simp [targetsOverlap, hdomain, hoperation, selectorsOverlap_of_matches hselector hselector']

section Winner

variable {assembled : List Assembled} {domain operation resource : String} {facts : FactMap}
  {winner : ScopedRule}

theorem winner_denies_or_asks (hscopes : checkScopeAndModifier assembled = []) {final : ScopedRule}
    (hfinal : final ∈ matchingRules assembled domain operation resource facts)
    (hsystem : final.scope = .system) (hmarked : final.rule.final = true)
    (hkind : final.rule.effect.kind = .deny ∨ final.rule.effect.kind = .requireApproval)
    (hwinner : Strongest (matchingRules assembled domain operation resource facts) winner) :
    winner.rule.effect.kind = .deny ∨ winner.rule.effect.kind = .requireApproval := by
  obtain ⟨hmem, htargets, -⟩ := mem_matchingRules.mp hfinal
  obtain ⟨hmem', htargets', -⟩ := mem_matchingRules.mp hwinner.1
  by_cases hscope : winner.scope = .system
  · have htop : final ∈ topRules (matchingRules assembled domain operation resource facts) := by
      refine mem_topRules.mpr ⟨hfinal, fun other hother ↦ ?_⟩
      rw [hsystem, ← hscope]
      exact (mem_topRules.mp hwinner.mem_topRules).2 other hother
    have hpriority := hwinner.priority_le htop
    revert hpriority hkind
    cases final.rule.effect.kind <;> cases winner.rule.effect.kind <;> decide
  · have heffect := pyEq_of_final hscopes hmem hmarked hmem' hscope
      (targetsOverlap_of_targets htargets htargets')
    rwa [← (Effect.pyEq_iff.mp heffect).1]

theorem strongest_of_asks
    (hwinner : Strongest (matchingRules assembled domain operation resource facts) winner)
    (hasks : winner.rule.effect.kind = .requireApproval) {other : ScopedRule}
    (hother : other ∈ topRules (matchingRules assembled domain operation resource facts))
    (hkind : other.rule.effect.kind = .requireApproval) :
    Strongest (matchingRules assembled domain operation resource facts) other := by
  have hrank := rank_eq_of_mem_topRules hother hwinner.mem_topRules
  have heffect : other.rule.effect = winner.rule.effect :=
    Effect.eq_of_kind (hkind.trans hasks.symm) (by simp [hkind])
  have hstrength : other.strength = winner.strength := by
    simp only [ScopedRule.strength, hrank, heffect]
  exact ⟨(mem_topRules.mp hother).1, fun third hthird ↦ hstrength ▸ hwinner.2 third hthird⟩

/-- Entries of one action and scope are in the order of their selectors and citations. -/
theorem sortKey_le_iff {first second : ScopedRule} (decisions : Decisions)
    (haction : first.action = second.action) (hscope : first.scope = second.scope) :
    (indexEntry decisions first).sortKey ≤ (indexEntry decisions second).sortKey ↔
      first.orderKey ≤ second.orderKey := by
  obtain ⟨hdomain, hoperation⟩ := Prod.mk.inj haction
  simp [IndexEntry.sortKey, indexEntry, ScopedRule.orderKey, hdomain, hoperation, hscope,
    Prod.Lex.toLex_le_toLex]

theorem final_iff_finalFirst (hdistinct : DistinctCitations assembled)
    (hwins : Wins assembled (matchingRules assembled domain operation resource facts) winner)
    (hasks : winner.rule.effect.kind = .requireApproval) : winner.rule.final = true ↔
      FinalFirst (matchingRules assembled domain operation resource facts) := by
  have hwinner := hwins.strongest
  have horder : ∀ other ∈ topRules (matchingRules assembled domain operation resource facts),
      other.rule.effect.kind = .requireApproval → winner.orderKey ≤ other.orderKey := by
    intro other hother hkind
    have hrank := rank_eq_of_mem_topRules hwinner.mem_topRules hother
    have haction := (action_of_targets (mem_matchingRules.mp hwinner.1).2.1).1.trans
      (action_of_targets (mem_matchingRules.mp (mem_topRules.mp hother).1).2.1).1.symm
    exact (sortKey_le_iff _ haction (Scope.rank_injective hrank)).mp
      (hwins.first other (strongest_of_asks hwinner hasks hother hkind))
  constructor
  · exact fun hfinal ↦ ⟨winner, hwinner.mem_topRules, hfinal, hasks, horder⟩
  · rintro ⟨rule, hrule, hfinal, hkind, hfirst⟩
    have hkey := le_antisymm (hfirst winner hwinner.mem_topRules hasks) (horder rule hrule hkind)
    have heq := hdistinct.eq_of_citation (mem_matchingRules.mp (mem_topRules.mp hrule).1).1
      (mem_matchingRules.mp hwinner.1).1 (Prod.mk.inj hkey).2
    exact heq ▸ hfinal

end Winner

section Overlay

variable (digest : Json → String) {snapshot : CompiledSnapshot} {question : Question}
  {stamps : Stamps} {winner : IndexEntry} {matched : List Citation} {fallback : Bool}
  (hwon : matchAndWin snapshot question.domain question.operation question.resource
    (factDict question.facts) = .ok (winner, matched, fallback))

include hwon

theorem effectOf_ungranted {slice : List GrantRecord}
    (hungranted : grantOverlay digest slice question winner = none)
    (hkind : winner.effect.kind ≠ .allow) :
    effectOf (conclude stamps (decideQuestion digest snapshot slice question stamps)) =
      some winner.effect := by
  rw [decideQuestion_of_won digest slice hwon, hungranted]
  have heffect : decidedEffect winner none = winner.effect := rfl
  rw [heffect, attachConstraints, if_neg hkind]
  rfl

theorem effectOf_granted {slice : List GrantRecord} {record : GrantRecord}
    (hgranted : grantOverlay digest slice question winner = some record) :
    ∀ effect ∈ effectOf (conclude stamps (decideQuestion digest snapshot slice question stamps)),
      effect = .allow := by
  rw [decideQuestion_of_won digest slice hwon, hgranted]
  have heffect : decidedEffect winner (some record) = .allow := rfl
  rw [heffect]
  cases attachConstraints snapshot question .allow with
  | error interruption => cases interruption <;> nofun
  | ok constraints =>
    intro effect heq
    exact (Option.some.inj heq).symm

/-- A slice changes the effect exactly if it answers an open approval requirement. -/
theorem effectOf_eq_iff (slice : List GrantRecord) (hkind : winner.effect.kind ≠ .allow) :
    effectOf (conclude stamps (decideQuestion digest snapshot slice question stamps)) =
        effectOf (conclude stamps (decideQuestion digest snapshot [] question stamps)) ↔
      grantOverlay digest slice question winner = none := by
  have hempty : grantOverlay digest [] question winner = none := by
    rw [grantOverlay]
    split <;> rfl
  rw [effectOf_ungranted digest hwon hempty hkind]
  constructor
  · intro heffect
    cases hgrant : grantOverlay digest slice question winner with
    | none => rfl
    | some record =>
      have hallow := effectOf_granted digest hwon hgrant winner.effect heffect
      exact absurd (by rw [hallow]; rfl) hkind
  · exact fun hnone ↦ effectOf_ungranted digest hwon hnone hkind

end Overlay

/-- Assumes: the snapshot is compiled, the question is well formed, and a final rule of the system
scope matches that denies or asks for approval. A grant slice leaves the effect as it is exactly if
a condition of a rule about the question cannot be evaluated, a denial is among the matching rules
of the highest scope, a final rule comes first among their approval requirements, or no grant of the
slice covers the question. -/
theorem same_effect_iff (digest : Json → String) {store : PolicyStore}
    {position rulesetVersion : Nat} {result : CompileResult} {snapshot : CompiledSnapshot}
    (hresult : compileSnapshot digest store position rulesetVersion = .ok result)
    (hsnapshot : result.snapshot = some snapshot) {question : Question} {stamps : Stamps}
    (hinputs : checkInputs stamps = none)
    (hdefect : questionDefect snapshot question stamps = none) {matching : List ScopedRule}
    (hmatching : matching = matchingRules (assemble store position) question.domain
      question.operation question.resource (factDict question.facts))
    (hfinal : ∃ final ∈ matching, final.scope = .system ∧ final.rule.final = true ∧
      (final.rule.effect.kind = .deny ∨ final.rule.effect.kind = .requireApproval))
    (slice : List GrantRecord) : effectOf (evaluate digest snapshot slice question stamps none).1 =
        effectOf (evaluate digest snapshot [] question stamps none).1 ↔
      ¬ Determined (assemble store position) question.domain question.operation question.resource
          (factDict question.facts) ∨
        anyKind .deny (topRules matching) = true ∨ FinalFirst matching ∨
        ¬ Covered digest slice question := by
  have hcompiled := compiledFrom_assemble hresult hsnapshot
  obtain ⟨final, hmem, hsystem, hmarked, hkind⟩ := hfinal
  subst hmatching
  rw [evaluate_of_wellFormed digest slice hinputs hdefect,
    evaluate_of_wellFormed digest [] hinputs hdefect]
  by_cases hdetermined : Determined (assemble store position) question.domain question.operation
      question.resource (factDict question.facts)
  · obtain ⟨winner, fallback, hwins, hwon⟩ := matchAndWin_eq_ok hcompiled.entries
      hcompiled.conflicts hcompiled.distinct hdetermined (ne_nil_of_mem hmem)
    have hwinner := hwins.strongest
    have hask := winner_denies_or_asks hcompiled.scopes hmem hsystem hmarked hkind hwinner
    have hnever : (indexEntry (decisionsOf (assemble store position))
        winner).effect.kind ≠ .allow :=
      fun heq ↦ by rcases hask with hask | hask <;> exact nomatch hask.symm.trans heq
    rw [effectOf_eq_iff digest hwon slice hnever, grantOverlay]
    simp only [hdetermined, not_true_eq_false, false_or]
    rcases hask with hdenies | hasks
    · have hdeny := hwinner.anyKind_self
      rw [hdenies] at hdeny
      simp [indexEntry, hdenies, hdeny]
    · have hdeny := hwinner.anyKind_eq_false .deny (by simp [hasks, EffectKind.priority])
      have hfirst := final_iff_finalFirst hcompiled.distinct hwins hasks
      rw [← hfirst, ← isSome_coveringGrant, hdeny]
      cases hmark : winner.rule.final <;> simp [indexEntry, hasks, hmark]
  · obtain ⟨interruption, hstopped, -⟩ := matchAndWin_of_undetermined hcompiled hdetermined
    simp only [decideQuestion, hstopped]
    exact iff_of_true rfl (.inl hdetermined)

/-- Running needs approval on every resource, by a rule that may be final. -/
def askRun (final : Bool) : Rule where
  ruleId := "r1"
  target := ⟨"execution", "run", "*"⟩
  effect := .requireApproval
  condition := none
  final := final

/-- A desk with two rules of the system scope that ask for approval, one final and one not; the
documents stand in the order of their names. -/
def askingDesk (first second : Bool) : StoreDesk :=
  (StoreDesk.fresh ⟨.empty, []⟩).run [.vocabulary defaultVocabulary,
    .document (sampleDocument "a-baseline" (askRun first)) true,
    .document (sampleDocument "b-constitution" (askRun second)) true]

def askingResult (first second : Bool) : CompileResult :=
  compileAssembled Json.repr (assemble (askingDesk first second).store 3) 3 defaultVocabulary 1

def grantingSlice (question : Question) : List GrantRecord :=
  [⟨.grant, "grant-1", askSignature Json.repr question⟩]

/-- The final rule comes first: the grant changes nothing. -/
theorem same_effect_sample : ∃ snapshot, (askingResult true false).snapshot = some snapshot ∧
      effectOf (evaluate Json.repr snapshot (grantingSlice (runQuestion "db" []))
          (runQuestion "db" []) ⟨1, 1, 1⟩ none).1 =
        effectOf (evaluate Json.repr snapshot [] (runQuestion "db" []) ⟨1, 1, 1⟩ none).1 := by
  have hresult : compileSnapshot Json.repr (askingDesk true false).store 3 1 =
    .ok (askingResult true false) := rfl
  have hdefects : (askingResult true false).snapshot.map (fun snapshot ↦
    questionDefect snapshot (runQuestion "db" []) ⟨1, 1, 1⟩) = some none := by decide +kernel
  obtain ⟨snapshot, hsnapshot, hdefect⟩ := Option.map_eq_some_iff.mp hdefects
  have hfinal : ∃ final ∈ matchingRules (assemble (askingDesk true false).store 3) "execution"
      "run" "db" (factDict []), final.scope = .system ∧ final.rule.final = true ∧
        (final.rule.effect.kind = .deny ∨ final.rule.effect.kind = .requireApproval) := by
    decide +kernel
  have hfirst : FinalFirst (matchingRules (assemble (askingDesk true false).store 3) "execution"
      "run" "db" (factDict [])) := by
    unfold FinalFirst
    decide +kernel
  exact ⟨snapshot, hsnapshot, (same_effect_iff Json.repr hresult hsnapshot rfl hdefect rfl hfinal
    (grantingSlice (runQuestion "db" []))).mpr (.inr (.inr (.inl hfirst)))⟩

/-- The final rule comes second: a matching final rule asks for approval, and a grant allows. -/
theorem grant_loosens_final :
    compileSnapshot Json.repr (askingDesk false true).store 3 1 = .ok (askingResult false true) ∧
      (∃ final ∈ matchingRules (assemble (askingDesk false true).store 3) "execution" "run" "db"
        (factDict []), final.scope = .system ∧ final.rule.final = true ∧
          final.rule.effect.kind = .requireApproval) ∧
      (askingResult false true).snapshot.map (fun snapshot ↦
        (effectOf (evaluate Json.repr snapshot [] (runQuestion "db" []) ⟨1, 1, 1⟩ none).1,
          effectOf (evaluate Json.repr snapshot (grantingSlice (runQuestion "db" []))
            (runQuestion "db" []) ⟨1, 1, 1⟩ none).1)) =
        some (some .requireApproval, some .allow) :=
  ⟨rfl, by decide +kernel, by decide +kernel⟩

end AbsoluteZero.Governance

import AbsoluteZero.Governance.Overlap
import AbsoluteZero.Governance.Regeneration

/-!
# Precedence among the rules of a policy set

The three rules that decide a pair order the rules of an action by strength: by scope, then by
effect, then by the smaller limit. In a policy set without conflicts, one of two rules that can
match together shadows the other exactly if it is stronger (`mem_shadows_iff`).
-/

namespace AbsoluteZero.Governance

open Foundations SortedSet List

/-! ### Strength -/

/-- The strength of a rule: its scope, its effect, and for limits how small it is. -/
def ScopedRule.strength (entry : ScopedRule) : Nat ×ₗ Nat ×ₗ Rat :=
  toLex (entry.scope.rank, toLex (entry.rule.effect.kind.priority,
    -(entry.rule.effect.value.numeric?.getD 0)))

/-- What the decision on a pair says: the stronger rule eclipses the weaker one, and rules of equal
strength have equal effects. -/
inductive Decides (first second : ScopedRule) : PairDecision → Prop
  | first (decidedBy : DecidedBy) (hstrength : second.strength < first.strength) :
      Decides first second ⟨first.citation, second.citation, decidedBy, true⟩
  | second (decidedBy : DecidedBy) (hstrength : first.strength < second.strength) :
      Decides first second ⟨second.citation, first.citation, decidedBy, true⟩
  | neither (decidedBy : DecidedBy) (hstrength : first.strength = second.strength)
      (heffect : first.rule.effect.pyEq second.rule.effect = true) :
      Decides first second ⟨first.citation, second.citation, decidedBy, false⟩

variable {first second : ScopedRule}

theorem strength_lt_of_rank
    (hrank : second.scope.rank < first.scope.rank) : second.strength < first.strength :=
  Prod.Lex.toLex_lt_toLex.mpr (.inl hrank)

theorem strength_lt_of_priority (hrank : second.scope.rank = first.scope.rank)
    (hpriority : second.rule.effect.kind.priority < first.rule.effect.kind.priority) :
    second.strength < first.strength :=
  Prod.Lex.toLex_lt_toLex.mpr (.inr ⟨hrank, Prod.Lex.toLex_lt_toLex.mpr (.inl hpriority)⟩)

theorem strength_lt_of_limit {number number' : Rat} (hrank : second.scope.rank = first.scope.rank)
    (hpriority : second.rule.effect.kind.priority = first.rule.effect.kind.priority)
    (hnumber : first.rule.effect.value.numeric? = some number)
    (hnumber' : second.rule.effect.value.numeric? = some number') (hlt : number < number') :
    second.strength < first.strength := by
  refine Prod.Lex.toLex_lt_toLex.mpr (.inr ⟨hrank, Prod.Lex.toLex_lt_toLex.mpr
    (.inr ⟨hpriority, ?_⟩)⟩)
  simpa [hnumber, hnumber'] using hlt

theorem Effect.pyEq_iff {first second : Effect} :
    first.pyEq second = true ↔ first.kind = second.kind ∧ first.value.pyEq second.value = true := by
  rw [Effect.pyEq, Bool.and_eq_true, decide_eq_true_eq]

theorem Effect.eq_of_kind {first second : Effect} (hkind : first.kind = second.kind)
    (hpermission : first.kind ≠ .limit) : first = second := by
  have hvalue := value_of_ne_limit hpermission
  have hpermission' : second.kind ≠ .limit := hkind ▸ hpermission
  have hvalue' := value_of_ne_limit hpermission'
  obtain ⟨kind, value, hvalid⟩ := first
  obtain ⟨kind', value', hvalid'⟩ := second
  obtain rfl : value = .null := hvalue
  obtain rfl : value' = .null := hvalue'
  cases hkind
  rfl

theorem Effect.pyEq_self_of_ne_limit {effect : Effect} (hpermission : effect.kind ≠ .limit) :
    effect.pyEq effect = true := by
  rw [pyEq_iff, value_of_ne_limit hpermission]
  exact ⟨rfl, rfl⟩

theorem EffectKind.priority_injective : Function.Injective EffectKind.priority := by
  intro first second hpriority
  cases first <;> cases second <;> first | rfl | exact absurd hpriority (by decide)

theorem decides_decidePair {decision : PairDecision}
    (hdecision : decidePair first second = some decision) : Decides first second decision := by
  unfold decidePair at hdecision
  split at hdecision
  · next hrank =>
    split at hdecision
    · next hlt =>
      cases hdecision
      exact .first _ (strength_lt_of_rank hlt)
    · next hnot =>
      cases hdecision
      exact .second _ (strength_lt_of_rank (lt_of_le_of_ne (not_lt.mp hnot) hrank))
  · next hrank =>
    have hrank := not_not.mp hrank
    obtain ⟨hshape, hdecision⟩ := Option.ite_none_left_eq_some.mp hdecision
    have hshape := not_not.mp hshape
    split at hdecision
    · next hlimit =>
      have hlimit' := hshape ▸ hlimit
      have hkind : first.rule.effect.kind = second.rule.effect.kind := hlimit.trans hlimit'.symm
      split at hdecision
      · next number number' hnumber hnumber' =>
        split at hdecision
        · next heq =>
          cases hdecision
          subst heq
          refine .neither _ ?_ (Effect.pyEq_iff.mpr
            ⟨hkind, (Json.pyEq_iff_of_numeric? hnumber hnumber').mpr rfl⟩)
          simp only [ScopedRule.strength, hrank, hkind, hnumber, hnumber']
        · next hne =>
          split at hdecision
          · next hlt =>
            cases hdecision
            exact .first _ (strength_lt_of_limit hrank.symm (by rw [hkind]) hnumber hnumber' hlt)
          · next hnot =>
            cases hdecision
            exact .second _ (strength_lt_of_limit hrank (by rw [hkind]) hnumber' hnumber
              (lt_of_le_of_ne (not_lt.mp hnot) (Ne.symm hne)))
      · cases hdecision
    · next hpermission =>
      split at hdecision
      · next hpriority =>
        cases hdecision
        have hkind := EffectKind.priority_injective hpriority
        have heffect := Effect.eq_of_kind hkind hpermission
        refine .neither _ ?_ (heffect ▸ Effect.pyEq_self_of_ne_limit hpermission)
        simp only [ScopedRule.strength, hrank, heffect]
      · next hne =>
        split at hdecision
        · next hlt =>
          cases hdecision
          exact .first _ (strength_lt_of_priority hrank.symm hlt)
        · next hnot =>
          cases hdecision
          exact .second _ (strength_lt_of_priority hrank (lt_of_le_of_ne (not_lt.mp hnot) hne))

/-- Two rules of one scope that can be decided are both limits with numbers, or both permissions. -/
theorem shape_of_decidePair {decision : PairDecision}
    (hdecision : decidePair first second = some decision)
    (hrank : first.scope.rank = second.scope.rank) :
    (first.rule.effect.kind = .limit ∧ second.rule.effect.kind = .limit ∧
      first.rule.effect.value.numeric?.isSome ∧ second.rule.effect.value.numeric?.isSome) ∨
    (first.rule.effect.kind ≠ .limit ∧ second.rule.effect.kind ≠ .limit) := by
  unfold decidePair at hdecision
  simp only [hrank, ne_eq, not_true_eq_false, if_false] at hdecision
  obtain ⟨hshape, hdecision⟩ := Option.ite_none_left_eq_some.mp hdecision
  have hshape := not_not.mp hshape
  split at hdecision
  · next hlimit =>
    split at hdecision
    · next number number' hnumber hnumber' =>
      exact .inl ⟨hlimit, hshape ▸ hlimit, by simp [hnumber], by simp [hnumber']⟩
    · cases hdecision
  · next hpermission =>
    exact .inr ⟨hpermission, fun hlimit ↦ hpermission (hshape ▸ hlimit)⟩

theorem rank_eq_of_strength_eq
    (hstrength : first.strength = second.strength) : first.scope.rank = second.scope.rank :=
  (Prod.mk.inj hstrength).1

theorem kind_eq_of_strength_eq (hstrength : first.strength = second.strength) :
    first.rule.effect.kind = second.rule.effect.kind :=
  EffectKind.priority_injective (Prod.mk.inj (Prod.mk.inj hstrength).2).1

/-- Assumes: the two rules have equal strength and the pair can be decided. Then their effects are
equal. -/
theorem pyEq_of_decidePair (hstrength : first.strength = second.strength)
    (hlimits : first.rule.effect.kind = .limit →
      first.rule.effect.value.numeric?.isSome ∧ second.rule.effect.value.numeric?.isSome) :
    first.rule.effect.pyEq second.rule.effect = true := by
  have hkind := kind_eq_of_strength_eq hstrength
  by_cases hlimit : first.rule.effect.kind = .limit
  · obtain ⟨hsome, hsome'⟩ := hlimits hlimit
    obtain ⟨number, hnumber⟩ := Option.isSome_iff_exists.mp hsome
    obtain ⟨number', hnumber'⟩ := Option.isSome_iff_exists.mp hsome'
    have hvalues := (Prod.mk.inj (Prod.mk.inj hstrength).2).2
    simp only [hnumber, hnumber', Option.getD_some, neg_inj] at hvalues
    exact Effect.pyEq_iff.mpr ⟨hkind, (Json.pyEq_iff_of_numeric? hnumber hnumber').mpr hvalues⟩
  · rw [Effect.eq_of_kind hkind hlimit]
    exact Effect.pyEq_self_of_ne_limit (hkind ▸ hlimit)

section Pairs

variable {Item : Type} {items : List Item} {first second : Item}

theorem mem_of_mem_pairsOf (hpair : (first, second) ∈ pairsOf items) :
    first ∈ items ∧ second ∈ items := by
  induction items with
  | nil => cases hpair
  | cons item rest ih =>
    rcases mem_append.mp hpair with hhead | hrest
    · obtain ⟨other, hother, heq⟩ := mem_map.mp hhead
      cases heq
      exact ⟨mem_cons_self, mem_cons_of_mem _ hother⟩
    · exact ⟨mem_cons_of_mem _ (ih hrest).1, mem_cons_of_mem _ (ih hrest).2⟩

theorem mem_pairsOf_or (hfirst : first ∈ items) (hsecond : second ∈ items) (hne : first ≠ second) :
    (first, second) ∈ pairsOf items ∨ (second, first) ∈ pairsOf items := by
  induction items with
  | nil => cases hfirst
  | cons item rest ih =>
    rcases mem_cons.mp hfirst with rfl | hfirst' <;>
      rcases mem_cons.mp hsecond with rfl | hsecond'
    · exact absurd rfl hne
    · exact .inl (mem_append_left _ (mem_map_of_mem hsecond'))
    · exact .inr (mem_append_left _ (mem_map_of_mem hfirst'))
    · exact (ih hfirst' hsecond').imp (mem_append_right _) (mem_append_right _)

end Pairs

variable {assembled : List Assembled}

theorem mem_sortedRules {entry : ScopedRule} :
    entry ∈ sortedRules assembled ↔ entry ∈ scopedRules assembled := mem_sortedBy

theorem mem_contestedPairs :
    (first, second) ∈ contestedPairs assembled ↔
      (∃ action, (first, second) ∈ pairsOf ((sortedRules assembled).filter fun entry ↦
        entry.action = action)) ∧
      selectorsOverlap first.rule.target.resourceSelector second.rule.target.resourceSelector =
        true ∧
      conditionsProvablyDisjoint first.rule.condition second.rule.condition = false := by
  simp only [contestedPairs, mem_filter, mem_flatMap, Bool.and_eq_true,
    Bool.not_eq_true', mem_elements, mem_ofList]
  refine and_congr_left fun _ ↦ ?_
  constructor
  · rintro ⟨action, -, hpair⟩
    exact ⟨action, hpair⟩
  · rintro ⟨action, hpair⟩
    obtain ⟨hfirst, haction⟩ := mem_filter.mp (mem_of_mem_pairsOf hpair).1
    exact ⟨action, mem_map.mpr ⟨first, hfirst, of_decide_eq_true haction⟩, hpair⟩

theorem mem_of_mem_contestedPairs (hpair : (first, second) ∈ contestedPairs assembled) :
    first ∈ scopedRules assembled ∧ second ∈ scopedRules assembled := by
  obtain ⟨⟨action, hpair⟩, -⟩ := mem_contestedPairs.mp hpair
  obtain ⟨hfirst, hsecond⟩ := mem_of_mem_pairsOf hpair
  exact ⟨mem_sortedRules.mp (mem_filter.mp hfirst).1,
    mem_sortedRules.mp (mem_filter.mp hsecond).1⟩

def Eclipses (pair : ScopedRule × ScopedRule) (winner loser : Citation) : Prop :=
  ∃ decidedBy, decidePair pair.1 pair.2 = some ⟨winner, loser, decidedBy, true⟩

section

variable (decisions : Decisions)

theorem judgementOf_insert (citation other : Citation)
    (judgement : Judgement) : judgementOf (decisions.insert citation judgement) other =
      if citation = other then judgement else judgementOf decisions other := by
  rw [judgementOf, OrderedDict.get?_insert]
  split <;> rfl

theorem shadows_recordDecision (citation other : Citation) (decidedBy : DecidedBy) :
    (judgementOf (recordDecision decisions citation decidedBy) other).shadows =
      (judgementOf decisions other).shadows := by
  rw [recordDecision, judgementOf_insert]
  split
  · next heq => rw [heq]
  · rfl

theorem mem_shadows_recordShadow (decision : PairDecision) (winner loser : Citation) :
    loser ∈ (judgementOf (recordShadow decisions decision) winner).shadows ↔
      loser ∈ (judgementOf decisions winner).shadows ∨
        decision.winner = winner ∧ decision.loser = loser := by
  rw [recordShadow, judgementOf_insert]
  split
  · next heq =>
    subst heq
    rw [mem_insert, or_comm]
    exact or_congr_right ⟨fun heq ↦ ⟨rfl, heq.symm⟩, fun heq ↦ heq.2.symm⟩
  · next hne => exact ⟨.inl, fun hor ↦ hor.resolve_right fun heq ↦ hne heq.1⟩

theorem mem_shadows_notePair (pair : ScopedRule × ScopedRule)
    (winner loser : Citation) : loser ∈ (judgementOf (notePair decisions pair) winner).shadows ↔
      loser ∈ (judgementOf decisions winner).shadows ∨ Eclipses pair winner loser := by
  unfold notePair Eclipses
  cases decidePair pair.1 pair.2 with
  | none => simp
  | some decision =>
    obtain ⟨winner', loser', decidedBy, realShadow⟩ := decision
    cases realShadow with
    | false => simp [shadows_recordDecision]
    | true => simp [mem_shadows_recordShadow, shadows_recordDecision]

end

theorem mem_shadows_decisionsOf (assembled : List Assembled) (winner loser : Citation) :
    loser ∈ (judgementOf (decisionsOf assembled) winner).shadows ↔
      ∃ pair ∈ contestedPairs assembled, Eclipses pair winner loser := by
  have hfold : ∀ (pairs : List (ScopedRule × ScopedRule)) (decisions : Decisions),
      loser ∈ (judgementOf (pairs.foldl notePair decisions) winner).shadows ↔
        loser ∈ (judgementOf decisions winner).shadows ∨
          ∃ pair ∈ pairs, Eclipses pair winner loser := by
    intro pairs
    induction pairs with
    | nil => simp
    | cons pair rest ih =>
      intro decisions
      rw [foldl_cons, ih, mem_shadows_notePair, or_assoc, exists_mem_cons_iff]
  rw [decisionsOf, hfold]
  exact or_iff_right (notMem_empty _)

end AbsoluteZero.Governance

import AbsoluteZero.Foundations.Checked
import AbsoluteZero.Governance.Precedence
import Mathlib.Data.List.MinMax

/-!
# Retrieval of the winner

Matching on the raw rules of a policy set, and what the snapshot compiled from it retrieves. In a
policy set without conflicts the rules that match together shadow each other by strength
(`mem_shadows_iff`), so the retrieval cannot fail once a rule matches (`matchAndWin_eq_ok`).
-/

namespace AbsoluteZero.Governance

open Foundations List

/-- No two rules of the policy set have the same citation. -/
def DistinctCitations (assembled : List Assembled) : Prop :=
  ((scopedRules assembled).map ScopedRule.citation).Nodup

theorem distinctCitations_of_nodup {assembled : List Assembled}
    (hnodup : (assembled.map Assembled.did).Nodup) : DistinctCitations assembled := by
  unfold DistinctCitations scopedRules
  rw [map_flatMap, nodup_flatMap]
  constructor
  · intro entry hentry
    rw [Assembled.scopedRules, map_map]
    refine List.Nodup.of_map (fun citation ↦ (ofLex (ofLex citation).2).2) ?_
    rw [map_map]
    exact entry.document.nodup
  · refine (pairwise_map.mp hnodup).imp fun {first second} hne ↦ ?_
    intro citation hfirst hsecond
    simp only [Assembled.scopedRules, map_map, mem_map] at hfirst hsecond
    obtain ⟨rule, -, rfl⟩ := hfirst
    obtain ⟨rule', -, heq⟩ := hsecond
    exact hne (citation_inj.mp heq).1.symm

theorem distinctCitations_assemble (store : PolicyStore) (position : Nat) :
    DistinctCitations (assemble store position) := by
  refine distinctCitations_of_nodup ?_
  have hkeys : ((store.documentsAsOf position).map Prod.fst).Nodup :=
    ((perm_sortedBy _ _).map Prod.fst).nodup_iff.mpr (OrderedDict.nodup _)
  unfold assemble
  rw [((perm_sortedBy _ _).map Assembled.did).nodup_iff, List.Nodup, pairwise_map]
  refine List.Pairwise.filterMap _ ?_ (pairwise_map.mp hkeys)
  intro ref ref' hne entry hentry entry' hentry'
  have hdid : ∀ (ref : DocId × Nat) (entry : Assembled), (if store.isDeprecated ref.1 ref.2 then
      none else (store.documentVersion ref.1 ref.2).map (Assembled.mk ref.1 ref.2)) = some entry →
      entry.did = ref.1 := by
    intro ref entry hentry
    split at hentry
    · cases hentry
    · obtain ⟨document, -, rfl⟩ := Option.map_eq_some_iff.mp hentry
      rfl
  rw [hdid ref entry hentry, hdid ref' entry' hentry']
  exact hne

theorem DistinctCitations.eq_of_citation {assembled : List Assembled}
    (hdistinct : DistinctCitations assembled) {first second : ScopedRule}
    (hfirst : first ∈ scopedRules assembled) (hsecond : second ∈ scopedRules assembled)
    (hcitation : first.citation = second.citation) : first = second :=
  inj_on_of_nodup_map hdistinct hfirst hsecond hcitation

/-! ### Matching rules -/

/-- The rule is about the action, and its selector covers the resource. -/
def ScopedRule.targets (entry : ScopedRule) (domain operation resource : String) : Bool :=
  entry.rule.target.domain = domain && entry.rule.target.operation = operation &&
    selectorMatches entry.rule.target.resourceSelector resource

def ScopedRule.satisfied (facts : FactMap) (entry : ScopedRule) : Bool :=
  match guardSatisfied facts entry.rule.condition with
  | .ok satisfied => satisfied
  | .error _ => false

def matchingRules (assembled : List Assembled) (domain operation resource : String)
    (facts : FactMap) : List ScopedRule :=
  (scopedRules assembled).filter fun entry ↦
    entry.targets domain operation resource && entry.satisfied facts

variable {entry : ScopedRule} {facts : FactMap}

theorem ScopedRule.satisfied_iff :
    entry.satisfied facts = true ↔ guardSatisfied facts entry.rule.condition = .ok true := by
  unfold satisfied
  cases guardSatisfied facts entry.rule.condition <;> simp

section Matching

variable {assembled : List Assembled} {domain operation resource : String} {facts : FactMap}
  {first second : ScopedRule}

theorem mem_matchingRules :
    entry ∈ matchingRules assembled domain operation resource facts ↔
      entry ∈ scopedRules assembled ∧ entry.targets domain operation resource = true ∧
        guardSatisfied facts entry.rule.condition = .ok true := by
  rw [matchingRules, mem_filter, Bool.and_eq_true, ScopedRule.satisfied_iff]

theorem action_of_targets (htargets : entry.targets domain operation resource = true) :
    entry.action = toLex (domain, operation) ∧
      selectorMatches entry.rule.target.resourceSelector resource = true := by
  rw [ScopedRule.targets, Bool.and_eq_true, Bool.and_eq_true, decide_eq_true_eq,
    decide_eq_true_eq] at htargets
  obtain ⟨⟨hdomain, hoperation⟩, hselector⟩ := htargets
  exact ⟨by rw [ScopedRule.action, hdomain, hoperation], hselector⟩

theorem selectorsOverlap_of_matches {selector selector' : String}
    (hfirst : selectorMatches selector resource = true)
    (hsecond : selectorMatches selector' resource = true) :
    selectorsOverlap selector selector' = true := by
  simp only [selectorMatches, selectorsOverlap, Bool.or_eq_true, decide_eq_true_eq] at *
  rcases hfirst with rfl | hfirst
  · rcases hsecond with rfl | hsecond
    · exact .inl (.inl rfl)
    · exact .inr hsecond
  · exact .inl (.inr hfirst)

theorem contested_of_matching
    (hfirst : first ∈ matchingRules assembled domain operation resource facts)
    (hsecond : second ∈ matchingRules assembled domain operation resource facts)
    (hne : first ≠ second) :
    (first, second) ∈ contestedPairs assembled ∨ (second, first) ∈ contestedPairs assembled := by
  obtain ⟨hmem, htargets, hsatisfied⟩ := mem_matchingRules.mp hfirst
  obtain ⟨hmem', htargets', hsatisfied'⟩ := mem_matchingRules.mp hsecond
  obtain ⟨haction, hselector⟩ := action_of_targets htargets
  obtain ⟨haction', hselector'⟩ := action_of_targets htargets'
  have hgroup : ∀ entry ∈ scopedRules assembled, entry.action = toLex (domain, operation) →
      entry ∈ (sortedRules assembled).filter fun entry ↦
        entry.action = toLex (domain, operation) := fun entry hentry haction ↦
    mem_filter.mpr ⟨mem_sortedRules.mpr hentry, decide_eq_true haction⟩
  rcases mem_pairsOf_or (hgroup first hmem haction) (hgroup second hmem' haction') hne with
    hpair | hpair
  · exact .inl (mem_contestedPairs.mpr ⟨⟨_, hpair⟩, selectorsOverlap_of_matches hselector
      hselector', not_provablyDisjoint_of_satisfied hsatisfied hsatisfied'⟩)
  · exact .inr (mem_contestedPairs.mpr ⟨⟨_, hpair⟩, selectorsOverlap_of_matches hselector'
      hselector, not_provablyDisjoint_of_satisfied hsatisfied' hsatisfied⟩)

section

variable (hconflicts : conflictErrors assembled = [])

include hconflicts

theorem exists_decision (hpair : (first, second) ∈ contestedPairs assembled) :
    ∃ decision, decidePair first second = some decision := by
  rw [← Option.isSome_iff_exists, ← Option.not_isNone, Bool.not_eq_true', Bool.eq_false_iff]
  intro hnone
  have herror : conflictError (first, second) ∈ conflictErrors assembled :=
    mem_sortedBy.mpr (mem_map_of_mem (mem_filter.mpr ⟨hpair, hnone⟩))
  rw [hconflicts] at herror
  cases herror

theorem mem_shadows_iff (hdistinct : DistinctCitations assembled)
    (hfirst : first ∈ matchingRules assembled domain operation resource facts)
    (hsecond : second ∈ matchingRules assembled domain operation resource facts) :
    second.citation ∈ (judgementOf (decisionsOf assembled) first.citation).shadows ↔
      second.strength < first.strength := by
  rw [mem_shadows_decisionsOf]
  constructor
  · rintro ⟨⟨third, fourth⟩, hpair, decidedBy, hdecision⟩
    obtain ⟨hthird, hfourth⟩ := mem_of_mem_contestedPairs hpair
    have hmem := (mem_matchingRules.mp hfirst).1
    have hmem' := (mem_matchingRules.mp hsecond).1
    have hdecides := decides_decidePair hdecision
    generalize hwinner : first.citation = winner at hdecides
    generalize hloser : second.citation = loser at hdecides
    cases hdecides with
    | first _ hstrength =>
      cases hdistinct.eq_of_citation hmem hthird hwinner
      cases hdistinct.eq_of_citation hmem' hfourth hloser
      exact hstrength
    | second _ hstrength =>
      cases hdistinct.eq_of_citation hmem hfourth hwinner
      cases hdistinct.eq_of_citation hmem' hthird hloser
      exact hstrength
  · intro hstrength
    have hne : first ≠ second := fun heq ↦ (heq ▸ hstrength).ne rfl
    rcases contested_of_matching hfirst hsecond hne with hpair | hpair
    · obtain ⟨decision, hdecision⟩ := exists_decision hconflicts hpair
      refine ⟨_, hpair, ?_⟩
      cases decides_decidePair hdecision with
      | first decidedBy _ => exact ⟨decidedBy, hdecision⟩
      | second decidedBy hback => exact absurd hback hstrength.asymm
      | neither decidedBy heq _ => exact absurd heq hstrength.ne'
    · obtain ⟨decision, hdecision⟩ := exists_decision hconflicts hpair
      refine ⟨_, hpair, ?_⟩
      cases decides_decidePair hdecision with
      | first decidedBy hback => exact absurd hback hstrength.asymm
      | second decidedBy _ => exact ⟨decidedBy, hdecision⟩
      | neither decidedBy heq _ => exact absurd heq hstrength.ne

section

variable (hfirst : first ∈ matchingRules assembled domain operation resource facts)

include hfirst

/-- Different rules of one scope that match together are both limits with numbers, or both
permissions. -/
theorem shape_of_matching
    (hsecond : second ∈ matchingRules assembled domain operation resource facts)
    (hne : first ≠ second) (hrank : first.scope.rank = second.scope.rank) :
    (first.rule.effect.kind = .limit ∧ second.rule.effect.kind = .limit ∧
      first.rule.effect.value.numeric?.isSome ∧ second.rule.effect.value.numeric?.isSome) ∨
    (first.rule.effect.kind ≠ .limit ∧ second.rule.effect.kind ≠ .limit) := by
  rcases contested_of_matching hfirst hsecond hne with hpair | hpair
  · obtain ⟨decision, hdecision⟩ := exists_decision hconflicts hpair
    exact shape_of_decidePair hdecision hrank
  · obtain ⟨decision, hdecision⟩ := exists_decision hconflicts hpair
    exact (shape_of_decidePair hdecision hrank.symm).imp
      (fun hlimits ↦ ⟨hlimits.2.1, hlimits.1, hlimits.2.2.2, hlimits.2.2.1⟩) And.symm

/-- Different rules that match together and have equal strength have equal effects. -/
theorem pyEq_of_strength_eq
    (hsecond : second ∈ matchingRules assembled domain operation resource facts)
    (hne : first ≠ second) (hstrength : first.strength = second.strength) :
    first.rule.effect.pyEq second.rule.effect = true := by
  refine pyEq_of_decidePair hstrength fun hlimit ↦ ?_
  rcases shape_of_matching hconflicts hfirst hsecond hne (rank_eq_of_strength_eq hstrength) with
    ⟨-, -, hnumbers⟩ | ⟨hpermission, -⟩
  · exact hnumbers
  · exact absurd hlimit hpermission

end

end

end Matching

/-! ### Matching entries -/

def IndexEntry.satisfied (facts : FactMap) (entry : IndexEntry) : Bool :=
  match guardSatisfied facts entry.condition with
  | .ok satisfied => satisfied
  | .error _ => false

/-- The conditions of the rules that are about the action and cover the resource can be evaluated on
the facts. -/
def Determined (assembled : List Assembled) (domain operation resource : String)
    (facts : FactMap) : Prop :=
  ∀ entry ∈ scopedRules assembled, entry.targets domain operation resource = true →
    ∃ satisfied, guardSatisfied facts entry.rule.condition = .ok satisfied

/-- The entries of a policy set that match, in canonical order. -/
def matchedEntries (assembled : List Assembled) (domain operation resource : String)
    (facts : FactMap) : List IndexEntry :=
  ((snapshotEntries assembled).filter fun entry ↦ entry.targets domain operation resource).filter
    fun entry ↦ entry.satisfied facts

theorem satisfiedEntries_eq_ok {entries : List IndexEntry}
    (hdetermined : ∀ entry ∈ entries, ∃ satisfied, guardSatisfied facts entry.condition =
      .ok satisfied) :
    satisfiedEntries facts entries = .ok (entries.filter fun entry ↦ entry.satisfied facts) := by
  induction entries with
  | nil => rfl
  | cons entry rest ih =>
    obtain ⟨satisfied, hsatisfied⟩ := hdetermined entry mem_cons_self
    rw [satisfiedEntries, hsatisfied, ih fun other hother ↦
      hdetermined other (mem_cons_of_mem _ hother)]
    simp only [bind, Except.bind, pure, Except.pure, filter_cons, IndexEntry.satisfied, hsatisfied]

theorem determined_of_satisfiedEntries {entries matched : List IndexEntry}
    (hmatched : satisfiedEntries facts entries = .ok matched) :
    ∀ entry ∈ entries, ∃ satisfied, guardSatisfied facts entry.condition = .ok satisfied := by
  induction entries generalizing matched with
  | nil => nofun
  | cons entry rest ih =>
    rw [satisfiedEntries] at hmatched
    obtain ⟨satisfied, hsatisfied, hmatched⟩ := Checked.bind_eq_ok_iff.mp hmatched
    obtain ⟨others, hrest, -⟩ := Checked.bind_eq_ok_iff.mp hmatched
    intro other hother
    rcases mem_cons.mp hother with rfl | hlater
    · exact ⟨satisfied, hsatisfied⟩
    · exact ih hrest other hlater

section Entries

variable {assembled : List Assembled} {domain operation resource : String} {facts : FactMap}

variable {entry : IndexEntry}

theorem mem_snapshotEntries : entry ∈ snapshotEntries assembled ↔
    ∃ rule ∈ scopedRules assembled, indexEntry (decisionsOf assembled) rule = entry := by
  rw [snapshotEntries, mem_sortedBy, mem_map]

theorem mem_matchedEntries : entry ∈ matchedEntries assembled domain operation resource facts ↔
      ∃ rule ∈ matchingRules assembled domain operation resource facts,
        indexEntry (decisionsOf assembled) rule = entry := by
  simp only [matchedEntries, mem_filter, mem_snapshotEntries, matchingRules, Bool.and_eq_true]
  constructor
  · rintro ⟨⟨⟨rule, hrule, rfl⟩, htargets⟩, hsatisfied⟩
    exact ⟨rule, ⟨hrule, htargets, hsatisfied⟩, rfl⟩
  · rintro ⟨rule, ⟨hrule, htargets, hsatisfied⟩, rfl⟩
    exact ⟨⟨⟨rule, hrule, rfl⟩, htargets⟩, hsatisfied⟩

/-- The entries that match are retrieved if their conditions can be evaluated. -/
theorem satisfiedEntries_snapshotEntries
    (hdetermined : Determined assembled domain operation resource facts) :
    satisfiedEntries facts ((snapshotEntries assembled).filter fun entry ↦
      entry.targets domain operation resource) =
        .ok (matchedEntries assembled domain operation resource facts) := by
  refine satisfiedEntries_eq_ok fun entry hentry ↦ ?_
  obtain ⟨hmem, htargets⟩ := mem_filter.mp hentry
  obtain ⟨rule, hrule, rfl⟩ := mem_snapshotEntries.mp hmem
  exact hdetermined rule hrule htargets

def Strongest (rules : List ScopedRule) (rule : ScopedRule) : Prop :=
  rule ∈ rules ∧ ∀ other ∈ rules, other.strength ≤ rule.strength

theorem exists_strongest {rules : List ScopedRule} (hrules : rules ≠ []) :
    ∃ rule, Strongest rules rule := by
  obtain ⟨rule, hrule⟩ := Option.ne_none_iff_exists'.mp
    (fun hnone ↦ hrules (argmax_eq_none.mp hnone) : List.argmax ScopedRule.strength rules ≠ none)
  exact ⟨rule, argmax_mem hrule, fun other hother ↦ le_of_mem_argmax hother hrule⟩

theorem mem_undominated (hconflicts : conflictErrors assembled = [])
    (hdistinct : DistinctCitations assembled) :
    entry ∈ undominated (matchedEntries assembled domain operation resource facts) ↔
      ∃ rule, Strongest (matchingRules assembled domain operation resource facts) rule ∧
        indexEntry (decisionsOf assembled) rule = entry := by
  simp only [undominated, mem_filter, decide_eq_true_eq, mem_flatMap, not_exists, not_and]
  constructor
  · rintro ⟨hentry, hfree⟩
    obtain ⟨rule, hrule, rfl⟩ := mem_matchedEntries.mp hentry
    refine ⟨rule, ⟨hrule, fun other hother ↦ not_lt.mp fun hlt ↦ ?_⟩, rfl⟩
    exact hfree _ (mem_matchedEntries.mpr ⟨other, hother, rfl⟩)
      ((mem_shadows_iff hconflicts hdistinct hother hrule).mpr hlt)
  · rintro ⟨rule, ⟨hrule, hstrongest⟩, rfl⟩
    refine ⟨mem_matchedEntries.mpr ⟨rule, hrule, rfl⟩, fun entry hentry hshadow ↦ ?_⟩
    obtain ⟨other, hother, rfl⟩ := mem_matchedEntries.mp hentry
    exact absurd ((mem_shadows_iff hconflicts hdistinct hother hrule).mp hshadow)
      (not_lt.mpr (hstrongest other hother))

theorem nodup_snapshotEntries (hdistinct : DistinctCitations assembled) :
    (snapshotEntries assembled).Nodup := by
  have hperm := (perm_sortedBy IndexEntry.sortKey
    ((scopedRules assembled).map (indexEntry (decisionsOf assembled)))).map IndexEntry.citation
  refine List.Nodup.of_map IndexEntry.citation (hperm.nodup_iff.mpr ?_)
  rw [map_map]
  exact hdistinct

theorem undominated_sublist (assembled : List Assembled) (domain operation resource : String)
    (facts : FactMap) :
    (undominated (matchedEntries assembled domain operation resource facts)).Sublist
      (snapshotEntries assembled) :=
  filter_sublist.trans (filter_sublist.trans filter_sublist)

/-- The rule of the winner: a strongest one, and the first of these in canonical order. -/
structure Wins (assembled : List Assembled) (rules : List ScopedRule) (winner : ScopedRule) :
    Prop where
  strongest : Strongest rules winner
  first : ∀ other, Strongest rules other →
    (indexEntry (decisionsOf assembled) winner).sortKey ≤
      (indexEntry (decisionsOf assembled) other).sortKey

/-- Assumes: the conditions can be evaluated and some rule matches. Then the retrieval returns the
entry of the winning rule. -/
theorem matchAndWin_eq_ok {snapshot : CompiledSnapshot}
    (hentries : snapshot.entries = snapshotEntries assembled)
    (hconflicts : conflictErrors assembled = []) (hdistinct : DistinctCitations assembled)
    (hdetermined : Determined assembled domain operation resource facts)
    (hmatching : matchingRules assembled domain operation resource facts ≠ []) : ∃ winner fallback,
      Wins assembled (matchingRules assembled domain operation resource facts) winner ∧
      matchAndWin snapshot domain operation resource facts =
        .ok (indexEntry (decisionsOf assembled) winner,
          (matchedEntries assembled domain operation resource facts).map IndexEntry.citation,
          fallback) := by
  obtain ⟨strongest, hstrongest⟩ := exists_strongest hmatching
  have hentry := (mem_undominated hconflicts hdistinct).mpr ⟨strongest, hstrongest, rfl⟩
  have hsome : matchedEntries assembled domain operation resource facts ≠ [] :=
    ne_nil_of_mem (mem_filter.mp hentry).1
  have hsublist := undominated_sublist assembled domain operation resource facts
  cases hundominated : undominated (matchedEntries assembled domain operation resource facts) with
  | nil =>
    rw [hundominated] at hentry
    cases hentry
  | cons first others =>
    rw [hundominated] at hsublist
    have hmem : ∀ entry ∈ first :: others, ∃ rule,
        Strongest (matchingRules assembled domain operation resource facts) rule ∧
          indexEntry (decisionsOf assembled) rule = entry := fun entry hentry ↦
      (mem_undominated hconflicts hdistinct).mp (hundominated ▸ hentry)
    obtain ⟨winner, hwinner, rfl⟩ := hmem first mem_cons_self
    have hsorted := pairwise_cons.mp
      ((pairwise_sortedBy IndexEntry.sortKey _).sublist hsublist)
    have hnodup := nodup_cons.mp ((nodup_snapshotEntries hdistinct).sublist hsublist)
    have hagree : (others.find? fun entry ↦
        !entry.effect.pyEq (indexEntry (decisionsOf assembled) winner).effect) = none := by
      refine find?_eq_none.mpr fun entry hentry ↦ ?_
      obtain ⟨rule, hrule, rfl⟩ := hmem entry (mem_cons_of_mem _ hentry)
      have hne : rule ≠ winner := fun heq ↦ hnodup.1 (heq ▸ hentry)
      have hstrength := le_antisymm (hwinner.2 rule hrule.1) (hrule.2 winner hwinner.1)
      have heffect := pyEq_of_strength_eq hconflicts hrule.1 hwinner.1 hne hstrength
      simpa [indexEntry] using heffect
    have hretrieved : ∃ fallback, matchAndWin snapshot domain operation resource facts =
        .ok (indexEntry (decisionsOf assembled) winner,
          (matchedEntries assembled domain operation resource facts).map IndexEntry.citation,
          fallback) := by
      rw [matchAndWin, hentries, satisfiedEntries_snapshotEntries hdetermined]
      simp only [bind, Except.bind, hsome, if_false, hundominated, hagree]
      exact ⟨_, rfl⟩
    obtain ⟨fallback, hretrieved⟩ := hretrieved
    refine ⟨winner, fallback, ⟨hwinner, fun other hother ↦ ?_⟩, hretrieved⟩
    have hother' := (mem_undominated hconflicts hdistinct).mpr ⟨other, hother, rfl⟩
    rw [hundominated] at hother'
    rcases mem_cons.mp hother' with heq | hlater
    · rw [heq]
    · exact hsorted.1 _ hlater

end Entries

/-! ### Pairs that are not compared -/

/-- A pair of rules of one action with overlapping selectors that the conflict detection does not
decide. -/
structure Skipped (assembled : List Assembled) (first second : ScopedRule) : Prop where
  left : first ∈ scopedRules assembled
  right : second ∈ scopedRules assembled
  ne : first ≠ second
  action : first.action = second.action
  overlap : selectorsOverlap first.rule.target.resourceSelector
    second.rule.target.resourceSelector = true
  forward : (first, second) ∉ contestedPairs assembled
  backward : (second, first) ∉ contestedPairs assembled

theorem mem_matchingRules_of_matched {assembled : List Assembled} {decisions : Decisions}
    {rule : ScopedRule} {domain operation resource : String} {entries matched : List IndexEntry}
    (hmatched : satisfiedEntries facts
      (entries.filter fun entry ↦ entry.targets domain operation resource) = .ok matched)
    (hrule : rule ∈ scopedRules assembled) (hmem : indexEntry decisions rule ∈ matched) :
    rule ∈ matchingRules assembled domain operation resource facts := by
  have hfound := satisfiedEntries_eq_ok (determined_of_satisfiedEntries hmatched)
  cases hmatched.symm.trans hfound
  obtain ⟨hentry, hsatisfied⟩ := mem_filter.mp hmem
  have htargets : rule.targets domain operation resource = true := (mem_filter.mp hentry).2
  exact mem_filter.mpr ⟨hrule, by rw [htargets]; exact hsatisfied⟩

/-- No facts satisfy two conditions that the compiler calls disjoint, and no question matches both
rules of a pair that the conflict detection skips. -/
theorem conditionsProvablyDisjoint_sound :
    (∀ first second : Condition, conditionsProvablyDisjoint (some first) (some second) = true →
      ∀ facts, ¬ (conditionSatisfied facts first = .ok true ∧
        conditionSatisfied facts second = .ok true)) ∧
    ∀ assembled first second, Skipped assembled first second →
      ∀ (domain operation resource : String) (facts : FactMap) (matched : List IndexEntry),
        satisfiedEntries facts ((snapshotEntries assembled).filter fun entry ↦
          entry.targets domain operation resource) = .ok matched →
        ¬ (indexEntry (decisionsOf assembled) first ∈ matched ∧
          indexEntry (decisionsOf assembled) second ∈ matched) := by
  constructor
  · rintro first second hdisjoint facts ⟨hfirst, hsecond⟩
    have hopen : conditionsProvablyDisjoint (some first) (some second) = false :=
      not_provablyDisjoint_of_satisfied hfirst hsecond
    exact Bool.false_ne_true (hopen.symm.trans hdisjoint)
  · rintro assembled first second hskipped domain operation resource facts matched hmatched
      ⟨hfirst, hsecond⟩
    have hmatching := mem_matchingRules_of_matched hmatched hskipped.left hfirst
    have hmatching' := mem_matchingRules_of_matched hmatched hskipped.right hsecond
    rcases contested_of_matching hmatching hmatching' hskipped.ne with hpair | hpair
    · exact hskipped.forward hpair
    · exact hskipped.backward hpair

def boundedRun (ruleId : String) (op : ComparisonOp) : ScopedRule where
  did := toLex (.system, "baseline")
  version := 1
  scope := .system
  rule :=
    { ruleId := ruleId
      target := ⟨"execution", "run", "*"⟩
      effect := .allow
      condition := some (.comparison "usage.tokens" op (.ofInt 5))
      final := false }

/-- A policy set of one document, with a rule below a bound and one from it on. -/
def boundedSet : List Assembled :=
  [{ did := toLex (.system, "baseline")
     version := 1
     document :=
       { header := ⟨.system, "baseline", ["execution"], ⟨"alice", .null, "authoring"⟩, 1, 1⟩
         rules := [(boundedRun "few" .lt).rule, (boundedRun "many" .gte).rule]
         nodup := by decide } }]

theorem skipped_boundedSet : Skipped boundedSet (boundedRun "few" .lt)
    (boundedRun "many" .gte) where
  left := mem_cons_self
  right := mem_cons_of_mem _ mem_cons_self
  ne heq := absurd (congrArg (fun entry ↦ entry.rule.ruleId) heq) (by decide)
  action := rfl
  overlap := rfl
  forward hpair := absurd (mem_contestedPairs.mp hpair).2.2 (by decide +kernel)
  backward hpair := absurd (mem_contestedPairs.mp hpair).2.2 (by decide +kernel)

/-- With three tokens the rule below the bound matches, and the other one does not. -/
theorem matched_boundedSet :
    let facts := factDict [("usage.tokens", .ofInt 3)]
    let few := indexEntry (decisionsOf boundedSet) (boundedRun "few" .lt)
    ¬ (conditionSatisfied facts (.comparison "usage.tokens" .lt (.ofInt 5)) = .ok true ∧
      conditionSatisfied facts (.comparison "usage.tokens" .gte (.ofInt 5)) = .ok true) ∧
    satisfiedEntries facts ((snapshotEntries boundedSet).filter fun entry ↦
      entry.targets "execution" "run" "main") = .ok [few] ∧
    indexEntry (decisionsOf boundedSet) (boundedRun "many" .gte) ∉ [few] := by
  intro facts few
  have hmatched : satisfiedEntries facts ((snapshotEntries boundedSet).filter fun entry ↦
      entry.targets "execution" "run" "main") = .ok [few] := rfl
  refine ⟨conditionsProvablyDisjoint_sound.1 _ _ (by decide +kernel) _, hmatched, fun hmany ↦ ?_⟩
  exact conditionsProvablyDisjoint_sound.2 boundedSet _ _ skipped_boundedSet _ _ _ _ _ hmatched
    ⟨mem_cons_self, hmany⟩

end AbsoluteZero.Governance

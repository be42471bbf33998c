import AbsoluteZero.Cm.Validation
import AbsoluteZero.Foundations.Grouping

/-!
# Shuffled candidates

Dedup keeps the first of several copies, and the sort of `prioritize` keeps the order of equal keys.
So the list that is assembled depends on the order of retrieval once two candidates that one of
the passes cannot tell apart are not the same item (`shuffle_irrelevant_iff`).
-/

namespace AbsoluteZero.Cm

open Foundations List

/-- A list of distinct items has two of them in one order only. -/
theorem not_sublist_swap {Item : Type} {items : List Item} {first second : Item}
    (hnodup : items.Nodup) (hone : [first, second].Sublist items) :
    ¬ [second, first].Sublist items := by
  intro hother
  induction items with
  | nil => cases hone
  | cons item rest ih =>
    obtain ⟨hitem, hrest⟩ := nodup_cons.mp hnodup
    cases hone with
    | cons _ hone =>
      cases hother with
      | cons _ hother => exact ih hrest hone hother
      | cons_cons _ hother => exact hitem (hone.mem (mem_cons_of_mem _ mem_cons_self))
    | cons_cons _ hone =>
      cases hother with
      | cons _ hother => exact hitem (hother.mem (mem_cons_of_mem _ mem_cons_self))
      | cons_cons _ hother => exact hitem (hother.mem mem_cons_self)

/-- The key of `prioritize`. -/
def priorityKey (config : ConfigView) (candidate : Candidate) : Rat ×ₗ WithTop Rat ×ₗ String :=
  toLex (-config.weightOf candidate.sectionName, toLex (negScoreKey candidate.score, candidate.id))

/-- A candidate with the flag that dedup gives it. -/
def flagged (hashing : Hashing) (candidates : List Candidate) (candidate : Candidate) : Candidate :=
  if Contradicted hashing candidates candidate.id then { candidate with contradiction := true }
  else candidate

variable {hashing : Hashing} {config : ConfigView} {candidates others : List Candidate}

theorem flagged_of_perm (hperm : others.Perm candidates) :
    flagged hashing others = flagged hashing candidates := by
  funext candidate
  refine if_congr ?_ rfl rfl
  simp only [Contradicted, hperm.mem_iff]

theorem dedupKey_flagged (candidate : Candidate) :
    dedupKey hashing (flagged hashing candidates candidate) = dedupKey hashing candidate := by
  unfold flagged
  split <;> rfl

theorem priorityKey_flagged (candidate : Candidate) :
    priorityKey config (flagged hashing candidates candidate) = priorityKey config candidate := by
  unfold flagged
  split <;> rfl

theorem nodup_keys_dedup : ((dedup hashing candidates).map (dedupKey hashing)).Nodup := by
  change (((fresh _ [] _).map (flagged hashing candidates)).map _).Nodup
  rw [map_map, show dedupKey hashing ∘ flagged hashing candidates = dedupKey hashing from
    funext dedupKey_flagged]
  exact (nodup_fresh [] candidates).1

/-- Candidates that dedup takes for copies, or the sort for equals, are one item. -/
def Told (hashing : Hashing) (config : ConfigView) (candidates : List Candidate) : Prop :=
  ∀ first ∈ candidates, ∀ second ∈ candidates,
    dedupKey hashing first = dedupKey hashing second ∨
        priorityKey config first = priorityKey config second →
      flagged hashing candidates first = flagged hashing candidates second

section

variable (htold : Told hashing config candidates)

include htold

/-- What is left are the items of the candidates, each once. -/
theorem mem_dedup_iff {kept : Candidate} :
    kept ∈ dedup hashing candidates ↔
      ∃ candidate ∈ candidates, flagged hashing candidates candidate = kept := by
  change kept ∈ (fresh _ [] _).map (flagged hashing candidates) ↔ _
  rw [mem_map]
  constructor
  · rintro ⟨candidate, hcandidate, heq⟩
    exact ⟨candidate, (fresh_sublist [] candidates).mem hcandidate, heq⟩
  · rintro ⟨candidate, hcandidate, rfl⟩
    obtain ⟨first, hfirst, heq⟩ : ∃ first ∈ fresh (dedupKey hashing) [] candidates,
        dedupKey hashing first = dedupKey hashing candidate :=
      exists_mem_fresh hcandidate not_mem_nil
    have hmem := (fresh_sublist [] candidates).mem hfirst
    exact ⟨first, hfirst, htold _ hmem _ hcandidate (.inl heq)⟩

theorem Told.of_perm (hperm : others.Perm candidates) :
    Told hashing config others := by
  intro first hfirst second hsecond heq
  rw [flagged_of_perm hperm]
  exact htold first (hperm.mem_iff.mp hfirst) second (hperm.mem_iff.mp hsecond) heq

theorem prioritize_dedup_of_perm (hperm : others.Perm candidates) :
    prioritize config (dedup hashing others) = prioritize config (dedup hashing candidates) := by
  have hnodup : ∀ {list : List Candidate}, (dedup hashing list).Nodup := nodup_keys_dedup.of_map _
  refine sortedBy_of_perm (hnodup.map_on fun first hfirst second hsecond heq ↦ ?_)
    ((perm_ext_iff_of_nodup hnodup hnodup).mpr fun kept ↦ ?_)
  · obtain ⟨one, hone, rfl⟩ := (mem_dedup_iff (htold.of_perm hperm)).mp hfirst
    obtain ⟨other, hother, rfl⟩ := (mem_dedup_iff (htold.of_perm hperm)).mp hsecond
    change priorityKey config _ = priorityKey config _ at heq
    rw [priorityKey_flagged, priorityKey_flagged] at heq
    exact htold.of_perm hperm _ hone _ hother (.inr heq)
  · rw [mem_dedup_iff (htold.of_perm hperm), mem_dedup_iff htold, flagged_of_perm hperm]
    simp only [hperm.mem_iff]

end

/-- Two candidates at the head, in both orders, are told apart by what is assembled. -/
theorem flagged_eq_of_swap {first second : Candidate} {rest : List Candidate}
    (hsame : prioritize config (dedup hashing (first :: second :: rest)) =
      prioritize config (dedup hashing (second :: first :: rest)))
    (heq : dedupKey hashing first = dedupKey hashing second ∨
      priorityKey config first = priorityKey config second) :
    flagged hashing (first :: second :: rest) first =
      flagged hashing (first :: second :: rest) second := by
  have hperm : (second :: first :: rest).Perm (first :: second :: rest) := .swap _ _ _
  have hmem : flagged hashing (first :: second :: rest) second ∈
      dedup hashing (first :: second :: rest) := by
    rw [← @mem_prioritize _ config, hsame, mem_prioritize, ← flagged_of_perm hperm]
    exact mem_cons_self
  by_cases hkeys : dedupKey hashing first = dedupKey hashing second
  · refine inj_on_of_nodup_map nodup_keys_dedup mem_cons_self hmem ?_
    exact (dedupKey_flagged first).trans (hkeys.trans (dedupKey_flagged second).symm)
  · have hpriority := heq.resolve_left hkeys
    -- both are kept, and the stable sort keeps the order in which they came
    have hordered : ∀ {one other : Candidate}, dedupKey hashing one ≠ dedupKey hashing other →
        priorityKey config one = priorityKey config other →
        [flagged hashing (one :: other :: rest) one,
          flagged hashing (one :: other :: rest) other].Sublist
          (prioritize config (dedup hashing (one :: other :: rest))) := by
      intro one other hne hequal
      refine pair_sublist_insertionSort (le_of_eq ?_) ?_
      · change priorityKey config _ = priorityKey config _
        rw [priorityKey_flagged, priorityKey_flagged, hequal]
      · unfold dedup
        rw [fresh, if_neg not_mem_nil, fresh, if_neg (by simpa using hne.symm)]
        exact (nil_sublist _).cons_cons _ |>.cons_cons _
    have hone := hordered hkeys hpriority
    have hother := hordered (Ne.symm hkeys) hpriority.symm
    rw [flagged_of_perm hperm, ← hsame] at hother
    exact absurd hother (not_sublist_swap ((perm_sortedBy _ _).nodup_iff.mpr
      (nodup_keys_dedup.of_map _)) hone)

/-- The order of retrieval is irrelevant exactly when any two candidates that one of the passes
cannot tell apart are one item. -/
theorem shuffle_irrelevant_iff (hashing : Hashing) (config : ConfigView)
    (candidates : List Candidate) :
    (∀ others, others.Perm candidates →
      prioritize config (dedup hashing others) = prioritize config (dedup hashing candidates)) ↔
      Told hashing config candidates := by
  refine ⟨fun hsame first hfirst second hsecond heq ↦ ?_,
    fun htold others hperm ↦ prioritize_dedup_of_perm htold hperm⟩
  by_cases hne : second = first
  · rw [hne]
  obtain ⟨rest, hrest⟩ : ∃ rest, candidates.Perm (first :: second :: rest) :=
    ⟨_, (perm_cons_erase hfirst).trans
      ((perm_cons_erase ((mem_erase_of_ne hne).mpr hsecond)).cons first)⟩
  rw [← flagged_of_perm hrest.symm]
  refine flagged_eq_of_swap ?_ heq
  rw [hsame _ hrest.symm, hsame _ ((List.Perm.swap _ _ _).trans hrest.symm)]

/-- Two variants of one symbol change places with the order in which they are retrieved. -/
theorem shuffle_relevant : ¬ ∀ others, others.Perm [symbolCandidate "x1" "f f f f " "s " "r ",
      symbolCandidate "x1" "g g g g " "s " "r "] →
    prioritize defaultConfig (dedup variantHashing others) =
      prioritize defaultConfig (dedup variantHashing [symbolCandidate "x1" "f f f f " "s " "r ",
        symbolCandidate "x1" "g g g g " "s " "r "]) := by
  intro hsame
  have heq := flagged_eq_of_swap (hsame _ (.swap _ _ _)).symm (.inr rfl)
  exact absurd (congrArg Candidate.content heq) (by decide +kernel)

end AbsoluteZero.Cm

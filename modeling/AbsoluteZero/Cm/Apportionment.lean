import AbsoluteZero.Cm.Budgeter
import Mathlib.Algebra.BigOperators.Ring.List
import Mathlib.Algebra.Order.BigOperators.Group.List
import Mathlib.Data.Rat.Floor
import Mathlib.Tactic.Linarith

/-!
# Exact envelopes and the greedy walk

With exact shares `carve` gives out the whole budget: only a section with a fractional part gets one
more (`pos_of_mem_take`). `Greedy` is what the walk of `fit` does with each candidate; the check of
the budget never decides, as the envelopes sum up to at most the budget.
-/

namespace AbsoluteZero.Cm

open Foundations List

section Remainders

variable {Entry : Type} {part : Entry → Rat} {items order : List Entry} {count : Nat}

theorem le_length_of_le_sum (hpart : ∀ entry ∈ items, part entry < 1)
    (hsum : count ≤ (items.map part).sum) : count ≤ items.length := by
  have hle : (items.map part).sum ≤ (items.map part).length • (1 : Rat) :=
    sum_le_card_nsmul _ _ (forall_mem_map.mpr fun entry hentry ↦ (hpart entry hentry).le)
  rw [length_map, nsmul_one] at hle
  exact_mod_cast hsum.trans hle

/-- Where parts below one sum up to a count, that many of the largest are not zero. -/
theorem pos_of_mem_take (hpart : ∀ entry ∈ items, part entry < 1)
    (hsorted : items.Pairwise fun first second ↦ part second ≤ part first)
    (hsum : count ≤ (items.map part).sum) {entry : Entry} (hentry : entry ∈ items.take count) :
    0 < part entry := by
  induction items generalizing count with
  | nil => rw [take_nil] at hentry; cases hentry
  | cons first rest ih =>
    cases count with
    | zero => cases hentry
    | succ count =>
      obtain ⟨hfirst, hrest⟩ := forall_mem_cons.mp hpart
      obtain ⟨hlargest, hsorted⟩ := pairwise_cons.mp hsorted
      rw [map_cons, sum_cons, Nat.cast_succ] at hsum
      rcases mem_cons.mp hentry with rfl | hentry
      · by_contra hzero
        have hnone : (rest.map part).sum ≤ (rest.map part).length • (0 : Rat) :=
          sum_le_card_nsmul _ _ (forall_mem_map.mpr fun other hother ↦
            (hlargest other hother).trans (not_lt.mp hzero))
        rw [nsmul_zero] at hnone
        linarith
      · exact ih hrest hsorted (by linarith) hentry

/-- One for each of the first entries makes their count. -/
theorem sum_handed [DecidableEq Entry] (hperm : order.Perm items) (hnodup : items.Nodup)
    (hcount : count ≤ order.length) :
    (items.map fun entry ↦ if entry ∈ order.take count then (1 : Int) else 0).sum = count := by
  have hsplit : (order.take count ++ order.drop count).Nodup :=
    (take_append_drop count order).symm ▸ (hperm.nodup_iff.mpr hnodup)
  have hfirst : ∀ entry ∈ order.take count,
      (if entry ∈ order.take count then (1 : Int) else 0) = 1 := fun entry hentry ↦ if_pos hentry
  have hrest : ∀ entry ∈ order.drop count,
      (if entry ∈ order.take count then (1 : Int) else 0) = 0 := fun entry hentry ↦
    if_neg fun htaken ↦ (List.nodup_append.mp hsplit).2.2 entry htaken entry hentry rfl
  rw [← (hperm.map _).sum_eq]
  conv_lhs => rw [← take_append_drop count order]
  rw [map_append, sum_append]
  simp [map_congr_left hfirst, map_congr_left hrest, hcount]

end Remainders

theorem truncate_eq_floor {value : Rat} (hvalue : 0 ≤ value) : truncate value = ⌊value⌋ := by
  rw [Rat.floor_def', ← Int.tdiv_eq_ediv_of_nonneg (Rat.num_nonneg.mpr hvalue)]
  rfl

def envelopeOf (envelopes : OrderedDict String Int) (name : String) : Int :=
  (envelopes.get? name).getD 0

variable {budgetTokens : Int}

/-- The floors leave what the fractional parts sum up to, and `carve` gives it out. -/
theorem carve_exact {raw : String → Rat} (hraw : ∀ name, 0 ≤ raw name)
    (hsum : (sectionNames.map raw).sum = budgetTokens) :
    (sectionNames.map (envelopeOf (carve budgetTokens raw))).sum = budgetTokens ∧
      ∀ name ∈ sectionNames, |(envelopeOf (carve budgetTokens raw) name : Rat) - raw name| < 1 := by
  have hpart : ∀ name, raw name - truncate (raw name) = Int.fract (raw name) := fun name ↦ by
    rw [truncate_eq_floor (hraw name), Int.self_sub_floor]
  have hremainder :
      ((budgetTokens - (sectionNames.map fun name ↦ truncate (raw name)).sum : Int) : Rat) =
        (sectionNames.map fun name ↦ Int.fract (raw name)).sum := by
    simp only [← hpart, sectionNames, map_cons, map_nil, sum_cons, sum_nil] at hsum ⊢
    push_cast
    linarith
  obtain ⟨count, hcount⟩ : ∃ count : Nat,
      budgetTokens - (sectionNames.map fun name ↦ truncate (raw name)).sum = count := by
    refine Int.eq_ofNat_of_zero_le ?_
    have hnonneg : 0 ≤ (sectionNames.map fun name ↦ Int.fract (raw name)).sum :=
      sum_nonneg (forall_mem_map.mpr fun name _ ↦ Int.fract_nonneg _)
    rw [← hremainder] at hnonneg
    exact_mod_cast hnonneg
  have henvelope : ∀ name ∈ sectionNames, envelopeOf (carve budgetTokens raw) name =
      truncate (raw name) + if name ∈ (sortedBy (fun name ↦ toLex (-Int.fract (raw name), name))
        sectionNames).take count then 1 else 0 := by
    intro name hname
    unfold envelopeOf carve
    rw [get?_bySection _ hname, Option.getD_some]
    simp only [hpart, hcount, sliceTo, Int.natCast_nonneg, if_true, Int.toNat_natCast]
  have hle : count ≤ (sectionNames.map fun name ↦ Int.fract (raw name)).sum := by
    rw [← hremainder, hcount, Int.cast_natCast]
  have hperm := perm_sortedBy (fun name ↦ toLex (-Int.fract (raw name), name)) sectionNames
  have hsorted : (sortedBy (fun name ↦ toLex (-Int.fract (raw name), name)) sectionNames).Pairwise
      fun first second ↦ Int.fract (raw second) ≤ Int.fract (raw first) := by
    refine (pairwise_sortedBy _ _).imp ?_
    intro first second hle
    exact neg_le_neg_iff.mp (Prod.Lex.monotone_fst _ _ hle)
  have hlt : ∀ name, Int.fract (raw name) < 1 := fun name ↦ Int.fract_lt_one _
  constructor
  · have hlength := le_length_of_le_sum (fun name _ ↦ hlt name) hle
    rw [← hperm.length_eq] at hlength
    rw [map_congr_left henvelope, sum_map_add, sum_handed hperm (by decide) hlength]
    omega
  · intro name hname
    have hsplit : raw name - truncate (raw name) = Int.fract (raw name) := hpart name
    have hnonneg := Int.fract_nonneg (raw name)
    have hbelow := hlt name
    rw [henvelope name hname, abs_lt]
    split
    · rename_i hname
      have hpos := pos_of_mem_take (fun name _ ↦ hlt name) hsorted
        (hle.trans_eq (hperm.map fun name ↦ Int.fract (raw name)).sum_eq.symm) hname
      push_cast
      constructor <;> linarith
    · push_cast
      constructor <;> linarith

abbrev totalWeight (config : ConfigView) : Rat := (sectionNames.map config.weightOf).sum

/-- Exact shares are carved out whole. Without any weight every envelope is empty. -/
theorem exists_sectionEnvelopes (config : ConfigView) (hbudget : 0 ≤ budgetTokens) :
    ∃ envelopes, sectionEnvelopes exactShare config budgetTokens = .ok envelopes ∧
      (sectionNames.map (envelopeOf envelopes)).sum =
        (if totalWeight config = 0 then 0 else budgetTokens) ∧
      ∀ name ∈ sectionNames, |(envelopeOf envelopes name : Rat) -
        config.weightOf name / totalWeight config * budgetTokens| < 1 := by
  unfold sectionEnvelopes
  rw [if_neg (not_lt.mpr hbudget)]
  have htotal : 0 ≤ totalWeight config :=
    sum_nonneg (forall_mem_map.mpr fun name _ ↦ config.weightOf_nonneg name)
  have hcast : ((budgetTokens.toNat : Nat) : Rat) = budgetTokens := by
    exact_mod_cast Int.toNat_of_nonneg hbudget
  by_cases hempty : totalWeight config ≤ 0 ∨ budgetTokens = 0
  · rw [if_pos hempty]
    have hzero : ∀ name ∈ sectionNames, envelopeOf (bySection fun _ ↦ 0) name = 0 := by
      intro name hname
      unfold envelopeOf
      rw [get?_bySection _ hname, Option.getD_some]
    refine ⟨_, rfl, ?_, fun name hname ↦ ?_⟩
    · rw [map_congr_left hzero]
      rcases hempty with hweight | rfl
      · rw [if_pos (le_antisymm hweight htotal)]
        rfl
      · rw [ite_self]
        rfl
    · rw [hzero name hname]
      rcases hempty with hweight | rfl
      · simp [le_antisymm hweight htotal]
      · simp
  · rw [if_neg hempty]
    have hpos : 0 < totalWeight config := not_le.mp (not_or.mp hempty).1
    have hraw : ∀ name, (rawShare exactShare config budgetTokens name).getD 0 =
        config.weightOf name / totalWeight config * budgetTokens := fun name ↦ by
      rw [← hcast]
      rfl
    have hsum : (sectionNames.map fun name ↦
        (rawShare exactShare config budgetTokens name).getD 0).sum = budgetTokens := by
      simp only [hraw, div_eq_mul_inv]
      rw [sum_map_mul_right, sum_map_mul_right, mul_inv_cancel₀ hpos.ne', one_mul]
    obtain ⟨hwhole, hquota⟩ := carve_exact (fun name ↦ rawShare_nonneg name) hsum
    refine ⟨_, if_neg fun hnone ↦ ?_, ?_, fun name hname ↦ ?_⟩
    · obtain ⟨name, -, hnone⟩ := any_eq_true.mp hnone
      cases hnone
    · rw [if_neg hpos.ne']
      exact hwhole
    · rw [← hraw]
      exact hquota name hname

/-! ### The greedy walk -/

/-- A candidate with the tier and the text that it is included with, or with nothing. -/
abbrev Outcome := Candidate × Option (String × Json)

def Outcome.cost (outcome : Outcome) : Nat :=
  match outcome.2 with
  | some (_, text) => tokenCount text
  | none => 0

/-- The item that an outcome includes: the entries of the candidate, the tier and the text. -/
def Outcome.item? (outcome : Outcome) : Option (Candidate × String × Json) :=
  outcome.2.map fun chosen ↦ (outcome.1.header, chosen)

def spentIn (name : String) (outcomes : List Outcome) : Nat :=
  ((outcomes.filter fun outcome ↦ outcome.1.sectionName = name).map Outcome.cost).sum

/-- Whether a cost fits what the outcomes leave of the envelope of a section. -/
def fitsIn (envelopes : OrderedDict String Int) (outcomes : List Outcome) (name : String)
    (cost : Nat) : Bool :=
  (cost : Int) ≤ envelopeOf envelopes name - spentIn name outcomes

/-- Each candidate is included at the richest tier that fits what the outcomes before it leave of
its envelope, or with nothing where no tier fits. -/
inductive Greedy (envelopes : OrderedDict String Int) : List Outcome → Prop
  | nil : Greedy envelopes []
  | keep {earlier : List Outcome} {candidate : Candidate} {tier : String} {text : Json} :
    Greedy envelopes earlier →
    Picks candidate.content (fitsIn envelopes earlier candidate.sectionName) tier text →
    Greedy envelopes (earlier ++ [(candidate, some (tier, text))])
  | drop {earlier : List Outcome} {candidate : Candidate} :
    Greedy envelopes earlier →
    (∀ tier text, Offers candidate.content tier text →
      fitsIn envelopes earlier candidate.sectionName (tokenCount text) = false) →
    Greedy envelopes (earlier ++ [(candidate, none)])

/-- The accounts are those of the outcomes. -/
structure Follows (envelopes : OrderedDict String Int) (outcomes : List Outcome)
    (fitting : Fitting) : Prop where
  greedy : Greedy envelopes outcomes
  known : ∀ outcome ∈ outcomes, outcome.1.sectionName ∈ sectionNames
  tokensUsed : fitting.tokensUsed = (outcomes.map Outcome.cost).sum
  sectionUsed : ∀ name ∈ sectionNames,
    (fitting.sectionUsed.get? name).getD 0 = spentIn name outcomes
  items : fitting.items.map (fun item ↦ (item.header, item.fidelity, item.content)) =
    outcomes.filterMap Outcome.item?
  dropped : fitting.dropped = outcomes.countP fun outcome ↦ outcome.2.isNone

variable {envelopes : OrderedDict String Int} {outcomes : List Outcome} {fitting : Fitting}

theorem spentIn_append (name : String) (outcome : Outcome) :
    spentIn name (outcomes ++ [outcome]) = spentIn name outcomes +
      if outcome.1.sectionName = name then outcome.cost else 0 := by
  unfold spentIn
  split <;> simp_all

/-- The sections account for all that was spent. -/
theorem sum_spentIn (hknown : ∀ outcome ∈ outcomes, outcome.1.sectionName ∈ sectionNames) :
    (sectionNames.map fun name ↦ spentIn name outcomes).sum = (outcomes.map Outcome.cost).sum := by
  induction outcomes using List.reverseRecOn with
  | nil => rfl
  | append_singleton earlier outcome ih =>
    have hname := hknown outcome (mem_append_right _ mem_cons_self)
    simp only [spentIn_append]
    rw [sum_map_add, ih fun other hother ↦ hknown other (mem_append_left _ hother),
      map_append, sum_append, map_singleton, sum_singleton,
      Nat.add_left_cancel_iff]
    simp only [sectionNames, mem_cons, not_mem_nil, or_false] at hname
    rcases hname with hname | hname | hname | hname | hname <;> simp [sectionNames, hname]

section

variable (hfollows : Follows envelopes outcomes fitting)

include hfollows

/-- What the budget leaves is no less than what the envelope of a section leaves. -/
theorem Follows.room_eq (hwithin : ∀ name ∈ sectionNames,
      ((fitting.sectionUsed.get? name).getD 0 : Int) ≤ envelopeOf envelopes name)
    (hsum : (sectionNames.map (envelopeOf envelopes)).sum ≤ budgetTokens) {name : String}
    (hname : name ∈ sectionNames) :
    fitting.room envelopes budgetTokens name = fitsIn envelopes outcomes name := by
  funext cost
  have hused := hfollows.tokensUsed.trans (sum_spentIn hfollows.known).symm
  rw [← map_congr_left hfollows.sectionUsed] at hused
  unfold fitsIn
  rw [Bool.eq_iff_iff, Fitting.room_eq_true_iff, decide_eq_true_iff, hused,
    ← hfollows.sectionUsed name hname]
  refine ⟨And.left, fun hfits ↦ ⟨hfits, ?_⟩⟩
  simp only [sectionNames, forall_mem_cons, map_cons, map_nil, sum_cons, sum_nil] at hwithin hsum ⊢
  simp only [sectionNames, mem_cons, not_mem_nil, or_false] at hname
  rcases hname with rfl | rfl | rfl | rfl | rfl <;> omega

theorem Follows.place {candidate : Candidate} {tier : String} {text : Json}
    (hname : candidate.sectionName ∈ sectionNames)
    (hpicks : Picks candidate.content (fitsIn envelopes outcomes candidate.sectionName) tier text) :
    Follows envelopes (outcomes ++ [(candidate, some (tier, text))])
      (fitting.place candidate tier text) where
  greedy := hfollows.greedy.keep hpicks
  known := forall_mem_append.mpr ⟨hfollows.known, forall_mem_singleton.mpr hname⟩
  tokensUsed := by
    rw [map_append, sum_append, ← hfollows.tokensUsed]
    rfl
  sectionUsed := by
    intro name hname
    change ((fitting.sectionUsed.insert _ _).get? name).getD 0 = _
    rw [OrderedDict.get?_insert, spentIn_append, ← hfollows.sectionUsed name hname]
    by_cases hsame : candidate.sectionName = name
    · rw [if_pos hsame, if_pos hsame, hsame]
      rfl
    · rw [if_neg hsame, if_neg hsame]
      rfl
  items := by
    rw [filterMap_append, ← hfollows.items]
    change (fitting.items ++ [_]).map _ = _
    rw [map_append]
    rfl
  dropped := by
    rw [countP_append, ← hfollows.dropped]
    rfl

theorem Follows.drop {candidate : Candidate} (hname : candidate.sectionName ∈ sectionNames)
    (hnone : ∀ tier text, Offers candidate.content tier text →
      fitsIn envelopes outcomes candidate.sectionName (tokenCount text) = false) :
    Follows envelopes (outcomes ++ [(candidate, none)]) fitting.drop where
  greedy := hfollows.greedy.drop hnone
  known := forall_mem_append.mpr ⟨hfollows.known, forall_mem_singleton.mpr hname⟩
  tokensUsed := by
    rw [map_append, sum_append, ← hfollows.tokensUsed]
    rfl
  sectionUsed := by
    intro name hname
    rw [spentIn_append, ← hfollows.sectionUsed name hname]
    split <;> rfl
  items := by
    rw [filterMap_append, ← hfollows.items]
    exact (append_nil _).symm
  dropped := by
    rw [countP_append, ← hfollows.dropped]
    rfl

end

/-- A candidate of a known section, whose content has every tier where it is split into tiers. -/
structure Candidate.WellFormed (candidate : Candidate) : Prop where
  known : candidate.sectionName ∈ sectionNames
  tiered : ∀ fields, candidate.content = .obj fields →
    ∀ tier ∈ tiers, (OrderedDict.find tier fields).isSome

theorem exists_choose {candidate : Candidate} (hformed : candidate.WellFormed)
    (room : Nat → Bool) : ∃ chosen, choose room candidate.content = .ok chosen := by
  cases hchoice : choose room candidate.content with
  | ok chosen => exact ⟨chosen, rfl⟩
  | error failure =>
    have htiered := hformed.tiered
    revert hchoice htiered
    cases candidate.content with
    | obj fields =>
      intro hchoice htiered
      have hoptions := htiered fields rfl
      change chooseTier fields room tiers = _ at hchoice
      generalize tiers = options at hchoice hoptions
      induction options with
      | nil => cases hchoice
      | cons option rest ih =>
        obtain ⟨hfirst, hrest⟩ := forall_mem_cons.mp hoptions
        obtain ⟨text, htext⟩ := Option.isSome_iff_exists.mp hfirst
        unfold chooseTier at hchoice
        simp only [htext] at hchoice
        split at hchoice
        · cases hchoice
        · exact ih hchoice hrest
    | null | bool value | int value | float value text | str text | arr elements =>
      intro hformed
      cases hformed

theorem exists_walk {budgetTokens : Int} {candidates : List Candidate}
    (hformed : ∀ candidate ∈ candidates, candidate.WellFormed) (fitting : Fitting) :
    ∃ last, candidates.foldlM (Fitting.step envelopes budgetTokens) fitting = .ok last := by
  induction candidates generalizing fitting with
  | nil => exact ⟨fitting, rfl⟩
  | cons candidate rest ih =>
    obtain ⟨hfirst, hrest⟩ := forall_mem_cons.mp hformed
    obtain ⟨chosen, hchosen⟩ := exists_choose hfirst
      (fitting.room envelopes budgetTokens candidate.sectionName)
    rw [foldlM_cons]
    unfold Fitting.step
    rw [if_neg (not_not_intro hfirst.known), hchosen]
    exact ih hrest _

/-- A plain text of the files. -/
def sampleCandidate : Candidate where
  id := "a"
  sectionName := "files"
  content := .str "two words"
  score := .int 1
  stale := some (.bool false)
  provenance := .empty
  contradiction := false

/-- What `fit` returns for the candidates: envelopes that split the budget by the weights, accounts
within them, and an outcome for each candidate. -/
structure Budgeted (config : ConfigView) (budgetTokens : Int) (candidates : List Candidate)
    (outcomes : List Outcome) (fitted : Fitted) : Prop where
  whole : (sectionNames.map (envelopeOf fitted.sectionBudgets)).sum =
    if totalWeight config = 0 then 0 else budgetTokens
  quota : ∀ name ∈ sectionNames, |(envelopeOf fitted.sectionBudgets name : Rat) -
    config.weightOf name / totalWeight config * budgetTokens| < 1
  within : (fitted.tokensUsed : Int) ≤ budgetTokens
  withinSection : ∀ name ∈ sectionNames,
    ((fitted.sectionUsed.get? name).getD 0 : Int) ≤ envelopeOf fitted.sectionBudgets name
  each : outcomes.map Prod.fst = candidates
  follows : Follows fitted.sectionBudgets outcomes fitted.toFitting

/-- Budgeting is exact and greedy: the fitter returns for every budget, weights and candidates, and
the outcomes behind its items are the greedy ones.

Assumes: the budget is not negative, and the candidates are well formed. -/
theorem exists_budgeted (config : ConfigView) (hbudget : 0 ≤ budgetTokens)
    {candidates : List Candidate} (hformed : ∀ candidate ∈ candidates, candidate.WellFormed) :
    ∃ fitted outcomes, fit exactShare config budgetTokens candidates = .ok fitted ∧
      Budgeted config budgetTokens candidates outcomes fitted := by
  obtain ⟨envelopes, henvelopes, hwhole, hquota⟩ := exists_sectionEnvelopes config hbudget
  obtain ⟨last, hwalk⟩ := @exists_walk envelopes budgetTokens candidates hformed .start
  have hfit : fit exactShare config budgetTokens candidates =
      .ok { last with sectionBudgets := envelopes } := by
    unfold fit
    rw [henvelopes]
    simp only [bind, Except.bind, hwalk]
    rfl
  have hsum : (sectionNames.map (envelopeOf envelopes)).sum ≤ budgetTokens := by
    rw [hwhole]
    split
    · exact hbudget
    · exact le_rfl
  have hstart : Follows envelopes [] .start := ⟨.nil, nofun, rfl, fun name hname ↦
    congrArg (Option.getD · 0) (get?_bySection _ hname), rfl, rfl⟩
  have hwalked := @Fitting.walk_induct envelopes budgetTokens
    (fun walked fitting ↦ Fitting.Accounts envelopes budgetTokens walked fitting ∧
      ∃ outcomes, outcomes.map Prod.fst = walked ∧ Follows envelopes outcomes fitting)
    (by
      rintro _ fitting candidate tier text ⟨haccounts, outcomes, rfl, hfollows⟩ hname hpicks
      rw [hfollows.room_eq haccounts.withinSection hsum hname] at hpicks
      exact ⟨haccounts.place hname (by rwa [hfollows.room_eq haccounts.withinSection hsum hname]),
        _, map_append, hfollows.place hname hpicks⟩)
    (by
      rintro _ fitting candidate ⟨haccounts, outcomes, rfl, hfollows⟩ hname hnone
      rw [hfollows.room_eq haccounts.withinSection hsum hname] at hnone
      exact ⟨haccounts.drop candidate, _, map_append, hfollows.drop hname hnone⟩)
    candidates [] .start last ⟨accounts_start henvelopes, [], rfl, hstart⟩ hwalk
  obtain ⟨haccounts, outcomes, heach, hfollows⟩ := hwalked
  exact ⟨_, outcomes, hfit, hwhole, hquota, haccounts.within, haccounts.withinSection, heach,
    hfollows⟩

/-- A plain text, a text in tiers and the plain text again. -/
def sampleCandidates : List Candidate :=
  [sampleCandidate, { sampleCandidate with
    id := "b"
    content := .obj [("full", .str "one text of five words"), ("section", .str "three short words"),
      ("reference", .str "b")] }, { sampleCandidate with id := "c" }]

theorem wellFormed_sampleCandidates : ∀ candidate ∈ sampleCandidates, candidate.WellFormed := by
  refine forall_mem_cons.mpr ⟨⟨by decide, fun _ hfields ↦ by cases hfields⟩,
    forall_mem_cons.mpr ⟨⟨by decide, fun _ hfields ↦ ?_⟩, forall_mem_singleton.mpr ⟨by decide,
      fun _ hfields ↦ by cases hfields⟩⟩⟩
  cases hfields
  decide

/-- The second candidate is degraded and the third one dropped. -/
theorem exists_budgeted_sample : ∃ fitted outcomes,
    fit exactShare defaultConfig 10 sampleCandidates = .ok fitted ∧
      Budgeted defaultConfig 10 sampleCandidates outcomes fitted ∧
        fitted.degraded = ["b"] ∧ fitted.dropped = 1 := by
  obtain ⟨fitted, outcomes, hfit, hbudgeted⟩ :=
    exists_budgeted defaultConfig (by decide : (0 : Int) ≤ 10) wellFormed_sampleCandidates
  have hcounts : (fit exactShare defaultConfig 10 sampleCandidates).toOption.map
      (fun fitted ↦ (fitted.degraded, fitted.dropped)) = some (["b"], 1) := by decide +kernel
  rw [hfit] at hcounts
  obtain ⟨hdegraded, hdropped⟩ := Prod.mk.inj (Option.some.inj hcounts)
  exact ⟨fitted, outcomes, hfit, hbudgeted, hdegraded, hdropped⟩

/-- Without any weight a budget is not given out. -/
theorem exists_not_whole : ∃ config budgetTokens envelopes,
    sectionEnvelopes exactShare config budgetTokens = .ok envelopes ∧
      (sectionNames.map (envelopeOf envelopes)).sum ≠ budgetTokens :=
  ⟨⟨.empty, nofun⟩, 5, bySection fun _ ↦ 0, by
    exact (if_neg (by decide)).trans (if_pos (.inl
      (sum_eq_zero (forall_mem_map.mpr fun _ _ ↦ rfl)).le)), by decide⟩

end AbsoluteZero.Cm

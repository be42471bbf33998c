import AbsoluteZero.Verification.Findings
import AbsoluteZero.Verification.RequiredChecks

/-!
# What further evidence changes

How well a claim stands depends on the kinds of its evidence alone. The verdict reads the result of
every item that is not missing, so a redundant item changes the conclusion unless its result passes
or the body fails for a cause that takes precedence (`order_free_iff`).
-/

namespace AbsoluteZero.Verification

open Foundations Checked List

abbrev ClaimKey := VerificationLevel × DictKey

/-- A kind of evidence that makes a claim stand. -/
def Substantive (kind : Json) : Prop := kind = .str "independent" ∨ kind = .str "corroborating"

instance (kind : Json) : Decidable (Substantive kind) := inferInstanceAs (Decidable (_ ∨ _))

/-- The strength that the kinds of its evidence give to a claim. -/
def strengthOf (kinds : List Json) : Strength :=
  if .str "conflicting" ∈ kinds then .conflicted
  else if ∀ kind ∈ kinds, kind = .str "missing" then .absent
  else
    match (kinds.filter fun kind ↦ Substantive kind).length with
    | 0 => .absent
    | 1 => .single
    | _ => .corroborated

variable {kinds others : List Json} {kind : Json}

theorem strengthOf_perm (hperm : kinds.Perm others) : strengthOf kinds = strengthOf others := by
  unfold strengthOf
  simp only [(hperm.filter _).length_eq, hperm.mem_iff]

section

variable (hkind : kind ∈ kinds) (hstands : Substantive kind)

include hkind hstands

theorem not_all_missing (more : List Json) : ¬ ∀ kind ∈ kinds ++ more, kind = .str "missing" := by
  intro hall
  have hmissing := hall kind (mem_append_left more hkind)
  rcases hstands with rfl | rfl <;> exact absurd hmissing (by decide)

/-- A redundant item adds nothing to a claim that stands. -/
theorem strengthOf_redundant : strengthOf (kinds ++ [.str "redundant"]) = strengthOf kinds := by
  have hnone : ([.str "redundant"] : List Json).filter (fun kind ↦ Substantive kind) = [] := by
    decide
  have hsome := not_all_missing hkind hstands []
  rw [append_nil] at hsome
  unfold strengthOf
  rw [if_neg hsome, if_neg (not_all_missing hkind hstands _), filter_append, hnone, append_nil]
  simp

/-- Without a conflict, one more item corroborates a claim that stands. -/
theorem strengthOf_corroborating (hclear : .str "conflicting" ∉ kinds) :
    (strengthOf kinds = .single ∨ strengthOf kinds = .corroborated) ∧
      strengthOf (kinds ++ [.str "corroborating"]) = .corroborated := by
  have hone : ([.str "corroborating"] : List Json).filter (fun kind ↦ Substantive kind) =
      [.str "corroborating"] := by decide
  have hpos : 0 < (kinds.filter fun kind ↦ Substantive kind).length :=
    length_pos_of_mem (mem_filter.mpr ⟨hkind, decide_eq_true hstands⟩)
  have hsome := not_all_missing hkind hstands []
  rw [append_nil] at hsome
  unfold strengthOf
  rw [if_neg hclear, if_neg hsome, if_neg (by simpa using hclear),
    if_neg (not_all_missing hkind hstands _), filter_append, hone, length_append,
    length_singleton]
  obtain ⟨count, hcount⟩ := Nat.exists_eq_succ_of_ne_zero hpos.ne'
  rw [hcount]
  cases count with
  | zero => exact ⟨.inl rfl, rfl⟩
  | succ count => exact ⟨.inr rfl, rfl⟩

end

def kindsAt (items : List EvidenceItem) (key : ClaimKey) : List Json :=
  (items.filter fun item ↦ (claimKey item).toOption = some key).map EvidenceItem.contributionKind

theorem kinds_claimOf {items : List EvidenceItem} {keyed : List (ClaimKey × Nat × EvidenceItem)}
    (hkeyed : items.zipIdx.mapM keyedEntry = .ok keyed) (key : ClaimKey) :
    (claimOf keyed key).kinds = kindsAt items key := by
  unfold claimOf Claim.kinds kindsAt
  rw [map_map, ← items_of_keyed hkeyed, filter_map, map_map]
  refine congrArg _ (filter_congr fun entry hentry ↦ ?_)
  simp [(mem_of_keyed hkeyed hentry).2, Except.toOption]

theorem nodup_eraseDups {Key : Type} [BEq Key] [LawfulBEq Key] (keys : List Key) :
    keys.eraseDups.Nodup := by
  induction hlength : keys.length using Nat.strong_induction_on generalizing keys with
  | _ length ih =>
    cases keys with
    | nil => simp
    | cons key rest =>
      rw [eraseDups_cons]
      refine nodup_cons.mpr ⟨fun hmem ↦ ?_, ih _ ?_ _ rfl⟩
      · simp at hmem
      · exact hlength ▸ Nat.lt_succ_of_le (length_filter_le _ _)

/-- What an account concludes: its findings, and how many claims there are and stand. -/
abbrev Conclusion := Findings × Nat × Nat

def conclusion (quotient : Nat → Nat → Rat) (policy : DerivationPolicy) (record : EvidenceRecord) :
    Option Conclusion :=
  (derive quotient policy record).toOption.map fun account ↦
    (account.findings, account.coverage.established, account.coverage.total)

/-- The conclusion from the standings of the claims of a body. -/
def concluded (quotient : Nat → Nat → Rat) (policy : DerivationPolicy) (items : List EvidenceItem)
    (standings : List (VerificationLevel × Strength)) : Conclusion :=
  (⟨(verdictAndCause items).1, (verdictAndCause items).2, confidenceOf standings,
    coverageOf quotient policy standings, assuranceLevel (verdictAndCause items).1
      (confidenceOf standings) (coverageOf quotient policy standings)⟩,
    (standings.filter fun standing ↦ standing.2 ≠ .absent).length, standings.length)

/-- The rules of the body are texts and its levels are among the closed five. -/
def Derivable (items : List EvidenceItem) : Prop := ∀ item ∈ items, item.Textual ∧ item.Levelled

variable {quotient : Nat → Nat → Rat} {policy : DerivationPolicy} {record : EvidenceRecord}

theorem concluded_perm {items : List EvidenceItem}
    {first second : List (VerificationLevel × Strength)} (hperm : first.Perm second) :
    concluded quotient policy items first = concluded quotient policy items second := by
  unfold concluded
  rw [confidenceOf_perm hperm, coverageOf_perm hperm, (hperm.filter _).length_eq, hperm.length_eq]

/-- The keys of a body are listed once each, and what a body of the same keys concludes depends on
its verdict and on the strengths of these keys. -/
theorem exists_conclusion (hbody : Derivable record.items) : ∃ keys : List ClaimKey,
    ∀ other : EvidenceRecord, Derivable other.items →
      (∀ key, (∃ item ∈ other.items, claimKey item = .ok key) ↔
        ∃ item ∈ record.items, claimKey item = .ok key) →
      conclusion quotient policy other = some (concluded quotient policy other.items
        (keys.map fun key ↦ (key.1, strengthOf (kindsAt other.items key)))) := by
  have hbodies (other : EvidenceRecord) (hother : Derivable other.items) :
      ∃ keys : List ClaimKey, keys.Nodup ∧
        (∀ key, key ∈ keys ↔ ∃ item ∈ other.items, claimKey item = .ok key) ∧
        conclusion quotient policy other = some (concluded quotient policy other.items
          (keys.map fun key ↦ (key.1, strengthOf (kindsAt other.items key)))) := by
    obtain ⟨account, haccount⟩ := (exists_derive_iff quotient policy fun item hitem ↦
      (hother item hitem).1).mpr fun item hitem ↦ (hother item hitem).2
    obtain ⟨claims, hclaims, hrest⟩ := bind_eq_ok_iff.mp haccount
    obtain ⟨keyed, hkeyed, rfl⟩ := groupClaims_eq_ok_iff.mp hclaims
    obtain ⟨statements, -, hanswer⟩ := bind_eq_ok_iff.mp hrest
    have hfindings := findings_of_derive hclaims haccount
    refine ⟨(keyed.map Prod.fst).eraseDups, nodup_eraseDups _, fun key ↦ ?_, ?_⟩
    · rw [mem_eraseDups, mem_map]
      constructor
      · rintro ⟨entry, hentry, rfl⟩
        exact ⟨_, mem_of_keyed hkeyed hentry⟩
      · rintro ⟨item, hitem, hkey⟩
        rw [← items_of_keyed hkeyed] at hitem
        obtain ⟨entry, hentry, rfl⟩ := mem_map.mp hitem
        exact ⟨entry, hentry, Except.ok.inj ((mem_of_keyed hkeyed hentry).2.symm.trans hkey)⟩
    · have hstandings : ((keyed.map Prod.fst).eraseDups.map (claimOf keyed)).map Claim.standing =
          (keyed.map Prod.fst).eraseDups.map fun key ↦
            (key.1, strengthOf (kindsAt other.items key)) := by
        rw [map_map]
        refine map_congr_left fun key _ ↦ ?_
        rw [← kinds_claimOf hkeyed]
        rfl
      rw [← hstandings]
      generalize (keyed.map Prod.fst).eraseDups.map (claimOf keyed) = claims at *
      unfold conclusion
      rw [haccount]
      cases hanswer
      simp only [Except.toOption, Option.map_some, concluded, hfindings, filter_map, length_map]
      rfl
  obtain ⟨keys, hnodup, hmem, -⟩ := hbodies record hbody
  refine ⟨keys, fun other hother hkeys ↦ ?_⟩
  obtain ⟨others, hnodup', hmem', hconclusion⟩ := hbodies other hother
  have hperm : others.Perm keys := (perm_ext_iff_of_nodup hnodup' hnodup).mpr fun key ↦ by
    rw [hmem, hmem', hkeys]
  rw [hconclusion, concluded_perm (hperm.map _)]

/-- The order of a body does not matter. -/
theorem conclusion_perm (hbody : Derivable record.items) {other : EvidenceRecord}
    (hperm : other.items.Perm record.items) :
    conclusion quotient policy other = conclusion quotient policy record := by
  obtain ⟨keys, hconclusion⟩ := exists_conclusion hbody
  rw [hconclusion record hbody fun _ ↦ .rfl, hconclusion other
    (fun item hitem ↦ hbody item (hperm.mem_iff.mp hitem)) fun _ ↦
      exists_congr fun _ ↦ and_congr_left' hperm.mem_iff]
  have hstrength (key : ClaimKey) :
      strengthOf (kindsAt other.items key) = strengthOf (kindsAt record.items key) :=
    strengthOf_perm ((hperm.filter _).map _)
  simp only [hstrength, concluded, verdictAndCause_perm hperm]

def Joins (items : List EvidenceItem) (item : EvidenceItem) : Prop :=
  ∃ other ∈ items, other.level = item.level ∧ other.rule = item.rule ∧
    Substantive other.contributionKind

variable {items : List EvidenceItem} {item : EvidenceItem}

theorem kindsAt_append (key : ClaimKey) :
    kindsAt (items ++ [item]) key = kindsAt items key ++
      if (claimKey item).toOption = some key then [item.contributionKind] else [] := by
  unfold kindsAt
  by_cases hkey : (claimKey item).toOption = some key <;> simp [hkey]

section

variable (hjoins : Joins items item)

include hjoins

theorem Joins.derivable (hbody : Derivable items) : Derivable (items ++ [item]) := by
  obtain ⟨other, hother, hlevel, hrule, -⟩ := hjoins
  intro found hfound
  rcases mem_append.mp hfound with hold | hnew
  · exact hbody found hold
  · obtain ⟨⟨rule, htext⟩, level, hknown⟩ := hbody other hother
    rw [mem_singleton.mp hnew]
    exact ⟨⟨rule, hrule.symm.trans htext⟩, level, hlevel.symm.trans hknown⟩

theorem Joins.claimKey_eq : ∃ other ∈ items, claimKey other = claimKey item ∧
    Substantive other.contributionKind := by
  obtain ⟨other, hother, hlevel, hrule, hstands⟩ := hjoins
  exact ⟨other, hother, by unfold claimKey itemLevel; rw [hlevel, hrule], hstands⟩

theorem Joins.keys_iff (key : ClaimKey) :
    (∃ found ∈ items ++ [item], claimKey found = .ok key) ↔
      ∃ found ∈ items, claimKey found = .ok key := by
  obtain ⟨other, hother, hsame, -⟩ := hjoins.claimKey_eq
  constructor
  · rintro ⟨found, hfound, hkey⟩
    rcases mem_append.mp hfound with hold | hnew
    · exact ⟨found, hold, hkey⟩
    · rw [mem_singleton.mp hnew] at hkey
      exact ⟨other, hother, hsame.trans hkey⟩
  · rintro ⟨found, hfound, hkey⟩
    exact ⟨found, mem_append_left _ hfound, hkey⟩

theorem Joins.exists_kind {key : ClaimKey} (hkey : (claimKey item).toOption = some key) :
    ∃ kind ∈ kindsAt items key, Substantive kind := by
  obtain ⟨other, hother, hsame, hstands⟩ := hjoins.claimKey_eq
  exact ⟨_, mem_map_of_mem (mem_filter.mpr ⟨hother, decide_eq_true (by rw [hsame, hkey])⟩), hstands⟩

theorem Joins.strength_redundant (hkind : item.contributionKind = .str "redundant")
    (key : ClaimKey) :
    strengthOf (kindsAt (items ++ [item]) key) = strengthOf (kindsAt items key) := by
  rw [kindsAt_append]
  by_cases hkey : (claimKey item).toOption = some key
  · obtain ⟨kind, hmem, hstands⟩ := hjoins.exists_kind hkey
    rw [if_pos hkey, hkind, strengthOf_redundant hmem hstands]
  · rw [if_neg hkey, append_nil]

end

/-- The result of a redundant item has no influence on the verdict: it passes, or the body fails for
a cause that takes precedence. -/
def Overruled (items : List EvidenceItem) (item : EvidenceItem) : Prop :=
  item.Passing ∨ (∃ other ∈ items, other.Conflicting ∨ other.Unresolved) ∨
    (¬ item.Unresolved ∧ ∃ other ∈ items, other.ExecutionFailed) ∨
    item.SemanticFailed ∧ ∃ other ∈ items, other.SemanticFailed

theorem verdictAndCause_append_iff (hitems : items ≠ [])
    (hkind : item.contributionKind = .str "redundant") :
    verdictAndCause (items ++ [item]) = verdictAndCause items ↔ Overruled items item := by
  have hmissing : ¬ item.Missing := by simp [EvidenceItem.Missing, hkind]
  have hconflicting : ¬ item.Conflicting := by simp [EvidenceItem.Conflicting, hkind]
  -- A redundant item falls under one of four results.
  have hpassing : item.Passing → ¬ item.ExecutionFailed ∧ ¬ item.SemanticFailed := by
    simp only [EvidenceItem.Passing, EvidenceItem.ExecutionFailed, EvidenceItem.SemanticFailed,
      passingResults, mem_cons, not_mem_nil, or_false]
    rintro (hresult | hresult) <;> rw [hresult] <;> simp
      [executionFailureResults, semanticFailResults]
  have hsemantic : item.SemanticFailed → ¬ item.ExecutionFailed := by
    rintro ⟨-, hresult⟩ ⟨-, hother⟩
    rw [mem_singleton.mp hresult] at hother
    revert hother
    decide
  have hunresolved : item.Unresolved ↔ ¬ item.Passing ∧ ¬ item.ExecutionFailed ∧
      ¬ item.SemanticFailed := by
    simp [EvidenceItem.Unresolved, EvidenceItem.ExecutionFailed, EvidenceItem.SemanticFailed,
      hmissing]
  have hexists (property : EvidenceItem → Prop) : (∃ found ∈ items ++ [item], property found) ↔
      (∃ found ∈ items, property found) ∨ property item := by
    simp [or_and_right, exists_or]
  unfold verdictAndCause Overruled
  rw [if_neg hitems, if_neg (by simp)]
  simp only [hexists, hmissing, hconflicting, or_false, and_or_left, exists_or]
  split_ifs <;> grind

/-! ### Corroboration -/

/-- One more corroborating item leaves a strength as it is or raises it. -/
def Raises (before after : Strength) : Prop :=
  before = after ∨ before = .single ∧ after = .corroborated

/-- A confidence level stays or gets higher, and does not come from nothing. -/
def ConfidenceLevel.Raises (before after : ConfidenceLevel) : Prop :=
  before = after ∨ before = .weak ∧ (after = .moderate ∨ after = .strong) ∨
    before = .moderate ∧ after = .strong

theorem confidenceLevel_eq {strengths : List Strength} (hclear : .conflicted ∉ strengths) :
    confidenceLevel strengths = if .single ∈ strengths then
        if .corroborated ∈ strengths then .moderate else .weak
      else if .corroborated ∈ strengths then .strong else .none := by
  have hmem : ∀ strength, strength ∈ strengths.filter (fun strength ↦ strength = .corroborated ∨
      strength = .single) ↔ strength ∈ strengths ∧
        (strength = .corroborated ∨ strength = .single) := by
    simp
  have hnone := eq_nil_iff_forall_not_mem (l := strengths.filter fun strength ↦
    strength = .corroborated ∨ strength = .single)
  unfold confidenceLevel
  split_ifs <;> grind

theorem confidenceLevel_raises {Key : Type} {keys : List Key} {before after : Key → Strength}
    (hclear : ∀ key ∈ keys, before key ≠ .conflicted)
    (hraises : ∀ key ∈ keys, Raises (before key) (after key)) :
    (confidenceLevel (keys.map before)).Raises (confidenceLevel (keys.map after)) := by
  have hafter : ∀ key ∈ keys, after key ≠ .conflicted := fun key hkey ↦ by
    rcases hraises key hkey with hsame | ⟨-, hmore⟩
    · exact hsame ▸ hclear key hkey
    · simp [hmore]
  have hsingle : .single ∈ keys.map after → .single ∈ keys.map before := by
    grind [Raises]
  have hmore : .corroborated ∈ keys.map before → .corroborated ∈ keys.map after := by
    grind [Raises]
  have hstands : .single ∈ keys.map before ∨ .corroborated ∈ keys.map before ↔
      .single ∈ keys.map after ∨ .corroborated ∈ keys.map after := by
    grind [Raises]
  rw [confidenceLevel_eq (by simpa using hclear), confidenceLevel_eq (by simpa using hafter)]
  unfold ConfidenceLevel.Raises
  split_ifs <;> simp_all

/-- No level of confidence is lower, nor is the level of assurance, in the order of the
vocabularies. -/
def AtLeast (before after : Findings) : Prop :=
  (∀ dimension, ClosedVocabulary.all.idxOf (before.confidence dimension) ≤
    ClosedVocabulary.all.idxOf (after.confidence dimension)) ∧
  ClosedVocabulary.all.idxOf after.assuranceLevel ≤
    ClosedVocabulary.all.idxOf before.assuranceLevel

theorem ConfidenceLevel.Raises.idxOf_le {before after : ConfidenceLevel}
    (hraises : before.Raises after) :
    ClosedVocabulary.all.idxOf before ≤ ClosedVocabulary.all.idxOf after := by
  rcases hraises with rfl | ⟨rfl, rfl | rfl⟩ | ⟨rfl, rfl⟩
  · exact le_rfl
  all_goals decide

theorem assuranceLevel_raises {before after : Dimension → ConfidenceLevel}
    (hraises : ∀ dimension, (before dimension).Raises (after dimension))
    (covered : ConfidenceLevel) :
    ClosedVocabulary.all.idxOf (assuranceLevel .passed after covered) ≤
      ClosedVocabulary.all.idxOf (assuranceLevel .passed before covered) := by
  have hmem (levels : Dimension → ConfidenceLevel) (level : ConfidenceLevel) :
      level ∈ ((ClosedVocabulary.all : List Dimension).map levels).filter (· ≠ .none) ↔
        ∃ dimension, levels dimension = level ∧ level ≠ .none := by
    simp only [mem_filter, mem_map, ClosedVocabulary.complete, true_and,
      decide_eq_true_eq, exists_and_right]
  have hold := hmem before
  have hnew := hmem after
  unfold assuranceLevel
  generalize ((ClosedVocabulary.all : List Dimension).map before).filter (· ≠ .none) = old at *
  generalize ((ClosedVocabulary.all : List Dimension).map after).filter (· ≠ .none) = new at *
  have hup : ∀ level ∈ old, ∃ other ∈ new, level.Raises other := by
    intro level hlevel
    obtain ⟨dimension, rfl, hne⟩ := (hold level).mp hlevel
    exact ⟨_, (hnew _).mpr ⟨dimension, rfl, by grind [ConfidenceLevel.Raises]⟩, hraises dimension⟩
  have hdown : ∀ other ∈ new, ∃ level ∈ old, level.Raises other := by
    intro other hother
    obtain ⟨dimension, rfl, hne⟩ := (hnew other).mp hother
    exact ⟨_, (hold _).mpr ⟨dimension, rfl, by grind [ConfidenceLevel.Raises]⟩, hraises dimension⟩
  unfold ConfidenceLevel.Raises at hup hdown
  have hsome := exists_mem_of_ne_nil old
  simp only [reduceCtorEq, if_false]
  split_ifs <;> first | decide | (exfalso; grind)

theorem confidenceOf_keys (keys : List ClaimKey)
    (strength : ClaimKey → Strength) (dimension : Dimension) :
    confidenceOf (keys.map fun key ↦ (key.1, strength key)) dimension =
      confidenceLevel ((keys.filter fun key ↦ key.1.dimension = dimension).map strength) := by
  unfold confidenceOf
  rw [filter_map, map_map]
  rfl

theorem coverageOf_raises {keys : List ClaimKey} {before after : ClaimKey → Strength}
    (hraises : ∀ key ∈ keys, Raises (before key) (after key)) :
    coverageOf quotient policy (keys.map fun key ↦ (key.1, after key)) =
      coverageOf quotient policy (keys.map fun key ↦ (key.1, before key)) := by
  have hstands : keys.filter (fun key ↦ after key ≠ .absent) =
      keys.filter fun key ↦ before key ≠ .absent := filter_congr fun key hkey ↦ by
    rcases hraises key hkey with hsame | ⟨hsingle, hmore⟩
    · rw [hsame]
    · simp [hsingle, hmore]
  unfold coverageOf
  simp only [filter_map, length_map, Function.comp_def, hstands]

section

variable (hclear : ∀ other ∈ items, ¬ other.Conflicting)

include hclear

theorem not_conflicting_kindsAt (key : ClaimKey) :
    .str "conflicting" ∉ kindsAt items key := fun hmem ↦ by
  obtain ⟨other, hother, hconflicting⟩ := mem_map.mp hmem
  exact hclear other (mem_of_mem_filter hother) hconflicting

theorem Joins.raises (hjoins : Joins items item)
    (hkind : item.contributionKind = .str "corroborating") (key : ClaimKey) :
    Raises (strengthOf (kindsAt items key)) (strengthOf (kindsAt (items ++ [item]) key)) := by
  rw [kindsAt_append]
  by_cases hkey : (claimKey item).toOption = some key
  · obtain ⟨kind, hmem, hstands⟩ := hjoins.exists_kind hkey
    obtain ⟨hbefore, hafter⟩ :=
      strengthOf_corroborating hmem hstands (not_conflicting_kindsAt hclear key)
    rw [if_pos hkey, hkind, hafter]
    exact hbefore.symm.imp_right fun hsingle ↦ ⟨hsingle, rfl⟩
  · rw [if_neg hkey, append_nil]
    exact .inl rfl

theorem strengthOf_ne_conflicted (key : ClaimKey) :
    strengthOf (kindsAt items key) ≠ .conflicted := by
  unfold strengthOf
  rw [if_neg (not_conflicting_kindsAt hclear key)]
  split_ifs
  · nofun
  · split <;> nofun

end

/-- Assumes: the rules of the record are texts and its levels known. Its conclusion does not depend
on the order of its items; it passes exactly if there are items and all of them pass, none of them
missing or conflicting; a passing item that corroborates a claim lowers no level of a passed record;
and a redundant item for a claim that stands leaves the conclusion exactly if it is overruled. -/
theorem order_free_iff (hbody : Derivable record.items) :
    (∀ other : EvidenceRecord, other.items.Perm record.items →
      conclusion quotient policy other = conclusion quotient policy record) ∧
    ∃ concludes, conclusion quotient policy record = some concludes ∧
      (concludes.1.verdict = .passed ↔ record.items ≠ [] ∧
        ∀ item ∈ record.items, item.Passing ∧ ¬ item.Missing ∧ ¬ item.Conflicting) ∧
      ∀ item, Joins record.items item →
        (item.contributionKind = .str "redundant" →
          (conclusion quotient policy (appendItem record item) = some concludes ↔
            Overruled record.items item)) ∧
        (item.contributionKind = .str "corroborating" → item.Passing →
          concludes.1.verdict = .passed →
          ∃ after, conclusion quotient policy (appendItem record item) = some after ∧
            AtLeast concludes.1 after.1) := by
  obtain ⟨keys, hconclusion⟩ := exists_conclusion hbody
  have hsame := hconclusion record hbody fun _ ↦ .rfl
  refine ⟨fun other ↦ conclusion_perm hbody, _, hsame, verdictAndCause_eq_passed_iff,
    fun item hjoins ↦ ?_⟩
  rw [hconclusion (appendItem record item) (hjoins.derivable hbody) hjoins.keys_iff]
  constructor
  · intro hkind
    simp only [appendItem, hjoins.strength_redundant hkind]
    obtain ⟨found, hfound, -⟩ := hjoins
    rw [← verdictAndCause_append_iff (ne_nil_of_mem hfound) hkind]
    constructor
    · intro hsame
      have hfindings := congrArg Prod.fst (Option.some.inj hsame)
      exact Prod.ext (congrArg Findings.verdict hfindings)
        (congrArg Findings.failureCause hfindings)
    · intro hverdict
      rw [concluded, hverdict]
      rfl
  · intro hkind hpassing hpassed
    obtain ⟨hitems, hall⟩ := verdictAndCause_eq_passed_iff.mp hpassed
    have hclear : ∀ other ∈ record.items, ¬ other.Conflicting := fun other hother ↦
      (hall other hother).2.2
    have hraises := hjoins.raises hclear hkind
    have hstill : (verdictAndCause (record.items ++ [item])).1 = .passed := by
      refine verdictAndCause_eq_passed_iff.mpr ⟨by simp, fun other hother ↦ ?_⟩
      rcases mem_append.mp hother with hold | hnew
      · exact hall other hold
      · rw [mem_singleton.mp hnew]
        exact ⟨hpassing, by simp [EvidenceItem.Missing, hkind],
          by simp [EvidenceItem.Conflicting, hkind]⟩
    have hlevels (dimension : Dimension) :=
      confidenceLevel_raises (fun key (_ : key ∈ keys.filter fun key ↦
          key.1.dimension = dimension) ↦
        strengthOf_ne_conflicted hclear key) fun key _ ↦ hraises key
    simp only [← confidenceOf_keys] at hlevels
    refine ⟨_, rfl, fun dimension ↦ (hlevels dimension).idxOf_le, ?_⟩
    simp only [concluded, appendItem, hstill, coverageOf_raises fun key _ ↦ hraises key]
    rw [show (verdictAndCause record.items).1 = .passed from hpassed]
    exact assuranceLevel_raises hlevels _

def testItem (result kind : String) : EvidenceItem :=
  ⟨.str "rule.tests", .str "artifact:a1", .str "execution:k", .str result, .str kind,
    worded VerificationLevel.execution⟩

def testedRecord : EvidenceRecord :=
  ⟨.str "artifact:a1", .int 1, [testItem "success" "independent"], .null⟩

theorem derivable_testedRecord : Derivable testedRecord.items := fun item hitem ↦ by
  rw [mem_singleton.mp hitem]
  exact ⟨⟨_, rfl⟩, ⟨_, rfl⟩⟩

theorem joins_testItem (result kind : String) : Joins testedRecord.items (testItem result kind) :=
  ⟨_, mem_singleton_self _, rfl, rfl, .inl rfl⟩

theorem order_free_iff_tested :
    conclusion plainQuotient plainPolicy
        (appendItem testedRecord (testItem "success" "redundant")) =
      conclusion plainQuotient plainPolicy testedRecord := by
  obtain ⟨-, concludes, hconcludes, -, hmore⟩ :=
    @order_free_iff plainQuotient plainPolicy testedRecord derivable_testedRecord
  rw [hconcludes]
  exact ((hmore _ (joins_testItem "success" "redundant")).1 rfl).mpr (.inl (by decide))

/-- A late failure fails a body that passed. -/
theorem not_conclusion_redundant :
    ¬ ∀ (record : EvidenceRecord) (item : EvidenceItem), Derivable record.items →
      Joins record.items item → item.contributionKind = .str "redundant" →
      conclusion plainQuotient plainPolicy (appendItem record item) =
        conclusion plainQuotient plainPolicy record := by
  intro hlaw
  have hjoins := joins_testItem "failure" "redundant"
  have hsame := hlaw _ _ derivable_testedRecord hjoins rfl
  have hverdict : (verdictAndCause (appendItem testedRecord
      (testItem "failure" "redundant")).items).1 = (verdictAndCause testedRecord.items).1 :=
    congrArg (fun concludes ↦ concludes.1.verdict) (Option.some.inj hsame)
  exact absurd hverdict (by decide)

end AbsoluteZero.Verification

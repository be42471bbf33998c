import AbsoluteZero.Verification.Claims

/-!
# Findings

The findings of a record are what its account says apart from positions in the body: verdict, cause,
levels of confidence and assurance. When every rule of the body is a text with one item, and every
item contributes by itself, the findings do not depend on the order of the items (`findings_perm`).
-/

namespace AbsoluteZero.Verification

open Foundations Checked List

/-- What an account says, without the positions of the evidence. -/
structure Findings where
  verdict : Verdict
  failureCause : Option FailureCause
  confidence : Dimension → ConfidenceLevel
  coverage : ConfidenceLevel
  assuranceLevel : AssuranceLevel

def Account.findings (account : Account) : Findings :=
  ⟨account.verdict, account.failureCause, fun dimension ↦ (account.confidence dimension).level,
    account.coverage.level, account.assuranceLevel⟩

def findings (quotient : Nat → Nat → Rat) (policy : DerivationPolicy) (record : EvidenceRecord) :
    Option Findings :=
  (derive quotient policy record).toOption.map Account.findings

def Claim.standing (claim : Claim) : VerificationLevel × Strength := (claim.level, claim.strength)

def confidenceOf (standings : List (VerificationLevel × Strength)) (dimension : Dimension) :
    ConfidenceLevel :=
  confidenceLevel ((standings.filter fun standing ↦ standing.1.dimension = dimension).map Prod.snd)

def coverageOf (quotient : Nat → Nat → Rat) (policy : DerivationPolicy)
    (standings : List (VerificationLevel × Strength)) : ConfidenceLevel :=
  coverageLevel quotient policy (standings.filter fun standing ↦ standing.2 ≠ .absent).length
    standings.length

variable {quotient : Nat → Nat → Rat} {policy : DerivationPolicy}

theorem findings_of_derive {record : EvidenceRecord} {account : Account} {claims : List Claim}
    (hclaims : groupClaims record.items = .ok claims)
    (haccount : derive quotient policy record = .ok account) :
    account.findings = ⟨(verdictAndCause record.items).1, (verdictAndCause record.items).2,
      confidenceOf (claims.map Claim.standing), coverageOf quotient policy
        (claims.map Claim.standing),
      assuranceLevel (verdictAndCause record.items).1 (confidenceOf (claims.map Claim.standing))
        (coverageOf quotient policy (claims.map Claim.standing))⟩ := by
  obtain ⟨others, hothers, hrest⟩ := bind_eq_ok_iff.mp haccount
  obtain ⟨statements, -, hanswer⟩ := bind_eq_ok_iff.mp hrest
  rw [hclaims] at hothers
  cases hothers
  cases hanswer
  have hconfidence : ∀ dimension, (dimensionConfidence (dimensionClaims claims dimension)).level =
      confidenceOf (claims.map Claim.standing) dimension := by
    intro dimension
    unfold confidenceOf dimensionConfidence dimensionClaims
    rw [filter_map, map_map]
    rfl
  have hcoverage : (coverage quotient policy claims).level =
      coverageOf quotient policy (claims.map Claim.standing) := by
    unfold coverageOf coverage establishedCount
    rw [filter_map, length_map, length_map]
    rfl
  unfold Account.findings
  simp only [hconfidence, hcoverage]

theorem confidenceLevel_congr {first second : List Strength}
    (hsame : ∀ strength, strength ∈ first ↔ strength ∈ second) :
    confidenceLevel first = confidenceLevel second := by
  have hnil : ∀ {left right : List Strength}, (∀ strength, strength ∈ left ↔ strength ∈ right) →
      (left = [] ↔ right = []) := by
    intro left right hmem
    rw [eq_nil_iff_forall_not_mem, eq_nil_iff_forall_not_mem]
    exact forall_congr' fun strength ↦ not_congr (hmem strength)
  have hestablished : ∀ strength,
      strength ∈ first.filter (fun strength ↦ strength = .corroborated ∨ strength = .single) ↔
        strength ∈ second.filter (fun strength ↦ strength = .corroborated ∨ strength =
          .single) := by
    intro strength
    rw [mem_filter, mem_filter, hsame]
  unfold confidenceLevel
  simp only [hnil hsame, hnil hestablished, hsame, hestablished]

theorem confidenceOf_perm {first second : List (VerificationLevel × Strength)}
    (hperm : first.Perm second) : confidenceOf first = confidenceOf second := by
  funext dimension
  exact confidenceLevel_congr fun strength ↦ ((hperm.filter _).map Prod.snd).mem_iff

theorem coverageOf_perm {first second : List (VerificationLevel × Strength)}
    (hperm : first.Perm second) :
    coverageOf quotient policy first = coverageOf quotient policy second := by
  unfold coverageOf
  rw [(hperm.filter _).length_eq, hperm.length_eq]

theorem verdictAndCause_perm {first second : List EvidenceItem} (hperm : first.Perm second) :
    verdictAndCause first = verdictAndCause second := by
  have hnil : first = [] ↔ second = [] := by
    rw [← length_eq_zero_iff, ← length_eq_zero_iff, hperm.length_eq]
  unfold verdictAndCause
  simp only [hnil, hperm.mem_iff]

/-! ### One item a rule -/

/-- Every rule of the body is a text, no two items have one rule, and every item contributes by
itself. -/
structure Separate (items : List EvidenceItem) : Prop where
  textual : ∀ item ∈ items, item.Textual
  rules : (items.map EvidenceItem.rule).Nodup
  independent : ∀ item ∈ items, item.contributionKind = .str "independent"

theorem Separate.perm {first second : List EvidenceItem} (hseparate : Separate first)
    (hperm : first.Perm second) : Separate second :=
  ⟨fun item hitem ↦ hseparate.textual item (hperm.mem_iff.mpr hitem),
    (hperm.map _).nodup_iff.mp hseparate.rules,
    fun item hitem ↦ hseparate.independent item (hperm.mem_iff.mpr hitem)⟩

theorem filter_key_of_nodup {Key Value : Type} [DecidableEq Key] {entries : List (Key × Value)}
    (hnodup : (entries.map Prod.fst).Nodup) {entry : Key × Value} (hentry : entry ∈ entries) :
    entries.filter (fun other ↦ other.1 = entry.1) = [entry] := by
  induction entries with
  | nil => cases hentry
  | cons first rest ih =>
    obtain ⟨hfirst, hrest⟩ := nodup_cons.mp hnodup
    rcases mem_cons.mp hentry with rfl | hmem
    · rw [filter_cons_of_pos (by simp), filter_eq_nil_iff.mpr]
      intro other hother hsame
      rw [decide_eq_true_eq] at hsame
      exact hfirst (hsame ▸ mem_map_of_mem hother)
    · rw [filter_cons_of_neg, ih hrest hmem]
      intro hsame
      rw [decide_eq_true_eq] at hsame
      exact hfirst (hsame ▸ mem_map_of_mem hmem)

theorem eraseDups_of_nodup {Key : Type} [BEq Key] [LawfulBEq Key] {keys : List Key}
    (hnodup : keys.Nodup) : keys.eraseDups = keys := by
  induction keys with
  | nil => rfl
  | cons key rest ih =>
    obtain ⟨hkey, hrest⟩ := nodup_cons.mp hnodup
    have hkept : rest.filter (fun other ↦ !other == key) = rest := by
      refine filter_eq_self.mpr fun other hother ↦ ?_
      have hne : other ≠ key := fun hsame ↦ hkey (hsame ▸ hother)
      simp [hne]
    rw [eraseDups_cons, hkept, ih hrest]

theorem standing_of_single {level : VerificationLevel} {rule : Json} {position : Nat}
    {item : EvidenceItem} (hkind : item.contributionKind = .str "independent") :
    (Claim.mk level rule [(position, item)]).standing = (level, .single) := by
  simp [Claim.standing, Claim.strength, Claim.kinds, hkind]

/-- The level of an item, `structural` where it has none. -/
def levelOf (item : EvidenceItem) : VerificationLevel :=
  match itemLevel item with
  | .ok level => level
  | .error _ => .structural

theorem levelOf_of_claimKey {item : EvidenceItem} {key : VerificationLevel × DictKey}
    (hkey : claimKey item = .ok key) : levelOf item = key.1 := by
  unfold levelOf
  rw [itemLevel_eq_ok_iff.mpr (claimKey_eq_ok_iff.mp hkey).1]

variable {items : List EvidenceItem}

/-- The items that the claims were keyed by are those of the body. -/
theorem items_of_keyed {keyed : List ((VerificationLevel × DictKey) × Nat × EvidenceItem)}
    (hkeyed : items.zipIdx.mapM keyedEntry = .ok keyed) :
    keyed.map (fun entry ↦ entry.2.2) = items := by
  have hread : keyed.map (fun entry ↦ entry.2.2) = items.zipIdx.map Prod.fst := by
    refine map_eq_of_mapM (fun entry made hmade ↦ ?_) hkeyed
    obtain ⟨key, -, rfl⟩ := map_eq_ok_iff.mp hmade
    rfl
  rw [hread, zipIdx_map_fst]

theorem Separate.nodup_keys {keyed : List ((VerificationLevel × DictKey) × Nat × EvidenceItem)}
    (hseparate : Separate items) (hkeyed : items.zipIdx.mapM keyedEntry = .ok keyed) :
    (keyed.map Prod.fst).Nodup := by
  have hrules : (keyed.map fun entry ↦ entry.2.2.rule).Nodup := by
    have hsplit : (keyed.map fun entry ↦ entry.2.2.rule) = items.map EvidenceItem.rule := by
      rw [← items_of_keyed hkeyed, map_map]
      rfl
    rw [hsplit]
    exact hseparate.rules
  unfold List.Nodup at hrules ⊢
  rw [pairwise_map] at hrules ⊢
  refine hrules.imp_of_mem fun {first second} hfirst hsecond hne hsame ↦ hne ?_
  obtain ⟨hfirst, hfirstKey⟩ := mem_of_keyed hkeyed hfirst
  obtain ⟨hsecond, hsecondKey⟩ := mem_of_keyed hkeyed hsecond
  obtain ⟨rule, hrule⟩ := hseparate.textual _ hfirst
  obtain ⟨other, hother⟩ := hseparate.textual _ hsecond
  have hkey := (claimKey_eq_ok_iff.mp hfirstKey).2
  have hotherKey := (claimKey_eq_ok_iff.mp hsecondKey).2
  rw [hrule, hsame] at hkey
  rw [hother, ← hkey] at hotherKey
  cases hotherKey
  rw [hrule, hother]

theorem Separate.standings {claims : List Claim}
    (hseparate : Separate items) (hclaims : groupClaims items = .ok claims) :
    claims.map Claim.standing = items.map fun item ↦ (levelOf item, .single) := by
  obtain ⟨keyed, hkeyed, rfl⟩ := groupClaims_eq_ok_iff.mp hclaims
  have hnodup := hseparate.nodup_keys hkeyed
  rw [eraseDups_of_nodup hnodup, map_map, map_map]
  conv_rhs => rw [← items_of_keyed hkeyed, map_map]
  refine map_congr_left fun entry hentry ↦ ?_
  obtain ⟨hitem, hkey⟩ := mem_of_keyed hkeyed hentry
  have hclaim : claimOf keyed entry.1 = ⟨entry.1.1, entry.2.2.rule, [entry.2]⟩ := by
    unfold claimOf
    rw [filter_key_of_nodup hnodup hentry]
    rfl
  change (claimOf keyed entry.1).standing = (levelOf entry.2.2, .single)
  rw [hclaim, levelOf_of_claimKey hkey]
  exact standing_of_single (hseparate.independent _ hitem)

/-- Assumes: the items of one record are those of the other in another order, with one independent
item for each rule. Both records have the same findings. -/
theorem findings_perm {first second : EvidenceRecord} (hseparate : Separate first.items)
    (hperm : first.items.Perm second.items) :
    findings quotient policy first = findings quotient policy second := by
  have hother := hseparate.perm hperm
  have hiff := exists_derive_iff quotient policy hseparate.textual
  have hiffOther := exists_derive_iff quotient policy hother.textual
  have hlevels : (∀ item ∈ first.items, item.Levelled) ↔ ∀ item ∈ second.items, item.Levelled :=
    forall_congr' fun item ↦ imp_congr_left hperm.mem_iff
  unfold findings
  cases hfirst : derive quotient policy first with
  | error refusal =>
    cases hsecond : derive quotient policy second with
    | error other => rfl
    | ok account =>
      obtain ⟨found, hfound⟩ := hiff.mpr (hlevels.mpr (hiffOther.mp ⟨account, hsecond⟩))
      rw [hfirst] at hfound
      cases hfound
  | ok account =>
    obtain ⟨found, hsecond⟩ := hiffOther.mpr (hlevels.mp (hiff.mp ⟨account, hfirst⟩))
    obtain ⟨claims, hclaims, -⟩ := bind_eq_ok_iff.mp hfirst
    obtain ⟨others, hothers, -⟩ := bind_eq_ok_iff.mp hsecond
    have hstandings : (claims.map Claim.standing).Perm (others.map Claim.standing) := by
      rw [hseparate.standings hclaims, hother.standings hothers]
      exact hperm.map _
    rw [hsecond]
    change some account.findings = some found.findings
    rw [findings_of_derive hclaims hfirst, findings_of_derive hothers hsecond,
      verdictAndCause_perm hperm, confidenceOf_perm hstandings, coverageOf_perm hstandings]

end AbsoluteZero.Verification

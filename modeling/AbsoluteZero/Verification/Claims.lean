import AbsoluteZero.Verification.Derivation

/-!
# When a derivation ends well

A derivation raises on an item whose level is outside the closed five, on a rule that cannot be a
key, and on two rules of one level that have no order. The rules of a judgment are texts, so for its
record only the levels count (`exists_derive_iff`).
-/

namespace AbsoluteZero.Verification

open Foundations Checked List

namespace EvidenceItem

/-- The item's rule is a text, as in every item that a judgment appends. -/
def Textual (item : EvidenceItem) : Prop := ∃ rule, item.rule = .str rule

def Levelled (item : EvidenceItem) : Prop := ∃ level : VerificationLevel, item.level = worded level

end EvidenceItem

theorem itemLevel_eq_ok_iff {item : EvidenceItem} {level : VerificationLevel} :
    itemLevel item = .ok level ↔ item.level = worded level := by
  unfold itemLevel worded
  split
  · next text htext =>
    rw [htext, Json.str.injEq]
    cases hread : (ClosedVocabulary.read text : Option VerificationLevel) with
    | none =>
      simp only [Option.elim, reduceCtorEq, false_iff]
      rintro rfl
      rw [ClosedVocabulary.read_text] at hread
      cases hread
    | some word =>
      rw [ClosedVocabulary.read_eq_some_iff] at hread
      subst hread
      simp only [Option.elim, Except.ok.injEq]
      exact ⟨fun h ↦ h ▸ rfl, ClosedVocabulary.injective _ _⟩
  · next hother =>
    simp only [reduceCtorEq, false_iff]
    exact hother _

theorem claimKey_eq_ok_iff {item : EvidenceItem} {key : VerificationLevel × DictKey} :
    claimKey item = .ok key ↔ item.level = worded key.1 ∧ item.rule.dictKey = .ok key.2 := by
  unfold claimKey
  rw [← itemLevel_eq_ok_iff]
  cases itemLevel item with
  | error refusal => simp
  | ok level =>
    cases item.rule.dictKey with
    | error error => simp
    | ok rule => simp [Prod.ext_iff]

/-! ### Claims -/

variable {items : List EvidenceItem} {claims : List Claim}

theorem groupClaims_eq_ok_iff :
    groupClaims items = .ok claims ↔ ∃ keyed, items.zipIdx.mapM keyedEntry = .ok keyed ∧
      claims = (keyed.map Prod.fst).eraseDups.map (claimOf keyed) := by
  unfold groupClaims
  rw [map_eq_ok_iff]
  exact exists_congr fun keyed ↦ and_congr_right fun _ ↦ eq_comm

theorem exists_keyed_iff : (∃ keyed, items.zipIdx.mapM keyedEntry = .ok keyed) ↔
      ∀ item ∈ items, ∃ key, claimKey item = .ok key := by
  generalize hstart : (0 : Nat) = start
  clear hstart
  induction items generalizing start with
  | nil => simp [pure, Except.pure]
  | cons item rest ih =>
    rw [zipIdx_cons, forall_mem_cons, ← ih]
    constructor
    · rintro ⟨keyed, hkeyed⟩
      rw [mapM_cons] at hkeyed
      obtain ⟨first, hfirst, hrest⟩ := bind_eq_ok_iff.mp hkeyed
      obtain ⟨others, hothers, -⟩ := bind_eq_ok_iff.mp hrest
      obtain ⟨key, hkey, -⟩ := map_eq_ok_iff.mp hfirst
      exact ⟨⟨key, hkey⟩, others, hothers⟩
    · rintro ⟨⟨key, hkey⟩, others, hothers⟩
      have hfirst : keyedEntry (item, start) = .ok (key, start, item) :=
        map_eq_ok_iff.mpr ⟨key, hkey, rfl⟩
      exact ⟨_, by rw [mapM_cons, hfirst, hothers]; rfl⟩

theorem mem_of_keyed {keyed : List ((VerificationLevel × DictKey) × Nat × EvidenceItem)}
    (hkeyed : items.zipIdx.mapM keyedEntry = .ok keyed)
    {entry : (VerificationLevel × DictKey) × Nat × EvidenceItem} (hentry : entry ∈ keyed) :
    entry.2.2 ∈ items ∧ claimKey entry.2.2 = .ok entry.1 := by
  obtain ⟨indexed, hindexed, hmade⟩ := exists_of_mem_mapM hkeyed hentry
  obtain ⟨key, hkey, rfl⟩ := map_eq_ok_iff.mp hmade
  exact ⟨fst_mem_of_mem_zipIdx hindexed, hkey⟩

theorem exists_item_of_claim {claim : Claim}
    (hclaims : groupClaims items = .ok claims) (hclaim : claim ∈ claims) :
    ∃ item ∈ items, claim.rule = item.rule := by
  obtain ⟨keyed, hkeyed, rfl⟩ := groupClaims_eq_ok_iff.mp hclaims
  obtain ⟨key, hkey, rfl⟩ := mem_map.mp hclaim
  obtain ⟨entry, hentry, rfl⟩ := mem_map.mp (mem_eraseDups.mp hkey)
  have hmem : entry.2 ∈ (claimOf keyed entry.1).entries :=
    mem_map_of_mem (mem_filter.mpr ⟨hentry, decide_eq_true rfl⟩)
  cases hentries : (claimOf keyed entry.1).entries with
  | nil =>
    rw [hentries] at hmem
    cases hmem
  | cons first rest =>
    have hfirst : first ∈ (claimOf keyed entry.1).entries := hentries ▸ mem_cons_self
    obtain ⟨other, hother, rfl⟩ := mem_map.mp hfirst
    refine ⟨other.2.2, (mem_of_keyed hkeyed (mem_of_mem_filter hother)).1, ?_⟩
    change (((claimOf keyed entry.1).entries.head?.map fun entry ↦ entry.2.rule).getD .null) = _
    rw [hentries]
    rfl

section

variable (htexts : ∀ claim ∈ claims, ∃ rule, claim.rule = .str rule)

include htexts

theorem sortedClaims_of_texts :
    sortedClaims claims = .ok (claims.mergeSort claimLe) := by
  refine if_pos (pairwise_of_forall_mem_list fun first hfirst second hsecond _ ↦ ?_)
  obtain ⟨rule, hrule⟩ := htexts first hfirst
  obtain ⟨other, hother⟩ := htexts second hsecond
  rw [hrule, hother]
  rfl

theorem exists_uncertainty :
    ∃ statements, uncertainty claims = .ok statements := by
  unfold uncertainty
  rw [sortedClaims_of_texts htexts]
  exact ⟨_, rfl⟩

end

/-- Assumes: the rules of the record are texts. It can be derived exactly when every level is one of
the closed five. -/
theorem exists_derive_iff (quotient : Nat → Nat → Rat) (policy : DerivationPolicy)
    {record : EvidenceRecord} (htextual : ∀ item ∈ record.items, item.Textual) :
    (∃ account, derive quotient policy record = .ok account) ↔
      ∀ item ∈ record.items, item.Levelled := by
  have hkeys : (∀ item ∈ record.items, ∃ key, claimKey item = .ok key) ↔
      ∀ item ∈ record.items, item.Levelled := by
    refine forall₂_congr fun item hitem ↦ ?_
    obtain ⟨rule, hrule⟩ := htextual item hitem
    constructor
    · rintro ⟨key, hkey⟩
      exact ⟨key.1, (claimKey_eq_ok_iff.mp hkey).1⟩
    · rintro ⟨level, hlevel⟩
      exact ⟨(level, .text rule), claimKey_eq_ok_iff.mpr ⟨hlevel, by rw [hrule]; rfl⟩⟩
  rw [← hkeys, ← exists_keyed_iff]
  constructor
  · rintro ⟨account, haccount⟩
    obtain ⟨claims, hclaims, -⟩ := bind_eq_ok_iff.mp haccount
    obtain ⟨keyed, hkeyed, -⟩ := groupClaims_eq_ok_iff.mp hclaims
    exact ⟨keyed, hkeyed⟩
  · rintro ⟨keyed, hkeyed⟩
    have hclaims := groupClaims_eq_ok_iff.mpr ⟨keyed, hkeyed, rfl⟩
    obtain ⟨statements, hstatements⟩ := exists_uncertainty fun claim hclaim ↦ by
      obtain ⟨item, hitem, hrule⟩ := exists_item_of_claim hclaims hclaim
      obtain ⟨rule, htext⟩ := htextual item hitem
      exact ⟨rule, hrule.trans htext⟩
    exact ⟨_, bind_eq_ok_iff.mpr ⟨_, hclaims,
      bind_eq_ok_iff.mpr ⟨_, hstatements, rfl⟩⟩⟩

end AbsoluteZero.Verification

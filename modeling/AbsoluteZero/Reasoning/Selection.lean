import AbsoluteZero.Foundations.SortedSet
import AbsoluteZero.Reasoning.Records
import Mathlib.Data.Prod.Lex
import Mathlib.Data.String.Basic

/-!
# Capability matching and provider selection

The candidates are the rows that claim the capability at the rung, and the least eligible one in the
order of cost class, declared preference and id is resolved; every excluded candidate is recorded
with its reasons (`selectProvider_spec`). The order of the rows does not matter
(`buildCandidateSet_perm`).
-/

namespace AbsoluteZero.Reasoning

open Foundations List

/-- `EmptyCandidateSetError`, or `EmptyEligibleSetError` with the exclusions it carries. -/
inductive MatchingError
  | emptyCandidateSet (message : String)
  | emptyEligibleSet (message : String) (exclusions : List (String × List String))

/-- `_CAPACITY_INDEX`. -/
def CapacityClass.index : CapacityClass → Nat
  | .small => 0
  | .medium => 1
  | .large => 2
  | .xlarge => 3

/-- `_COST_INDEX`. -/
def Level.index : Level → Nat
  | .low => 0
  | .medium => 1
  | .high => 2

/-- `_PRIVACY_ORDER`. -/
def PrivacyDomain.order : PrivacyDomain → Nat
  | .publicDomain => 0
  | .internal => 1
  | .restricted => 2

/-- `derive_size_class`, over the thresholds of `_SIZE_CLASS_THRESHOLDS`. -/
def deriveSizeClass (byteLength : Nat) : CapacityClass :=
  if byteLength ≤ 2000 then .small
  else if byteLength ≤ 8000 then .medium
  else if byteLength ≤ 32000 then .large
  else .xlarge

def DescriptorRow.claims (row : DescriptorRow) (capabilityId rung : String) : Bool :=
  match row.capabilitiesClaimed.get? capabilityId with
  | none => false
  | some claimed => rung ∈ claimed.rungs.map ClosedVocabulary.text

def buildCandidateSet (rows : List DescriptorRow) (capabilityId rung : String) :
    Except MatchingError (List DescriptorRow) :=
  match sortedBy DescriptorRow.providerId (rows.filter fun row ↦ row.claims capabilityId rung) with
  | [] => .error (.emptyCandidateSet
      ("matching_selection.empty_candidate_set:" ++ capabilityId ++ ":" ++ rung))
  | candidates => .ok candidates

/-! ### Eligibility and ranking -/

/-- What a selection asks of a row: the keyword arguments of `select_provider` less the size
class. -/
structure SelectionTerms where
  privacyDomainRequired : PrivacyDomain
  requiredComplianceTags : List String
  localityRequired : Option DeploymentLocality
  declaredPreference : List String

/-- `_eligibility_reasons`: the filters that the row fails. -/
def eligibilityReasons (terms : SelectionTerms) (sizeClass : CapacityClass) (row : DescriptorRow) :
    List String :=
  (if row.privacyDomain.order < terms.privacyDomainRequired.order then
    ["privacy_domain_insufficient"] else []) ++
  (if terms.requiredComplianceTags.all fun tag ↦ tag ∈ row.complianceTags then [] else
    ["compliance_tags_missing"]) ++
  (if row.contextCapacityClass.index < sizeClass.index then ["capacity_insufficient"] else []) ++
  (if terms.localityRequired.all fun locality ↦ row.deploymentLocality = locality then [] else
    ["locality_mismatch"])

/-- `_pref_rank`: the place among the preferred providers, behind all of them when absent. -/
def prefRank (terms : SelectionTerms) (providerId : String) : Nat :=
  terms.declaredPreference.idxOf providerId

def rankKey (terms : SelectionTerms) (row : DescriptorRow) : Nat ×ₗ Nat ×ₗ String :=
  toLex (row.costClass.index, toLex (prefRank terms row.providerId, row.providerId))

structure SelectionJustification where
  costClass : Level
  declaredPreferenceRank : Nat
  alphabeticalTiebreakId : String
  eligibleCount : Nat
  candidateCount : Nat

/-- The three results of `select_provider`. -/
structure Selection where
  winner : DescriptorRow
  exclusions : List (String × List String)
  justification : SelectionJustification

variable (terms : SelectionTerms) (sizeClass : CapacityClass) (candidates : List DescriptorRow)

/-- The candidates that fail a filter, with the filters they fail. -/
def exclusionsOf : List (String × List String) :=
  (candidates.filter fun row ↦ eligibilityReasons terms sizeClass row ≠ []).map fun row ↦
    (row.providerId, eligibilityReasons terms sizeClass row)

def eligibleRows : List DescriptorRow :=
  candidates.filter fun row ↦ eligibilityReasons terms sizeClass row = []

def selectProvider : Except MatchingError Selection :=
  let eligible := eligibleRows terms sizeClass candidates
  match sortedBy (rankKey terms) eligible with
  | [] => .error (.emptyEligibleSet "matching_selection.empty_eligible_set"
      (exclusionsOf terms sizeClass candidates))
  | winner :: _ => .ok ⟨winner, exclusionsOf terms sizeClass candidates,
      ⟨winner.costClass, prefRank terms winner.providerId, winner.providerId, eligible.length,
        candidates.length⟩⟩

variable {terms : SelectionTerms} {sizeClass : CapacityClass} {rows : List DescriptorRow}
  {capabilityId rung : String} {candidates : List DescriptorRow} {selection : Selection}

/-- The row passes the filters of privacy, compliance, capacity and locality. -/
structure DescriptorRow.Eligible (terms : SelectionTerms) (sizeClass : CapacityClass)
    (row : DescriptorRow) : Prop where
  privacy : terms.privacyDomainRequired.order ≤ row.privacyDomain.order
  compliance : ∀ tag ∈ terms.requiredComplianceTags, tag ∈ row.complianceTags
  capacity : sizeClass.index ≤ row.contextCapacityClass.index
  locality : ∀ locality, terms.localityRequired = some locality → row.deploymentLocality = locality

variable {row : DescriptorRow}

theorem eligibilityReasons_eq_nil_iff :
    eligibilityReasons terms sizeClass row = [] ↔ row.Eligible terms sizeClass := by
  unfold eligibilityReasons
  rw [append_eq_nil_iff, append_eq_nil_iff, append_eq_nil_iff]
  constructor
  · rintro ⟨⟨⟨hprivacy, hcompliance⟩, hcapacity⟩, hlocality⟩
    constructor
    · by_contra hless
      rw [if_pos (Nat.lt_of_not_le hless)] at hprivacy
      cases hprivacy
    · split at hcompliance
      · next hall => simpa using hall
      · cases hcompliance
    · by_contra hless
      rw [if_pos (Nat.lt_of_not_le hless)] at hcapacity
      cases hcapacity
    · intro locality hrequired
      rw [hrequired] at hlocality
      split at hlocality
      · next hall => simpa using hall
      · cases hlocality
  · rintro ⟨hprivacy, hcompliance, hcapacity, hlocality⟩
    refine ⟨⟨⟨if_neg (Nat.not_lt_of_le hprivacy), if_pos (by simpa using hcompliance)⟩,
      if_neg (Nat.not_lt_of_le hcapacity)⟩, if_pos ?_⟩
    cases hrequired : terms.localityRequired with
    | none => rfl
    | some locality => simpa using hlocality locality hrequired

theorem mem_eligibleRows : row ∈ eligibleRows terms sizeClass candidates ↔
    row ∈ candidates ∧ row.Eligible terms sizeClass := by
  rw [eligibleRows, mem_filter, decide_eq_true_iff, eligibilityReasons_eq_nil_iff]

theorem mem_of_buildCandidateSet
    (hbuilt : buildCandidateSet rows capabilityId rung = .ok candidates) :
    row ∈ candidates ↔ row ∈ rows ∧ row.claims capabilityId rung = true := by
  unfold buildCandidateSet at hbuilt
  split at hbuilt
  · cases hbuilt
  · cases hbuilt
    rw [mem_sortedBy, mem_filter]

/-- What `selectProvider` answers: the winner is an eligible candidate that no eligible candidate
precedes, and every other candidate is recorded as excluded or ranks behind. -/
theorem selectProvider_spec (hselected : selectProvider terms sizeClass candidates = .ok selection)
    : selection.winner ∈ candidates ∧ selection.winner.Eligible terms sizeClass ∧
      (∀ row ∈ candidates, row.Eligible terms sizeClass →
        rankKey terms selection.winner ≤ rankKey terms row) ∧
      ∀ row ∈ candidates, row.Eligible terms sizeClass ∨
        (row.providerId, eligibilityReasons terms sizeClass row) ∈ selection.exclusions := by
  unfold selectProvider at hselected
  simp only at hselected
  split at hselected
  · cases hselected
  · next winner behind hsorted =>
    cases hselected
    have hmem : winner ∈ sortedBy (rankKey terms) (eligibleRows terms sizeClass candidates) :=
      hsorted ▸ mem_cons_self
    obtain ⟨hcandidate, heligible⟩ := mem_eligibleRows.mp (mem_sortedBy.mp hmem)
    refine ⟨hcandidate, heligible, fun row hrow hpasses ↦ ?_, fun row hrow ↦ ?_⟩
    · have hordered := pairwise_sortedBy (rankKey terms) (eligibleRows terms sizeClass candidates)
      have hin : row ∈ sortedBy (rankKey terms) (eligibleRows terms sizeClass candidates) :=
        mem_sortedBy.mpr (mem_eligibleRows.mpr ⟨hrow, hpasses⟩)
      rw [hsorted] at hordered hin
      rcases mem_cons.mp hin with rfl | hbehind
      · exact le_refl _
      · exact (pairwise_cons.mp hordered).1 row hbehind
    · by_cases hpasses : row.Eligible terms sizeClass
      · exact .inl hpasses
      · refine .inr (mem_map.mpr ⟨row, mem_filter.mpr ⟨hrow, decide_eq_true ?_⟩, rfl⟩)
        exact fun hnone ↦ hpasses (eligibilityReasons_eq_nil_iff.mp hnone)

/-- Assumes: rows with one provider id are one row. The candidates do not depend on the order of
the rows. -/
theorem buildCandidateSet_perm {rows' : List DescriptorRow} (hperm : rows.Perm rows')
    (hids : ∀ row ∈ rows, ∀ other ∈ rows, row.providerId = other.providerId → row = other) :
    buildCandidateSet rows capabilityId rung = buildCandidateSet rows' capabilityId rung := by
  have hfiltered := hperm.filter fun row ↦ row.claims capabilityId rung
  have hsorted : sortedBy DescriptorRow.providerId
        (rows.filter fun row ↦ row.claims capabilityId rung) =
      sortedBy DescriptorRow.providerId
        (rows'.filter fun row ↦ row.claims capabilityId rung) := by
    refine List.Perm.eq_of_pairwise ?_ (pairwise_sortedBy DescriptorRow.providerId _)
      (pairwise_sortedBy DescriptorRow.providerId _)
      ((perm_sortedBy _ _).trans (hfiltered.trans (perm_sortedBy _ _).symm))
    intro row other hrow hother hle hge
    refine hids row ?_ other ?_ (le_antisymm hle hge)
    · exact (mem_filter.mp (mem_sortedBy.mp hrow)).1
    · exact hperm.mem_iff.mpr (mem_filter.mp (mem_sortedBy.mp hother)).1
  unfold buildCandidateSet
  rw [hsorted]

end AbsoluteZero.Reasoning

import AbsoluteZero.Plugins.Binding
import AbsoluteZero.Plugins.Naming

/-!
# What a resolution chooses

The binding that wins is eligible and comes first among the eligible ones; since no two of them have
one key, it is the same in whatever order the set of the providers is iterated. The load states only
tell two eligible rungs apart, and of a snapshot only its entries matter.
-/

namespace AbsoluteZero.Plugins

open Foundations Reading List

variable {content : Content}

theorem eligible_rungFor_iff {policy : LoadPolicyView}
    {snapshot : HealthSnapshot} {providerId : String} :
    (rungFor content policy snapshot providerId).eligible = true ↔
      (∃ provider, content.providers.get? providerId = some provider ∧
        provider.lifecycle ≠ .retired) ∧
      providerId ∉ policy.adminBarred ∧ content.permits providerId = true ∧
      (snapshot.get? providerId).map HealthEntry.availability = some "available" := by
  unfold rungFor
  cases hprovider : content.providers.get? providerId with
  | none => simp [Rung.eligible]
  | some provider =>
    by_cases hretired : provider.lifecycle = .retired
    · simp [hretired, Rung.eligible]
    by_cases hbarred : providerId ∈ policy.adminBarred
    · simp [hretired, hbarred, Rung.eligible]
    by_cases hpermits : content.permits providerId = true
    · simp only [hretired, hbarred, hpermits, if_false, Bool.true_eq_false]
      unfold healthRung
      cases havailability : (snapshot.get? providerId).map HealthEntry.availability with
      | none => simp [Rung.eligible]
      | some availability =>
        simp only
        by_cases havailable : availability = "available"
        · subst havailable
          rw [if_neg (by decide), if_neg (by decide)]
          split <;> simp [Rung.eligible, hretired]
        · split
          · simp [Rung.eligible, havailable]
          · simp [Rung.eligible, havailable]
    · simp [hretired, hbarred, hpermits, Rung.eligible]

/-- Two views of one policy: the load states may differ. -/
def LoadPolicyView.SamePolicy (first second : LoadPolicyView) : Prop :=
  first.adminBarred = second.adminBarred ∧ first.preferences = second.preferences

def HealthSnapshot.SameEntries (first second : HealthSnapshot) : Prop :=
  ∀ providerId, first.get? providerId = second.get? providerId

theorem eligible_rungFor_congr {policy policy' : LoadPolicyView}
    {snapshot snapshot' : HealthSnapshot} (hpolicy : policy.SamePolicy policy')
    (hsnapshot : snapshot.SameEntries snapshot') (providerId : String) :
    (rungFor content policy snapshot providerId).eligible =
      (rungFor content policy' snapshot' providerId).eligible := by
  rw [Bool.eq_iff_iff, eligible_rungFor_iff, eligible_rungFor_iff, hpolicy.1, hsnapshot providerId]

variable {name : String}

theorem mem_bindingsFor {order : SetOrder}
    {entry : BindingRecord} : entry ∈ content.bindingsFor order name ↔
      ∃ canonical providerId, content.resolve name = some canonical ∧
        content.bindings.get? (canonical, providerId) = some entry := by
  unfold Content.bindingsFor
  cases content.resolve name with
  | none => simp
  | some canonical =>
    simp only [mem_filterMap, Option.some.injEq]
    constructor
    · rintro ⟨providerId, -, hentry⟩
      exact ⟨canonical, providerId, rfl, hentry⟩
    · rintro ⟨other, providerId, rfl, hentry⟩
      refine ⟨providerId, (order.perm _).mem_iff.mpr ?_, hentry⟩
      refine mem_map.mpr ⟨(canonical, providerId), mem_filter.mpr ⟨?_, by simp⟩, rfl⟩
      exact mem_map.mpr ⟨_, (OrderedDict.get?_eq_some_iff _).mp hentry, rfl⟩

/-- No two providers have one key. -/
theorem sortKey_inj {preference : List String} {snapshot : HealthSnapshot} {first second : String}
    (hkey : sortKey preference snapshot first = sortKey preference snapshot second) :
    first = second := by
  exact (Prod.mk.inj (toLex_inj.mp (Prod.mk.inj (toLex_inj.mp hkey)).2)).2

theorem Content.Named.bindingsFor_inj (hcontent : content.Named)
    {order order' : SetOrder} {first second : BindingRecord}
    (hfirst : first ∈ content.bindingsFor order name)
    (hsecond : second ∈ content.bindingsFor order' name)
    (hprovider : first.providerId = second.providerId) : first = second := by
  obtain ⟨canonical, providerId, hresolve, hfirst⟩ := mem_bindingsFor.mp hfirst
  obtain ⟨canonical', providerId', hresolve', hsecond⟩ := mem_bindingsFor.mp hsecond
  rw [hresolve] at hresolve'
  cases hresolve'
  have hid := (hcontent.bindings canonical providerId first hfirst).2.1
  have hid' := (hcontent.bindings canonical providerId' second hsecond).2.1
  rw [← hid, hprovider, hid'] at hfirst
  rw [hfirst] at hsecond
  exact Option.some.inj hsecond

/-! ### The choice -/

def mint (digest : String → String) (version : Nat) (snapshot : HealthSnapshot)
    (canonical : String) (winner : BindingRecord) (provider : ProviderRecord) :
    BindingContract where
  providerId := provider.id
  providerVersion := provider.version
  capabilityId := canonical
  constraints := winner.terms
  loadPolicy := provider.loadPolicy
  registryVersion := version
  healthSnapshotHash := digest snapshot.canonicalText
  contractId := digest (contractText provider canonical winner.terms version
    (digest snapshot.canonicalText))

def Wins (content : Content) (policy : LoadPolicyView) (snapshot : HealthSnapshot)
    (canonical : String) (winner : BindingRecord) : Prop :=
  (∃ order, winner ∈ content.bindingsFor order canonical) ∧
    (rungFor content policy snapshot winner.providerId).eligible = true ∧
    ∀ order, ∀ other ∈ content.bindingsFor order canonical,
      (rungFor content policy snapshot other.providerId).eligible = true →
      sortKey (policy.preference canonical) snapshot winner.providerId ≤
        sortKey (policy.preference canonical) snapshot other.providerId

section Choice

variable {digest : String → String} {content : Content} {version : Nat} {order : SetOrder}
  {policy : LoadPolicyView} {snapshot : HealthSnapshot} {capabilityId : String}

/-- The bindings do not depend on the order in which the providers are iterated. -/
theorem mem_bindingsFor_of_mem {order' : SetOrder} {entry : BindingRecord}
    (hentry : entry ∈ content.bindingsFor order name) : entry ∈ content.bindingsFor order' name :=
  mem_bindingsFor.mpr (mem_bindingsFor.mp hentry)

theorem resolve_of_none (hresolve : content.resolve capabilityId = none) :
    resolve digest content version order policy snapshot capabilityId =
      .failed ⟨capabilityId, version, digest snapshot.canonicalText, [], true⟩ := by
  unfold resolve
  rw [hresolve]

/-- A resolution fails when nothing is eligible, and mints the contract of the winner otherwise. -/
theorem resolve_cases (digest : String → String) (version : Nat) (order : SetOrder)
    {canonical : String} (hresolve : content.resolve capabilityId = some canonical) :
    ((∀ entry ∈ content.bindingsFor order canonical,
        (rungFor content policy snapshot entry.providerId).eligible = false) ∧
      ∃ failure, resolve digest content version order policy snapshot capabilityId =
        .failed failure) ∨ ∃ winner provider, Wins content policy snapshot canonical winner ∧
      content.providers.get? winner.providerId = some provider ∧
      resolve digest content version order policy snapshot capabilityId =
        .bound (mint digest version snapshot canonical winner provider) := by
  unfold resolve
  rw [hresolve]
  simp only
  cases hsorted : sortedBy (fun entry : BindingRecord ↦
      sortKey (policy.preference canonical) snapshot entry.providerId)
      ((content.bindingsFor order canonical).filter fun entry ↦
        (rungFor content policy snapshot entry.providerId).eligible) with
  | nil =>
    refine .inl ⟨?_, _, rfl⟩
    intro entry hentry
    have hnone := filter_eq_nil_iff.mp (sortedBy_eq_nil.mp hsorted) entry hentry
    simpa using hnone
  | cons winner rest =>
    obtain ⟨hwinner, hfirst⟩ := head_sortedBy hsorted
    obtain ⟨hmem, heligible⟩ := mem_filter.mp hwinner
    obtain ⟨⟨provider, hprovider, -⟩, -⟩ := eligible_rungFor_iff.mp heligible
    refine .inr ⟨winner, provider, ⟨⟨order, hmem⟩, heligible, ?_⟩, hprovider, ?_⟩
    · intro order' other hother heligible'
      exact hfirst other (mem_filter.mpr ⟨mem_bindingsFor_of_mem hother, heligible'⟩)
    · simp only [hprovider]
      rfl

/-- There is at most one winner. -/
theorem Wins.unique (hcontent : content.Named) {canonical : String} {first second : BindingRecord}
    (hfirst : Wins content policy snapshot canonical first)
    (hsecond : Wins content policy snapshot canonical second) : first = second := by
  obtain ⟨⟨order, hmem⟩, heligible, hleast⟩ := hfirst
  obtain ⟨⟨order', hmem'⟩, heligible', hleast'⟩ := hsecond
  have hkey := le_antisymm (hleast order' second hmem' heligible')
    (hleast' order first hmem heligible)
  exact hcontent.bindingsFor_inj hmem hmem' (sortKey_inj hkey)

theorem Content.Named.resolve_eq_bound_iff (hcontent : content.Named) {contract : BindingContract} :
    Plugins.resolve digest content version order policy snapshot capabilityId = .bound contract ↔
      ∃ canonical winner provider, content.resolve capabilityId = some canonical ∧
        Wins content policy snapshot canonical winner ∧
        content.providers.get? winner.providerId = some provider ∧
        contract = mint digest version snapshot canonical winner provider := by
  constructor
  · intro hbound
    cases hresolve : content.resolve capabilityId with
    | none =>
      rw [resolve_of_none hresolve] at hbound
      cases hbound
    | some canonical =>
      rcases @resolve_cases content policy snapshot capabilityId digest version order canonical
          hresolve with ⟨-, failure, hfailed⟩ | ⟨winner, provider, hwins, hprovider, hminted⟩
      · rw [hfailed] at hbound
        cases hbound
      · rw [hminted] at hbound
        cases hbound
        exact ⟨canonical, winner, provider, rfl, hwins, hprovider, rfl⟩
  · rintro ⟨canonical, winner, provider, hresolve, hwins, hprovider, rfl⟩
    rcases @resolve_cases content policy snapshot capabilityId digest version order canonical
        hresolve with ⟨hnone, -⟩ | ⟨winner', provider', hwins', hprovider', hminted⟩
    · obtain ⟨⟨order', hmem⟩, heligible, -⟩ := hwins
      rw [hnone winner (mem_bindingsFor_of_mem hmem)] at heligible
      cases heligible
    · have heq := hwins.unique hcontent hwins'
      subst heq
      rw [hprovider] at hprovider'
      cases hprovider'
      exact hminted

/-- Assumes: the policies are one and the snapshots have the same entries and one text. What a
resolution bound is bound again from the canonical id. -/
theorem Content.Named.resolve_replay (hcontent : content.Named) {contract : BindingContract}
    {policy' : LoadPolicyView} {snapshot' : HealthSnapshot} (hpolicy : policy.SamePolicy policy')
    (hsnapshot : snapshot.SameEntries snapshot')
    (htext : snapshot'.canonicalText = snapshot.canonicalText) (order' : SetOrder)
    (hbound : Plugins.resolve digest content version order policy snapshot capabilityId =
      .bound contract) :
    Plugins.resolve digest content version order' policy' snapshot' contract.capabilityId =
      .bound contract := by
  obtain ⟨canonical, winner, provider, hresolve, ⟨hmem, heligible, hleast⟩, hprovider, rfl⟩ :=
    hcontent.resolve_eq_bound_iff.mp hbound
  have hkey : ∀ providerId, sortKey (policy'.preference canonical) snapshot' providerId =
      sortKey (policy.preference canonical) snapshot providerId := by
    intro providerId
    unfold sortKey LoadPolicyView.preference HealthSnapshot.reliability
    rw [hpolicy.2, hsnapshot providerId]
  refine hcontent.resolve_eq_bound_iff.mpr ⟨canonical, winner, provider,
    (hcontent.resolve_self hresolve).2, ⟨hmem, ?_, ?_⟩, hprovider, ?_⟩
  · rw [← eligible_rungFor_congr hpolicy hsnapshot]
    exact heligible
  · intro order other hother heligible'
    rw [← eligible_rungFor_congr hpolicy hsnapshot] at heligible'
    rw [hkey, hkey]
    exact hleast order other hother heligible'
  · unfold mint
    rw [htext]

end Choice

end AbsoluteZero.Plugins

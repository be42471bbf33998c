import AbsoluteZero.Foundations.Checked
import AbsoluteZero.Plugins.Registry

/-!
# Consistency of the plugin registry

What every version of the registry is meant to satisfy (`Content.Consistent`), how a later version
stands to an earlier one (`Content.Evolves`), and what the mutations of a capability make of both.
The handlers do not look at the bindings when a capability is updated or retires, and one may be
added retired.
-/

namespace AbsoluteZero.Plugins

open Foundations Checked OrderedDict Option

/-! ### Consistent content -/

/-- Two sets of constraints agree on the keys they share. -/
def Agree (capabilityConstraints providerConstraints : OrderedDict String Json) : Prop :=
  ∀ name value declared, capabilityConstraints.get? name = some value →
    providerConstraints.get? name = some declared → declared.pyEq value = true

theorem constraintsCompatible_iff
    {capabilityConstraints providerConstraints : OrderedDict String Json} :
    constraintsCompatible capabilityConstraints providerConstraints = true ↔
      Agree capabilityConstraints providerConstraints := by
  unfold constraintsCompatible Agree
  rw [List.all_eq_true]
  constructor
  · intro hall name value declared hvalue hdeclared
    have hitem := hall (name, value) ((get?_eq_some_iff _).mp hvalue)
    simpa only [hdeclared] using hitem
  · rintro hagree ⟨name, value⟩ hitem
    cases hdeclared : providerConstraints.get? name with
    | none => rfl
    | some declared =>
      exact hagree name value declared ((get?_eq_some_iff _).mpr hitem) hdeclared

namespace Content

/-- The capability can be bound to the provider: it is active or deprecated, the provider is
registered and not retired, and their constraints agree. -/
def Bindable (content : Content) (capabilityId providerId : String) : Prop :=
  ∃ capability provider, content.capabilities.get? capabilityId = some capability ∧
    capability.lifecycle.matchable = true ∧ content.providers.get? providerId = some provider ∧
    provider.lifecycle ≠ .retired ∧ Agree capability.constraints provider.declaredConstraints

/-- What every version of the registry is meant to satisfy. -/
structure Consistent (content : Content) : Prop where
  capabilities_named : ∀ id record, content.capabilities.get? id = some record → record.id = id
  providers_named : ∀ id record, content.providers.get? id = some record → record.id = id
  bindings : ∀ capabilityId providerId record,
    content.bindings.get? (capabilityId, providerId) = some record →
    record.capabilityId = capabilityId ∧ record.providerId = providerId ∧
      content.Bindable capabilityId providerId
  aliases : ∀ name target, content.aliases.get? name = some target →
    ∃ capability, content.capabilities.get? target = some capability ∧
      capability.lifecycle ≠ .retired
  aliases_apart : ∀ name target capability, content.aliases.get? name = some target →
    content.capabilities.get? name = some capability → name = target
  endpoints : ∀ edge ∈ content.relationships,
    (∃ capability, content.getCapability edge.src = some capability) ∧
      ∃ capability, content.getCapability edge.dst = some capability

/-- How a later version stands to an earlier one: what was registered is still there and its
lifecycle did not move backwards, so that a retired id stays retired. -/
structure Evolves (earlier later : Content) : Prop where
  capabilities : ∀ id record, earlier.capabilities.get? id = some record →
    ∃ record', later.capabilities.get? id = some record' ∧
      record.lifecycle.order ≤ record'.lifecycle.order
  providers : ∀ id record, earlier.providers.get? id = some record →
    ∃ record', later.providers.get? id = some record' ∧
      record.lifecycle.order ≤ record'.lifecycle.order

theorem Evolves.refl (content : Content) : content.Evolves content where
  capabilities := fun _ record hrecord ↦ ⟨record, hrecord, Nat.le_refl _⟩
  providers := fun _ record hrecord ↦ ⟨record, hrecord, Nat.le_refl _⟩

theorem Evolves.trans {first second third : Content} (hfirst : first.Evolves second)
    (hsecond : second.Evolves third) : first.Evolves third where
  capabilities := by
    intro id record hrecord
    obtain ⟨middle, hmiddle, horder⟩ := hfirst.capabilities id record hrecord
    obtain ⟨last, hlast, horder'⟩ := hsecond.capabilities id middle hmiddle
    exact ⟨last, hlast, Nat.le_trans horder horder'⟩
  providers := by
    intro id record hrecord
    obtain ⟨middle, hmiddle, horder⟩ := hfirst.providers id record hrecord
    obtain ⟨last, hlast, horder'⟩ := hsecond.providers id middle hmiddle
    exact ⟨last, hlast, Nat.le_trans horder horder'⟩

theorem consistent_empty : empty.Consistent where
  capabilities_named := fun _ _ hrecord ↦ by cases hrecord
  providers_named := fun _ _ hrecord ↦ by cases hrecord
  bindings := fun _ _ _ hrecord ↦ by cases hrecord
  aliases := fun _ _ htarget ↦ by cases htarget
  aliases_apart := fun _ _ _ htarget ↦ by cases htarget
  endpoints := fun _ hedge ↦ by cases hedge

variable {working next : Content}

theorem Consistent.exists_getCapability (hworking : working.Consistent) {name canonical : String}
    (hresolve : working.resolve name = some canonical) :
    ∃ capability, working.capabilities.get? canonical = some capability ∧
      working.getCapability name = some capability := by
  have hread : working.getCapability name = working.capabilities.get? canonical := by
    unfold getCapability
    rw [hresolve]
  unfold resolve at hresolve
  cases halias : working.aliases.get? name with
  | some target =>
    simp only [halias] at hresolve
    cases hresolve
    obtain ⟨capability, hcapability, -⟩ := hworking.aliases name canonical halias
    exact ⟨capability, hcapability, hread.trans hcapability⟩
  | none =>
    simp only [halias] at hresolve
    split at hresolve
    · next hsome =>
      cases hresolve
      obtain ⟨capability, hcapability⟩ := isSome_iff_exists.mp hsome
      exact ⟨capability, hcapability, hread.trans hcapability⟩
    · cases hresolve

/-- What resolves to a capability in the earlier content resolves to one in the content. -/
def Resolves (content earlier : Content) : Prop :=
  ∀ name, (∃ capability, earlier.getCapability name = some capability) →
    ∃ capability, content.getCapability name = some capability

/-- Assumes: ids and aliases are there still, and every alias has a capability. What resolved to a
capability still does. -/
theorem resolves_of_grows (hcapabilities : ∀ id, (working.capabilities.get? id).isSome →
      (next.capabilities.get? id).isSome)
    (haliases : ∀ name target, working.aliases.get? name = some target →
      next.aliases.get? name = some target)
    (hnew : ∀ name target, next.aliases.get? name = some target →
      (next.capabilities.get? target).isSome) : next.Resolves working := by
  rintro name ⟨capability, hcapability⟩
  unfold getCapability resolve at hcapability ⊢
  cases halias' : next.aliases.get? name with
  | some target => exact isSome_iff_exists.mp (hnew name target halias')
  | none =>
    have halias : working.aliases.get? name = none := by
      cases halias : working.aliases.get? name with
      | none => rfl
      | some target =>
        rw [haliases name target halias] at halias'
        cases halias'
    simp only [halias] at hcapability
    have hsome : (working.capabilities.get? name).isSome := by
      by_contra hnone
      rw [if_neg hnone] at hcapability
      cases hcapability
    simp only [if_pos (hcapabilities name hsome)]
    exact isSome_iff_exists.mp (hcapabilities name hsome)

/-! ### Capabilities -/

def putCapability (working : Content) (record : CapabilityRecord) : Content :=
  { working with capabilities := working.capabilities.insert record.id record }

def putAliases (working : Content) (names : List String) (target : String) : Content :=
  { working with
    aliases := names.foldl (fun aliases name ↦ aliases.insert name target) working.aliases }

theorem get?_putCapability (record : CapabilityRecord) (id : String) :
    (working.putCapability record).capabilities.get? id =
      if record.id = id then some record else working.capabilities.get? id :=
  get?_insert ..

theorem get?_putAliases (names : List String) (target name : String) :
    (working.putAliases names target).aliases.get? name =
      if name ∈ names then some target else working.aliases.get? name :=
  get?_foldl_insert ..

/-- Writing a capability keeps every id that is there. -/
theorem isSome_insert_capability {id : String} (record : CapabilityRecord)
    (hid : (working.capabilities.get? id).isSome) :
    ((working.putCapability record).capabilities.get? id).isSome := by
  rw [get?_putCapability]
  split
  · rfl
  · exact hid

theorem Consistent.putCapability (hworking : working.Consistent) (record : CapabilityRecord)
    (hbound : ∀ providerId binding, working.bindings.get? (record.id, providerId) = some binding →
      ∀ provider, working.providers.get? providerId = some provider →
        record.lifecycle.matchable = true ∧ Agree record.constraints provider.declaredConstraints)
    (haliased : ∀ name, working.aliases.get? name = some record.id → record.lifecycle ≠ .retired)
    (hapart : ∀ target, working.aliases.get? record.id = some target → record.id = target) :
    (working.putCapability record).Consistent where
  capabilities_named := OrderedDict.KeyedBy.insert hworking.capabilities_named record
  providers_named := hworking.providers_named
  bindings := by
    intro capabilityId providerId binding hbinding
    obtain ⟨hcapabilityId, hproviderId, capability, provider, hcapability, hmatchable, hprovider,
      hlive, hagree⟩ := hworking.bindings capabilityId providerId binding hbinding
    refine ⟨hcapabilityId, hproviderId, ?_⟩
    by_cases heq : record.id = capabilityId
    · subst heq
      obtain ⟨hfits, hfits'⟩ := hbound providerId binding hbinding provider hprovider
      exact ⟨record, provider, get?_insert_self .., hfits, hprovider, hlive, hfits'⟩
    · refine ⟨capability, provider, ?_, hmatchable, hprovider, hlive, hagree⟩
      rw [get?_putCapability, if_neg heq, hcapability]
  aliases := by
    intro name target htarget
    obtain ⟨capability, hcapability, hlive⟩ := hworking.aliases name target htarget
    by_cases heq : record.id = target
    · subst heq
      exact ⟨record, get?_insert_self .., haliased name htarget⟩
    · refine ⟨capability, ?_, hlive⟩
      rw [get?_putCapability, if_neg heq, hcapability]
  aliases_apart := by
    intro name target capability htarget hcapability
    rw [get?_putCapability] at hcapability
    split at hcapability
    · next heq =>
      subst heq
      exact hapart target htarget
    · exact hworking.aliases_apart name target capability htarget hcapability
  endpoints := by
    have hstays : (working.putCapability record).Resolves working := by
      refine resolves_of_grows (fun id hid ↦ isSome_insert_capability record hid)
        (fun name target htarget ↦ htarget) fun name target htarget ↦ ?_
      obtain ⟨capability, hcapability, -⟩ := hworking.aliases name target htarget
      exact isSome_insert_capability record (by rw [hcapability]; rfl)
    exact fun edge hedge ↦
      ⟨hstays _ (hworking.endpoints edge hedge).1, hstays _ (hworking.endpoints edge hedge).2⟩

variable {record : CapabilityRecord}

theorem Consistent.putAliases (hworking : working.Consistent) {names : List String}
    (hrecord : working.capabilities.get? record.id = some record)
    (hlive : names ≠ [] → record.lifecycle ≠ .retired)
    (hfree : ∀ name ∈ names, working.aliases.get? name = none ∧
      ∀ capability, working.capabilities.get? name = some capability → name = record.id) :
    (working.putAliases names record.id).Consistent :=
  { hworking with
    aliases := by
      intro name target htarget
      rw [get?_putAliases] at htarget
      split at htarget
      · next hname =>
        cases htarget
        exact ⟨record, hrecord, hlive (List.ne_nil_of_mem hname)⟩
      · exact hworking.aliases name target htarget
    aliases_apart := by
      intro name target capability htarget hcapability
      rw [get?_putAliases] at htarget
      split at htarget
      · next hname =>
        cases htarget
        exact (hfree name hname).2 capability hcapability
      · exact hworking.aliases_apart name target capability htarget hcapability
    endpoints := by
      have hstays : (working.putAliases names record.id).Resolves working := by
        refine resolves_of_grows (fun id hid ↦ hid) ?_ ?_
        · intro name target htarget
          rw [get?_putAliases, if_neg, htarget]
          intro hname
          rw [(hfree name hname).1] at htarget
          cases htarget
        · intro name target htarget
          rw [get?_putAliases] at htarget
          split at htarget
          · cases htarget
            exact isSome_iff_exists.mpr ⟨record, hrecord⟩
          · obtain ⟨capability, hcapability, -⟩ := hworking.aliases name target htarget
            exact isSome_iff_exists.mpr ⟨capability, hcapability⟩
      exact fun edge hedge ↦
        ⟨hstays _ (hworking.endpoints edge hedge).1, hstays _ (hworking.endpoints edge hedge).2⟩ }

/-- What an accepted `add_capability` finds and writes. -/
theorem addCapability_ok (hnext : working.addCapability record = .ok next) :
    working.capabilities.get? record.id = none ∧ working.aliases.get? record.id = none ∧
    (∀ name ∈ record.aliases,
      working.capabilities.get? name = none ∧ working.aliases.get? name = none) ∧
    next = (working.putCapability record).putAliases record.aliases record.id := by
  unfold addCapability at hnext
  cases hexisting : working.capabilities.get? record.id with
  | some existing =>
    simp only [hexisting] at hnext
    split at hnext <;> cases hnext
  | none =>
    simp only [hexisting] at hnext
    obtain ⟨hunaliased, hnext⟩ := unless_eq_ok_iff.mp hnext
    obtain ⟨-, hnext⟩ := unless_eq_ok_iff.mp hnext
    cases hdefect : working.aliasDefect record.aliases with
    | some refusal =>
      simp only [hdefect] at hnext
      cases hnext
    | none =>
      simp only [hdefect] at hnext
      refine ⟨rfl, by simpa [isSome_iff_ne_none] using hunaliased, ?_,
        (Except.ok.inj hnext).symm⟩
      intro name hname
      have hfree := List.findSome?_eq_none_iff.mp hdefect name hname
      split at hfree
      · cases hfree
      · next hcapability =>
        split at hfree
        · cases hfree
        · next halias =>
          exact ⟨by simpa [isSome_iff_ne_none] using hcapability,
            by simpa [isSome_iff_ne_none] using halias⟩

/-- What an accepted `update_capability` finds and writes. -/
theorem updateCapability_ok (hnext : working.updateCapability record = .ok next) :
    ∃ existing, working.capabilities.get? record.id = some existing ∧
      existing.lifecycle ≠ .retired ∧ record.lifecycle = existing.lifecycle ∧
      record.aliases = existing.aliases ∧ next = working.putCapability record := by
  unfold updateCapability at hnext
  cases hexisting : working.capabilities.get? record.id with
  | none =>
    simp only [hexisting] at hnext
    cases hnext
  | some existing =>
    simp only [hexisting] at hnext
    obtain ⟨hlive, hnext⟩ := unless_eq_ok_iff.mp hnext
    obtain ⟨hlifecycle, hnext⟩ := unless_eq_ok_iff.mp hnext
    split at hnext
    · cases hnext
    · obtain ⟨haliases, hnext⟩ := unless_eq_ok_iff.mp hnext
      split at hnext
      · cases hnext
      · exact ⟨existing, rfl, hlive, not_not.mp hlifecycle, not_not.mp haliases,
          (Except.ok.inj hnext).symm⟩

/-- A transition that is accepted leads strictly forward, to the state that the text names. -/
theorem checkForward_ok {old new : Lifecycle} {toState subject : String}
    (hcheck : checkForward old toState subject = .ok new) :
    toState = ClosedVocabulary.text new ∧ old.order < new.order := by
  unfold checkForward at hcheck
  cases hstep : old.checkForward toState with
  | error defect => cases defect <;> (simp only [hstep] at hcheck; cases hcheck)
  | ok other =>
    simp only [hstep] at hcheck
    cases hcheck
    exact Lifecycle.checkForward_eq_ok hstep

variable {id toState : String}

/-- What an accepted transition of a capability finds and writes. -/
theorem transitionCapability_ok (hnext : working.transitionCapability id toState = .ok next) :
    ∃ existing lifecycle, working.capabilities.get? id = some existing ∧
      toState = ClosedVocabulary.text lifecycle ∧ existing.lifecycle.order < lifecycle.order ∧
      ¬ (lifecycle = .retired ∧ id ∈ working.aliases.values) ∧ next = { working with
        capabilities := working.capabilities.insert id { existing with lifecycle } } := by
  unfold transitionCapability at hnext
  cases hexisting : working.capabilities.get? id with
  | none =>
    simp only [hexisting] at hnext
    cases hnext
  | some existing =>
    cases hcheck : checkForward existing.lifecycle toState id with
    | error refusal =>
      simp only [hexisting, hcheck] at hnext
      cases hnext
    | ok lifecycle =>
      obtain ⟨htext, horder⟩ := checkForward_ok hcheck
      simp only [hexisting, hcheck] at hnext
      split at hnext
      · cases hnext
      · next htargeted =>
        exact ⟨existing, lifecycle, rfl, htext, horder, htargeted, (Except.ok.inj hnext).symm⟩

theorem evolves_insertCapability (id : String) (record : CapabilityRecord)
    (hreplaced : ∀ existing, working.capabilities.get? id = some existing →
      existing.lifecycle.order ≤ record.lifecycle.order) :
    working.Evolves { working with capabilities := working.capabilities.insert id record } where
  capabilities := by
    intro other existing hexisting
    by_cases heq : id = other
    · subst heq
      exact ⟨record, get?_insert_self .., hreplaced existing hexisting⟩
    · refine ⟨existing, ?_, Nat.le_refl _⟩
      rw [get?_insert, if_neg heq, hexisting]
  providers := fun _ provider hprovider ↦ ⟨provider, hprovider, Nat.le_refl _⟩

theorem Consistent.addCapability_iff (hworking : working.Consistent)
    (hnext : working.addCapability record = .ok next) :
    next.Consistent ↔ (record.lifecycle = .retired → record.aliases = []) := by
  obtain ⟨hnew, hunaliased, hfree, rfl⟩ := addCapability_ok hnext
  have hself : (working.putCapability record).capabilities.get? record.id = some record :=
    get?_insert_self ..
  constructor
  · intro hconsistent hretired
    by_contra hsome
    obtain ⟨name, hname⟩ := List.exists_mem_of_ne_nil _ hsome
    obtain ⟨capability, hcapability, hlive⟩ := hconsistent.aliases name record.id
      (by rw [get?_putAliases, if_pos hname])
    change (working.putCapability record).capabilities.get? record.id = _ at hcapability
    rw [hself] at hcapability
    cases hcapability
    exact hlive hretired
  · intro hspared
    refine Consistent.putAliases (hworking.putCapability record ?_ ?_ ?_) hself ?_ ?_
    · intro providerId binding hbinding
      obtain ⟨-, -, capability, -, hcapability, -⟩ :=
        hworking.bindings record.id providerId binding hbinding
      rw [hnew] at hcapability
      cases hcapability
    · intro name hname
      obtain ⟨capability, hcapability, -⟩ := hworking.aliases name record.id hname
      rw [hnew] at hcapability
      cases hcapability
    · intro target htarget
      rw [hunaliased] at htarget
      cases htarget
    · exact fun hsome hretired ↦ hsome (hspared hretired)
    · intro name hname
      refine ⟨(hfree name hname).2, fun capability hcapability ↦ ?_⟩
      rw [get?_putCapability] at hcapability
      split at hcapability
      · next heq => exact heq.symm
      · rw [(hfree name hname).1] at hcapability
        cases hcapability

theorem Consistent.updateCapability_iff
    (hworking : working.Consistent) (hnext : working.updateCapability record = .ok next) :
    next.Consistent ↔ ∀ providerId binding,
      working.bindings.get? (record.id, providerId) = some binding →
      ∀ provider, working.providers.get? providerId = some provider →
        constraintsCompatible record.constraints provider.declaredConstraints = true := by
  obtain ⟨existing, hexisting, hlive, hlifecycle, -, rfl⟩ := updateCapability_ok hnext
  have hself : (working.putCapability record).capabilities.get? record.id = some record :=
    get?_insert_self ..
  constructor
  · intro hconsistent providerId binding hbinding provider hprovider
    obtain ⟨-, -, capability, other, hcapability, -, hother, -, hagree⟩ :=
      hconsistent.bindings record.id providerId binding hbinding
    rw [hself] at hcapability
    cases hcapability
    change working.providers.get? providerId = some other at hother
    rw [hprovider] at hother
    cases hother
    exact constraintsCompatible_iff.mpr hagree
  · intro hspared
    refine hworking.putCapability record ?_ ?_ ?_
    · intro providerId binding hbinding provider hprovider
      obtain ⟨-, -, capability, -, hcapability, hmatchable, -⟩ :=
        hworking.bindings record.id providerId binding hbinding
      rw [hexisting] at hcapability
      cases hcapability
      exact ⟨by rw [hlifecycle, hmatchable],
        constraintsCompatible_iff.mp (hspared providerId binding hbinding provider hprovider)⟩
    · exact fun _ _ ↦ hlifecycle ▸ hlive
    · exact fun target htarget ↦ hworking.aliases_apart record.id target existing htarget hexisting

theorem evolves_updateCapability
    (hnext : working.updateCapability record = .ok next) : working.Evolves next := by
  obtain ⟨existing, hexisting, -, hlifecycle, -, rfl⟩ := updateCapability_ok hnext
  refine evolves_insertCapability record.id record fun other hother ↦ ?_
  rw [hexisting] at hother
  cases hother
  exact Nat.le_of_eq (congrArg Lifecycle.order hlifecycle.symm)

theorem text_retired_iff {lifecycle : Lifecycle} :
    ClosedVocabulary.text lifecycle = "retired" ↔ lifecycle = .retired :=
  ⟨fun htext ↦ ClosedVocabulary.injective lifecycle .retired htext, fun heq ↦ heq ▸ rfl⟩

theorem Consistent.transitionCapability_iff (hworking : working.Consistent)
    (hnext : working.transitionCapability id toState = .ok next) : next.Consistent ↔
      (toState = "retired" → ∀ providerId, working.bindings.get? (id, providerId) = none) := by
  obtain ⟨existing, lifecycle, hexisting, rfl, horder, htargeted, rfl⟩ :=
    transitionCapability_ok hnext
  have hid : existing.id = id := hworking.capabilities_named id existing hexisting
  subst hid
  rw [text_retired_iff]
  change (working.putCapability { existing with lifecycle }).Consistent ↔ _
  constructor
  · rintro hconsistent rfl providerId
    by_contra hbound
    obtain ⟨binding, hbinding⟩ := ne_none_iff_exists'.mp hbound
    obtain ⟨-, -, capability, -, hcapability, hmatchable, -⟩ :=
      hconsistent.bindings existing.id providerId binding hbinding
    rw [get?_putCapability, if_pos rfl] at hcapability
    cases hcapability
    cases hmatchable
  · intro hspared
    refine hworking.putCapability { existing with lifecycle } ?_ ?_ ?_
    · intro providerId binding hbinding provider hprovider
      obtain ⟨-, -, capability, other, hcapability, hmatchable, hother, -, hagree⟩ :=
        hworking.bindings existing.id providerId binding hbinding
      rw [hexisting] at hcapability
      cases hcapability
      rw [hprovider] at hother
      cases hother
      refine ⟨Lifecycle.matchable_of_forward horder hmatchable fun hretired ↦ ?_, hagree⟩
      have hnone := hspared hretired providerId
      rw [hbinding] at hnone
      cases hnone
    · intro name hname hretired
      refine htargeted ⟨hretired, ?_⟩
      exact List.mem_map.mpr ⟨(name, existing.id), (get?_eq_some_iff _).mp hname, rfl⟩
    · exact fun target htarget ↦
        hworking.aliases_apart existing.id target existing htarget hexisting

theorem evolves_transitionCapability
    (hnext : working.transitionCapability id toState = .ok next) : working.Evolves next := by
  obtain ⟨existing, lifecycle, hexisting, -, horder, -, rfl⟩ := transitionCapability_ok hnext
  refine evolves_insertCapability id { existing with lifecycle } fun other hother ↦ ?_
  rw [hexisting] at hother
  cases hother
  exact Nat.le_of_lt horder

end Content

end AbsoluteZero.Plugins

import AbsoluteZero.Plugins.Histories

/-!
# The names in the plugin registry

What every version of the registry satisfies (`Content.Named`): records stand under their own names,
the aliases are those of the capabilities, and what a binding, an alias or a relationship names is
registered. No mutation breaks this (`Content.Named.handle`, `Registry.all_named_after`).
-/

namespace AbsoluteZero.Plugins

open Foundations

namespace Content

variable {working next : Content}

variable {content : Content}

/-- A name is an alias or the id of a capability. -/
theorem isSome_resolve_iff {name : String} : (content.resolve name).isSome ↔
      (content.aliases.get? name).isSome ∨ (content.capabilities.get? name).isSome := by
  unfold resolve
  cases content.aliases.get? name with
  | some target => simp
  | none =>
    cases content.capabilities.get? name with
    | some capability | none => simp

/-- What every version of the registry satisfies. -/
structure Named (content : Content) : Prop where
  capabilities_named : ∀ id record, content.capabilities.get? id = some record → record.id = id
  providers_named : ∀ id record, content.providers.get? id = some record → record.id = id
  bindings : ∀ capabilityId providerId record,
    content.bindings.get? (capabilityId, providerId) = some record →
    record.capabilityId = capabilityId ∧ record.providerId = providerId ∧
      (content.capabilities.get? capabilityId).isSome ∧ (content.providers.get? providerId).isSome
  aliases : ∀ name target, content.aliases.get? name = some target ↔
    ∃ capability, content.capabilities.get? target = some capability ∧ name ∈ capability.aliases
  aliases_apart : ∀ name target, content.aliases.get? name = some target →
    (content.capabilities.get? name).isSome → name = target
  endpoints : ∀ edge ∈ content.relationships,
    (content.resolve edge.src).isSome ∧ (content.resolve edge.dst).isSome

theorem named_empty : empty.Named where
  capabilities_named := by
    intro id record hrecord
    cases hrecord
  providers_named := by
    intro id record hrecord
    cases hrecord
  bindings := by
    intro capabilityId providerId record hrecord
    cases hrecord
  aliases := by
    intro name target
    constructor
    · intro htarget
      cases htarget
    · rintro ⟨capability, hcapability, -⟩
      cases hcapability
  aliases_apart := by
    intro name target htarget
    cases htarget
  endpoints := by
    intro edge hedge
    cases hedge

/-- A capability is resolved to itself. -/
theorem Named.resolve_id (hcontent : content.Named) {id : String}
    (hsome : (content.capabilities.get? id).isSome) : content.resolve id = some id := by
  unfold resolve
  cases halias : content.aliases.get? id with
  | some target => rw [← hcontent.aliases_apart id target halias hsome]
  | none => simp only [if_pos hsome]

/-- A name is resolved to a capability, which is resolved to itself. -/
theorem Named.resolve_self (hcontent : content.Named) {name canonical : String}
    (hresolve : content.resolve name = some canonical) :
    (content.capabilities.get? canonical).isSome ∧ content.resolve canonical = some canonical := by
  have hsome : (content.capabilities.get? canonical).isSome := by
    unfold resolve at hresolve
    cases halias : content.aliases.get? name with
    | some target =>
      rw [halias] at hresolve
      cases hresolve
      obtain ⟨capability, hcapability, -⟩ := (hcontent.aliases name canonical).mp halias
      rw [hcapability]
      rfl
    | none =>
      simp only [halias] at hresolve
      split at hresolve
      · next hsome =>
        cases hresolve
        exact hsome
      · cases hresolve
  exact ⟨hsome, hcontent.resolve_id hsome⟩

section

variable (hworking : working.Named)

include hworking

/-- A capability may change all but its id and its aliases. -/
theorem Named.replaceCapability {record existing : CapabilityRecord}
    (hexisting : working.capabilities.get? record.id = some existing)
    (haliases : record.aliases = existing.aliases) : (working.putCapability record).Named := by
  have hsome : ∀ id, ((working.putCapability record).capabilities.get? id).isSome =
      (working.capabilities.get? id).isSome := by
    intro id
    rw [get?_putCapability]
    split
    · next heq => rw [← heq, hexisting]; rfl
    · rfl
  refine ⟨OrderedDict.KeyedBy.insert hworking.capabilities_named record, hworking.providers_named,
    ?_, ?_, ?_, ?_⟩
  · intro capabilityId providerId binding hbinding
    rw [hsome]
    exact hworking.bindings capabilityId providerId binding hbinding
  · intro name target
    refine (hworking.aliases name target).trans ?_
    rw [get?_putCapability]
    by_cases heq : record.id = target
    · subst heq
      rw [if_pos rfl, hexisting]
      simp only [Option.some.injEq, exists_eq_left', haliases]
    · rw [if_neg heq]
  · intro name target htarget hid
    rw [hsome] at hid
    exact hworking.aliases_apart name target htarget hid
  · intro edge hedge
    have hresolve : ∀ name, (working.resolve name).isSome →
        ((working.putCapability record).resolve name).isSome := by
      intro name hname
      rw [isSome_resolve_iff, hsome]
      exact isSome_resolve_iff.mp hname
    exact ⟨hresolve _ (hworking.endpoints edge hedge).1,
      hresolve _ (hworking.endpoints edge hedge).2⟩

/-- A new capability takes an id and aliases that no name stands for. -/
theorem Named.addCapability {record : CapabilityRecord}
    (hnext : working.addCapability record = .ok next) : next.Named := by
  have hkeeps := keeps_addCapability hnext
  obtain ⟨hnew, hunaliased, hfree, rfl⟩ := addCapability_ok hnext
  have hcapability : ∀ id, ((working.putCapability record).putAliases record.aliases
      record.id).capabilities.get? id =
        if record.id = id then some record else working.capabilities.get? id :=
    get?_putCapability record
  have halias : ∀ name, ((working.putCapability record).putAliases record.aliases
      record.id).aliases.get? name =
        if name ∈ record.aliases then some record.id else working.aliases.get? name :=
    fun name ↦ get?_putAliases record.aliases record.id name
  have hstays : ∀ id, (working.capabilities.get? id).isSome →
      (((working.putCapability record).putAliases record.aliases
        record.id).capabilities.get? id).isSome := by
    intro id hid
    obtain ⟨other, hother⟩ := Option.isSome_iff_exists.mp hid
    rw [hkeeps.capabilities id other hother]
    rfl
  refine ⟨OrderedDict.KeyedBy.insert hworking.capabilities_named record, hworking.providers_named,
    ?_, ?_, ?_, ?_⟩
  · intro capabilityId providerId binding hbinding
    obtain ⟨hcapabilityId, hproviderId, hthere, hprovider⟩ :=
      hworking.bindings capabilityId providerId binding hbinding
    exact ⟨hcapabilityId, hproviderId, hstays capabilityId hthere, hprovider⟩
  · intro name target
    rw [halias, hcapability]
    by_cases hname : name ∈ record.aliases
    · rw [if_pos hname]
      by_cases heq : record.id = target
      · simp [heq, hname]
      · -- a name of the new capability is free, so no other capability has it
        rw [if_neg heq]
        refine iff_of_false (fun hsome ↦ heq (Option.some.inj hsome)) ?_
        intro hother
        have htarget := (hworking.aliases name target).mpr hother
        rw [(hfree name hname).2] at htarget
        cases htarget
    · rw [if_neg hname]
      by_cases heq : record.id = target
      · subst heq
        rw [if_pos rfl]
        refine iff_of_false ?_ ?_
        · intro htarget
          obtain ⟨other, hother, -⟩ := (hworking.aliases name record.id).mp htarget
          rw [hnew] at hother
          cases hother
        · rintro ⟨other, hother, hmem⟩
          cases hother
          exact hname hmem
      · rw [if_neg heq]
        exact hworking.aliases name target
  · intro name target htarget hid
    rw [halias] at htarget
    rw [hcapability] at hid
    by_cases hname : name ∈ record.aliases
    · rw [if_pos hname] at htarget
      cases htarget
      by_cases heq : record.id = name
      · exact heq.symm
      · rw [if_neg heq, (hfree name hname).1] at hid
        cases hid
    · rw [if_neg hname] at htarget
      by_cases heq : record.id = name
      · rw [← heq, hunaliased] at htarget
        cases htarget
      · rw [if_neg heq] at hid
        exact hworking.aliases_apart name target htarget hid
  · intro edge hedge
    have hresolve : ∀ name, (working.resolve name).isSome →
        (((working.putCapability record).putAliases record.aliases record.id).resolve
          name).isSome := by
      intro name hname
      rw [isSome_resolve_iff]
      rcases isSome_resolve_iff.mp hname with hthere | hthere
      · obtain ⟨target, htarget⟩ := Option.isSome_iff_exists.mp hthere
        rw [hkeeps.aliases name target htarget]
        exact .inl rfl
      · exact .inr (hstays name hthere)
    exact ⟨hresolve _ (hworking.endpoints edge hedge).1,
      hresolve _ (hworking.endpoints edge hedge).2⟩

theorem Named.updateCapability {record : CapabilityRecord}
    (hnext : working.updateCapability record = .ok next) : next.Named := by
  obtain ⟨existing, hexisting, -, -, haliases, rfl⟩ := updateCapability_ok hnext
  exact hworking.replaceCapability hexisting haliases

theorem Named.transitionCapability {id toState : String}
    (hnext : working.transitionCapability id toState = .ok next) : next.Named := by
  obtain ⟨existing, lifecycle, hexisting, -, -, -, rfl⟩ := transitionCapability_ok hnext
  have hid : existing.id = id := hworking.capabilities_named id existing hexisting
  subst hid
  exact @Named.replaceCapability working hworking { existing with lifecycle } existing hexisting rfl

/-! ### Providers, bindings and relationships -/

/-- A provider is put under its own id, and none is lost. -/
theorem Named.putProvider (record : ProviderRecord) :
    (working.putProvider record).Named :=
  { hworking with
    providers_named := OrderedDict.KeyedBy.insert hworking.providers_named record
    bindings := by
      intro capabilityId providerId binding hbinding
      obtain ⟨hcapabilityId, hproviderId, hcapability, hprovider⟩ :=
        hworking.bindings capabilityId providerId binding hbinding
      refine ⟨hcapabilityId, hproviderId, hcapability, ?_⟩
      rw [get?_putProvider]
      split
      · rfl
      · exact hprovider }

/-- Bindings may be taken away. -/
theorem Named.dropBindings {bindings : OrderedDict (String × String) BindingRecord}
    (hbindings : ∀ key binding, bindings.get? key = some binding →
      working.bindings.get? key = some binding) : Named { working with bindings } :=
  { hworking with
    bindings := fun capabilityId providerId binding hbinding ↦
      hworking.bindings capabilityId providerId binding (hbindings _ _ hbinding) }

theorem Named.addProvider {record : ProviderRecord}
    (hnext : working.addProvider record = .ok next) : next.Named := by
  obtain ⟨-, rfl⟩ := addProvider_ok hnext
  exact hworking.putProvider record

theorem Named.transitionProvider {id toState : String}
    (hnext : working.transitionProvider id toState = .ok next) : next.Named := by
  obtain ⟨existing, lifecycle, hexisting, -, rfl⟩ := transitionProvider_ok hnext
  have hid : existing.id = id := hworking.providers_named id existing hexisting
  subst hid
  have hput := hworking.putProvider { existing with lifecycle }
  refine hput.dropBindings fun key binding hbinding ↦ ?_
  split at hbinding
  · exact ((get?_retireBindings working.bindings existing.id).mp hbinding).1
  · exact hbinding

/-- A binding is kept under the resolved id of its capability. -/
theorem Named.addBinding {record : BindingRecord}
    (hnext : working.addBinding record = .ok next) : next.Named := by
  obtain ⟨canonical, capability, provider, hcapability, -, hprovider, -, rfl⟩ :=
    addBinding_ok hnext
  refine { hworking with bindings := ?_ }
  intro capabilityId providerId binding hbinding
  rw [OrderedDict.get?_insert] at hbinding
  split at hbinding
  · next heq =>
    cases heq
    cases hbinding
    refine ⟨rfl, rfl, ?_, ?_⟩
    · rw [hcapability]
      rfl
    · rw [hprovider]
      rfl
  · exact hworking.bindings capabilityId providerId binding hbinding

theorem Named.removeBinding {capabilityId providerId : String}
    (hnext : working.removeBinding capabilityId providerId = .ok next) : next.Named := by
  obtain ⟨canonical, rfl⟩ := removeBinding_ok hnext
  refine hworking.dropBindings fun key binding hbinding ↦ ?_
  rw [OrderedDict.get?_erase] at hbinding
  split at hbinding
  · cases hbinding
  · exact hbinding

theorem Named.addRelationship {record : RelationshipEdge}
    (hnext : working.addRelationship record = .ok next) : next.Named := by
  obtain ⟨⟨source, hsource⟩, ⟨target, htarget⟩, rfl⟩ := addRelationship_ok hnext
  refine { hworking with endpoints := fun edge hedge ↦ ?_ }
  rcases List.mem_append.mp hedge with hold | hlast
  · exact hworking.endpoints edge hold
  · rw [List.mem_singleton.mp hlast]
    exact ⟨Option.isSome_iff_exists.mpr ⟨source, hsource⟩,
      Option.isSome_iff_exists.mpr ⟨target, htarget⟩⟩

theorem Named.admitBundle {bundle : Bundle}
    (hnext : working.admitBundle bundle = .ok next) : next.Named := by
  obtain ⟨described, provided, bound, hdescribed, hprovided, hbound, hrelated⟩ :=
    admitBundle_ok hnext
  have hdescribed' : described.Named :=
    Checked.foldlM_invariant Named (fun _ _ _ _ hstate hstep ↦ hstate.addCapability hstep) hworking
      hdescribed
  have hbound' : bound.Named :=
    Checked.foldlM_invariant Named (fun _ _ _ _ hstate hstep ↦ hstate.addBinding hstep)
      (hdescribed'.addProvider hprovided) hbound
  exact Checked.foldlM_invariant Named (fun _ _ _ _ hstate hstep ↦ hstate.addRelationship hstep)
    hbound' hrelated

theorem Named.handle {mutation : Mutation}
    (hnext : working.handle mutation = .ok next) : next.Named := by
  cases mutation with
  | addCapability record => exact hworking.addCapability hnext
  | updateCapability record => exact hworking.updateCapability hnext
  | addProvider record => exact hworking.addProvider hnext
  | addBinding record => exact hworking.addBinding hnext
  | removeBinding capabilityId providerId => exact hworking.removeBinding hnext
  | addRelationship record => exact hworking.addRelationship hnext
  | lifecycleTransition entity id toState =>
    change (if _ then _ else if _ then _ else _) = _ at hnext
    split at hnext
    · exact hworking.transitionCapability hnext
    · split at hnext
      · exact hworking.transitionProvider hnext
      · cases hnext
  | admitBundle bundle => exact hworking.admitBundle hnext
  | unknown kind => cases kind <;> cases hnext

end

end Content

namespace Registry

theorem all_named_offer {registry : Registry} (hall : registry.All Content.Named)
    (mutations : List Mutation) : (registry.offer Content.handle mutations).All Content.Named :=
  hall.offer (fun _ _ _ hstate _ hnext ↦ hstate.handle hnext)
    (Versioned.admits_true Content.handle registry mutations)

theorem all_named_after (mutations : List Mutation) : (after mutations).All Content.Named :=
  all_named_offer (Versioned.All.fresh Content.named_empty) mutations

end Registry

end AbsoluteZero.Plugins

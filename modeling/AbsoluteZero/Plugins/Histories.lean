import AbsoluteZero.Plugins.Consistency

/-!
# Histories of the plugin registry

An accepted mutation leaves consistent content consistent exactly when it spares it
(`Content.Consistent.handle_iff`). So the versions of a registry are consistent exactly when its
accepted mutations spared them, while versions evolve and never change, whatever was offered
(`Registry.lawful_iff_spares`).
-/

namespace AbsoluteZero.Plugins

open Foundations OrderedDict Checked List Option

namespace Content

variable {working next : Content}

/-! ### Providers -/

def putProvider (working : Content) (record : ProviderRecord) : Content :=
  { working with providers := working.providers.insert record.id record }

theorem get?_putProvider (record : ProviderRecord) (id : String) :
    (working.putProvider record).providers.get? id =
      if record.id = id then some record else working.providers.get? id :=
  get?_insert ..

theorem Consistent.putProvider (hworking : working.Consistent) (record : ProviderRecord)
    (hbound : ∀ capabilityId binding,
      working.bindings.get? (capabilityId, record.id) = some binding →
      record.lifecycle ≠ .retired ∧ ∀ existing, working.providers.get? record.id = some existing →
        record.declaredConstraints = existing.declaredConstraints) :
    (working.putProvider record).Consistent :=
  { hworking with
    providers_named := OrderedDict.KeyedBy.insert hworking.providers_named record
    bindings := by
      intro capabilityId providerId binding hbinding
      obtain ⟨hcapabilityId, hproviderId, capability, provider, hcapability, hmatchable, hprovider,
        hlive, hagree⟩ := hworking.bindings capabilityId providerId binding hbinding
      refine ⟨hcapabilityId, hproviderId, ?_⟩
      by_cases heq : record.id = providerId
      · subst heq
        obtain ⟨hlive', hconstraints⟩ := hbound capabilityId binding hbinding
        exact ⟨capability, record, hcapability, hmatchable, get?_insert_self .., hlive',
          hconstraints provider hprovider ▸ hagree⟩
      · refine ⟨capability, provider, hcapability, hmatchable, ?_, hlive, hagree⟩
        rw [get?_putProvider, if_neg heq, hprovider] }

/-- Consistent content stays so when bindings are dropped. -/
theorem Consistent.dropBindings (hworking : working.Consistent)
    {bindings : OrderedDict (String × String) BindingRecord}
    (hbindings : ∀ key binding, bindings.get? key = some binding →
      working.bindings.get? key = some binding) : Consistent { working with bindings } :=
  { hworking with
    bindings := fun capabilityId providerId binding hbinding ↦
      hworking.bindings capabilityId providerId binding (hbindings _ _ hbinding) }

theorem addProvider_ok {record : ProviderRecord} (hnext : working.addProvider record = .ok next) :
    working.providers.get? record.id = none ∧ next = working.putProvider record := by
  unfold addProvider at hnext
  cases hexisting : working.providers.get? record.id with
  | some existing =>
    simp only [hexisting] at hnext
    split at hnext <;> cases hnext
  | none =>
    simp only [hexisting] at hnext
    exact ⟨rfl, (Except.ok.inj hnext).symm⟩

theorem Consistent.addProvider {record : ProviderRecord} (hworking : working.Consistent)
    (hnext : working.addProvider record = .ok next) : next.Consistent := by
  obtain ⟨hnew, rfl⟩ := addProvider_ok hnext
  refine hworking.putProvider record fun capabilityId binding hbinding ↦ ?_
  obtain ⟨-, -, -, provider, -, -, hprovider, -⟩ :=
    hworking.bindings capabilityId record.id binding hbinding
  rw [hnew] at hprovider
  cases hprovider

/-- The bindings that the retirement of a provider leaves are those of other providers. -/
theorem get?_retireBindings (bindings : OrderedDict (String × String) BindingRecord) (id : String)
    {key : String × String} {binding : BindingRecord} :
    ((bindings.keys.filter fun key ↦ key.2 = id).foldl OrderedDict.erase bindings).get? key =
      some binding ↔ bindings.get? key = some binding ∧ key.2 ≠ id := by
  rw [get?_eq_some_iff, get?_eq_some_iff, items_foldl_erase, mem_filter, and_congr_right_iff]
  intro hitem
  have hkey : key ∈ bindings.keys := mem_map.mpr ⟨_, hitem, rfl⟩
  simp [hkey]

variable {id toState : String}

/-- What an accepted transition of a provider finds and writes. -/
theorem transitionProvider_ok (hnext : working.transitionProvider id toState = .ok next) :
    ∃ existing lifecycle, working.providers.get? id = some existing ∧
      existing.lifecycle.order < lifecycle.order ∧ next = { working with
        providers := working.providers.insert id { existing with lifecycle }
        bindings :=
          if lifecycle = .retired then
            (working.bindings.keys.filter fun key ↦ key.2 = id).foldl OrderedDict.erase
              working.bindings
          else working.bindings } := by
  unfold transitionProvider at hnext
  cases hexisting : working.providers.get? id with
  | none =>
    simp only [hexisting] at hnext
    cases hnext
  | some existing =>
    cases hcheck : checkForward existing.lifecycle toState id with
    | error refusal =>
      simp only [hexisting, hcheck] at hnext
      cases hnext
    | ok lifecycle =>
      simp only [hexisting, hcheck] at hnext
      exact ⟨existing, lifecycle, rfl, (checkForward_ok hcheck).2, (Except.ok.inj hnext).symm⟩

theorem Consistent.transitionProvider (hworking : working.Consistent)
    (hnext : working.transitionProvider id toState = .ok next) : next.Consistent := by
  obtain ⟨existing, lifecycle, hexisting, -, rfl⟩ := transitionProvider_ok hnext
  have hid : existing.id = id := hworking.providers_named id existing hexisting
  subst hid
  by_cases hretired : lifecycle = .retired
  · -- the bindings go first, so that nothing is bound to the provider when it retires
    rw [if_pos hretired]
    have hdropped := hworking.dropBindings fun key binding hbinding ↦
      ((get?_retireBindings working.bindings existing.id).mp hbinding).1
    refine hdropped.putProvider { existing with lifecycle } fun capabilityId binding hbinding ↦ ?_
    exact absurd rfl ((get?_retireBindings working.bindings existing.id).mp hbinding).2
  · rw [if_neg hretired]
    refine hworking.putProvider { existing with lifecycle } fun capabilityId binding _ ↦
      ⟨hretired, fun other hother ↦ ?_⟩
    rw [hexisting] at hother
    cases hother
    rfl

theorem evolves_transitionProvider
    (hnext : working.transitionProvider id toState = .ok next) : working.Evolves next := by
  obtain ⟨existing, lifecycle, hexisting, horder, rfl⟩ := transitionProvider_ok hnext
  refine ⟨fun _ capability hcapability ↦ ⟨capability, hcapability, Nat.le_refl _⟩, ?_⟩
  intro other provider hprovider
  by_cases heq : id = other
  · subst heq
    rw [hexisting] at hprovider
    cases hprovider
    exact ⟨{ existing with lifecycle }, get?_insert_self .., Nat.le_of_lt horder⟩
  · refine ⟨provider, ?_, Nat.le_refl _⟩
    rw [get?_insert, if_neg heq, hprovider]

variable {record : BindingRecord}

/-- What an accepted `add_binding` finds and writes. -/
theorem addBinding_ok (hnext : working.addBinding record = .ok next) :
    ∃ canonical capability provider, working.capabilities.get? canonical = some capability ∧
      capability.lifecycle.matchable = true ∧
      working.providers.get? record.providerId = some provider ∧
      Agree capability.constraints provider.declaredConstraints ∧ next = { working with
        bindings := working.bindings.insert (canonical, record.providerId)
          { record with capabilityId := canonical } } := by
  unfold addBinding at hnext
  cases hresolve : working.resolve record.capabilityId with
  | none =>
    simp only [hresolve] at hnext
    cases hnext
  | some canonical =>
    cases hcapability : working.capabilities.get? canonical with
    | none =>
      simp only [hresolve, hcapability] at hnext
      cases hnext
    | some capability =>
      simp only [hresolve, hcapability] at hnext
      obtain ⟨hmatchable, hnext⟩ := Checked.unless_eq_ok_iff.mp hnext
      cases hprovider : working.providers.get? record.providerId with
      | none =>
        simp only [hprovider] at hnext
        cases hnext
      | some provider =>
        simp only [hprovider] at hnext
        obtain ⟨hcompatible, hnext⟩ := Checked.when_eq_ok_iff.mp hnext
        exact ⟨canonical, capability, provider, hcapability,
          by simpa using hmatchable, rfl,
          constraintsCompatible_iff.mp hcompatible, (Except.ok.inj hnext).symm⟩

def Unretired (providers : OrderedDict String ProviderRecord) (providerId : String) : Prop :=
  ∀ provider, providers.get? providerId = some provider → provider.lifecycle ≠ .retired

theorem Consistent.addBinding_iff (hworking : working.Consistent)
    (hnext : working.addBinding record = .ok next) :
    next.Consistent ↔ Unretired working.providers record.providerId := by
  obtain ⟨canonical, capability, provider, hcapability, hmatchable, hprovider, hagree, rfl⟩ :=
    addBinding_ok hnext
  constructor
  · intro hconsistent other hother
    obtain ⟨-, -, -, bound, -, -, hbound, hlive, -⟩ :=
      hconsistent.bindings canonical record.providerId _ (get?_insert_self ..)
    rw [hother] at hbound
    cases hbound
    exact hlive
  · intro hlive
    refine { hworking with bindings := ?_ }
    intro capabilityId providerId binding hbinding
    rw [get?_insert] at hbinding
    split at hbinding
    · next heq =>
      cases heq
      cases hbinding
      exact ⟨rfl, rfl, capability, provider, hcapability, hmatchable, hprovider,
        hlive provider hprovider, hagree⟩
    · exact hworking.bindings capabilityId providerId binding hbinding

/-- What an accepted `remove_binding` writes. -/
theorem removeBinding_ok {capabilityId providerId : String}
    (hnext : working.removeBinding capabilityId providerId = .ok next) :
    ∃ canonical, next = { working with
      bindings := working.bindings.erase (canonical, providerId) } := by
  unfold removeBinding at hnext
  cases hresolve : working.resolve capabilityId with
  | none =>
    simp only [hresolve] at hnext
    cases hnext
  | some canonical =>
    simp only [hresolve] at hnext
    split at hnext
    · cases hnext
    · exact ⟨canonical, (Except.ok.inj hnext).symm⟩

theorem Consistent.removeBinding {capabilityId providerId : String} (hworking : working.Consistent)
    (hnext : working.removeBinding capabilityId providerId = .ok next) : next.Consistent := by
  obtain ⟨canonical, rfl⟩ := removeBinding_ok hnext
  refine hworking.dropBindings fun key binding hbinding ↦ ?_
  rw [get?_erase] at hbinding
  split at hbinding
  · cases hbinding
  · exact hbinding

/-- What an accepted `add_relationship` finds and writes. -/
theorem addRelationship_ok {record : RelationshipEdge}
    (hnext : working.addRelationship record = .ok next) :
    (∃ source, working.resolve record.src = some source) ∧
      (∃ target, working.resolve record.dst = some target) ∧
      next = { working with relationships := working.relationships ++ [record] } := by
  unfold addRelationship at hnext
  split at hnext
  · cases hnext
  · next hsource =>
    split at hnext
    · cases hnext
    · next htarget =>
      exact ⟨isSome_iff_exists.mp (by simpa [isSome_iff_ne_none] using hsource),
        isSome_iff_exists.mp (by simpa [isSome_iff_ne_none] using htarget),
        (Except.ok.inj hnext).symm⟩

theorem Consistent.addRelationship {record : RelationshipEdge} (hworking : working.Consistent)
    (hnext : working.addRelationship record = .ok next) : next.Consistent := by
  obtain ⟨⟨source, hsource⟩, ⟨target, htarget⟩, rfl⟩ := addRelationship_ok hnext
  refine { hworking with endpoints := fun edge hedge ↦ ?_ }
  rcases mem_append.mp hedge with hold | hlast
  · exact hworking.endpoints edge hold
  · rw [mem_singleton.mp hlast]
    obtain ⟨first, -, hfirst⟩ := hworking.exists_getCapability hsource
    obtain ⟨second, -, hsecond⟩ := hworking.exists_getCapability htarget
    exact ⟨⟨first, hfirst⟩, second, hsecond⟩

/-! ### Bundles -/

/-- What the parts of a bundle never take away. -/
structure Keeps (later earlier : Content) : Prop where
  capabilities : ∀ id record, earlier.capabilities.get? id = some record →
    later.capabilities.get? id = some record
  aliases : ∀ name target, earlier.aliases.get? name = some target →
    later.aliases.get? name = some target
  providers : ∀ id record, earlier.providers.get? id = some record →
    later.providers.get? id = some record
  bindings : ∀ key, (earlier.bindings.get? key).isSome → (later.bindings.get? key).isSome

theorem Keeps.refl (content : Content) : content.Keeps content :=
  ⟨fun _ _ h ↦ h, fun _ _ h ↦ h, fun _ _ h ↦ h, fun _ h ↦ h⟩

theorem Keeps.trans {third : Content} (hlater : third.Keeps next) (hearlier : next.Keeps working) :
    third.Keeps working where
  capabilities := fun id record h ↦
    hlater.capabilities id record (hearlier.capabilities id record h)
  aliases := fun name target h ↦ hlater.aliases name target (hearlier.aliases name target h)
  providers := fun id record h ↦ hlater.providers id record (hearlier.providers id record h)
  bindings := fun key h ↦ hlater.bindings key (hearlier.bindings key h)

theorem keeps_addCapability {record : CapabilityRecord}
    (hnext : working.addCapability record = .ok next) : next.Keeps working := by
  obtain ⟨hnew, -, hfree, rfl⟩ := addCapability_ok hnext
  refine ⟨fun id other hother ↦ ?_, fun name target htarget ↦ ?_, fun _ _ h ↦ h, fun _ h ↦ h⟩
  · change (working.putCapability record).capabilities.get? id = some other
    rw [get?_putCapability, if_neg, hother]
    rintro rfl
    rw [hnew] at hother
    cases hother
  · rw [get?_putAliases, if_neg]
    · exact htarget
    · intro hname
      rw [(hfree name hname).2] at htarget
      cases htarget

theorem keeps_addProvider {record : ProviderRecord}
    (hnext : working.addProvider record = .ok next) : next.Keeps working := by
  obtain ⟨hnew, rfl⟩ := addProvider_ok hnext
  refine ⟨fun _ _ h ↦ h, fun _ _ h ↦ h, fun id other hother ↦ ?_, fun _ h ↦ h⟩
  rw [get?_putProvider, if_neg, hother]
  rintro rfl
  rw [hnew] at hother
  cases hother

theorem keeps_addBinding (hnext : working.addBinding record = .ok next) : next.Keeps working := by
  obtain ⟨canonical, -, -, -, -, -, -, rfl⟩ := addBinding_ok hnext
  refine ⟨fun _ _ h ↦ h, fun _ _ h ↦ h, fun _ _ h ↦ h, fun key hkey ↦ ?_⟩
  rw [get?_insert]
  split
  · rfl
  · exact hkey

theorem keeps_addRelationship {record : RelationshipEdge}
    (hnext : working.addRelationship record = .ok next) : next.Keeps working := by
  obtain ⟨-, -, rfl⟩ := addRelationship_ok hnext
  exact ⟨fun _ _ h ↦ h, fun _ _ h ↦ h, fun _ _ h ↦ h, fun _ h ↦ h⟩

/-- Assumes: every step keeps what it finds. So does a fold of it. -/
theorem keeps_foldlM {Part : Type} {step : Content → Part → Except Refusal Content}
    {parts : List Part} {start last : Content}
    (hstep : ∀ {state part next}, step state part = .ok next → next.Keeps state)
    (hlast : parts.foldlM step start = .ok last) : last.Keeps start := by
  refine foldlM_invariant (fun state ↦ state.Keeps start) ?_ (.refl start) hlast
  exact fun state part next _ hstate hnext ↦ (hstep hnext).trans hstate

variable {bundle : Bundle}

/-- What an accepted bundle passes through. -/
theorem admitBundle_ok (hnext : working.admitBundle bundle = .ok next) :
    ∃ described provided bound, bundle.capabilities.foldlM addCapability working = .ok described ∧
      described.addProvider bundle.provider = .ok provided ∧
      bundle.bindings.foldlM addBinding provided = .ok bound ∧
      bundle.relationships.foldlM addRelationship bound = .ok next := by
  obtain ⟨described, hdescribed, hnext⟩ := bind_eq_ok_iff.mp hnext
  obtain ⟨provided, hprovided, hnext⟩ := bind_eq_ok_iff.mp hnext
  obtain ⟨bound, hbound, hnext⟩ := bind_eq_ok_iff.mp hnext
  exact ⟨described, provided, bound, hdescribed, hprovided, hbound, hnext⟩

/-- No capability of the bundle is retired and has aliases, and no binding of it is to a provider
that is retired, be it registered before or the bundle's own. -/
def SparesBundle (content : Content) (bundle : Bundle) : Prop :=
  (∀ record ∈ bundle.capabilities, record.lifecycle = .retired → record.aliases = []) ∧
    ∀ record ∈ bundle.bindings,
      Unretired (content.providers.insert bundle.provider.id bundle.provider) record.providerId

theorem providers_addCapability {record : CapabilityRecord}
    (hnext : working.addCapability record = .ok next) : next.providers = working.providers := by
  obtain ⟨-, -, -, rfl⟩ := addCapability_ok hnext
  rfl

theorem providers_addBinding
    (hnext : working.addBinding record = .ok next) : next.providers = working.providers := by
  obtain ⟨-, -, -, -, -, -, -, rfl⟩ := addBinding_ok hnext
  rfl

theorem providers_foldlM {Part : Type} {step : Content → Part → Except Refusal Content}
    {parts : List Part} {start last : Content}
    (hstep : ∀ {state part next}, step state part = .ok next → next.providers = state.providers)
    (hlast : parts.foldlM step start = .ok last) : last.providers = start.providers := by
  refine foldlM_invariant (fun state ↦ state.providers = start.providers) ?_ rfl hlast
  exact fun state part next _ hstate hnext ↦ (hstep hnext).trans hstate

theorem Consistent.admitBundle_iff (hworking : working.Consistent)
    (hnext : working.admitBundle bundle = .ok next) :
    next.Consistent ↔ working.SparesBundle bundle := by
  obtain ⟨described, provided, bound, hdescribed, hprovided, hbound, hrelated⟩ :=
    admitBundle_ok hnext
  have hproviders : provided.providers =
      working.providers.insert bundle.provider.id bundle.provider := by
    obtain ⟨-, rfl⟩ := addProvider_ok hprovided
    change described.providers.insert _ _ = _
    rw [providers_foldlM providers_addCapability hdescribed]
  have hrelatedKeeps : next.Keeps bound := keeps_foldlM keeps_addRelationship hrelated
  constructor
  · intro hconsistent
    constructor
    · -- what was written for a capability is still there at the end
      intro record hrecord hretired
      obtain ⟨before, after, -, later, -, -, hstep, hlater⟩ :=
        exists_step_of_mem hrecord hdescribed
      have hkeeps : next.Keeps after := hrelatedKeeps.trans
        ((keeps_foldlM keeps_addBinding hbound).trans
          ((keeps_addProvider hprovided).trans (keeps_foldlM keeps_addCapability hlater)))
      obtain ⟨-, -, -, rfl⟩ := addCapability_ok hstep
      by_contra hsome
      obtain ⟨name, hname⟩ := exists_mem_of_ne_nil _ hsome
      have hcapability := hkeeps.capabilities record.id record (get?_insert_self ..)
      obtain ⟨capability, hfound, hlive⟩ := hconsistent.aliases name record.id
        (hkeeps.aliases name record.id (by rw [get?_putAliases, if_pos hname]))
      rw [hcapability] at hfound
      cases hfound
      exact hlive hretired
    · intro record hrecord provider hprovider
      obtain ⟨before, after, earlier, later, -, hearlier, hstep, hlater⟩ :=
        exists_step_of_mem hrecord hbound
      have hkeeps : next.Keeps after :=
        hrelatedKeeps.trans (keeps_foldlM keeps_addBinding hlater)
      have hsame : after.providers = provided.providers :=
        (providers_addBinding hstep).trans (providers_foldlM providers_addBinding hearlier)
      rw [← hproviders, ← hsame] at hprovider
      obtain ⟨canonical, -, -, -, -, -, -, rfl⟩ := addBinding_ok hstep
      obtain ⟨binding, hbinding⟩ := isSome_iff_exists.mp
        (hkeeps.bindings (canonical, record.providerId) (by
          rw [get?_insert_self]
          rfl))
      obtain ⟨-, -, -, other, -, -, hother, hlive, -⟩ :=
        hconsistent.bindings canonical record.providerId binding hbinding
      rw [hkeeps.providers record.providerId provider hprovider] at hother
      cases hother
      exact hlive
  · rintro ⟨hcapabilities, hbindings⟩
    have hdescribed' : described.Consistent := by
      refine foldlM_invariant Consistent ?_ hworking hdescribed
      exact fun state record after hrecord hstate hstep ↦
        (hstate.addCapability_iff hstep).mpr (hcapabilities record hrecord)
    have hbound' : bound.Consistent ∧ bound.providers = provided.providers := by
      refine foldlM_invariant
        (fun state ↦ state.Consistent ∧ state.providers = provided.providers) ?_
        ⟨hdescribed'.addProvider hprovided, rfl⟩ hbound
      rintro state record after hrecord ⟨hstate, hsame⟩ hstep
      refine ⟨(hstate.addBinding_iff hstep).mpr ?_, (providers_addBinding hstep).trans hsame⟩
      rw [hsame, hproviders]
      exact hbindings record hrecord
    refine foldlM_invariant Consistent ?_ hbound'.1 hrelated
    exact fun state record after _ hstate hstep ↦ hstate.addRelationship hstep

theorem evolves_of_keeps (hkeeps : next.Keeps working) : working.Evolves next where
  capabilities := fun id record hrecord ↦
    ⟨record, hkeeps.capabilities id record hrecord, Nat.le_refl _⟩
  providers := fun id record hrecord ↦ ⟨record, hkeeps.providers id record hrecord, Nat.le_refl _⟩

theorem evolves_admitBundle (hnext : working.admitBundle bundle = .ok next) :
    working.Evolves next := by
  obtain ⟨described, provided, bound, hdescribed, hprovided, hbound, hrelated⟩ :=
    admitBundle_ok hnext
  exact evolves_of_keeps ((keeps_foldlM keeps_addRelationship hrelated).trans
    ((keeps_foldlM keeps_addBinding hbound).trans
      ((keeps_addProvider hprovided).trans (keeps_foldlM keeps_addCapability hdescribed))))

/-- The mutation leaves alone what was admitted earlier and is itself in order: a capability that is
added retired has no aliases, the constraints of an updated one agree with those of the providers
bound to it, a retiring one is bound to none, and no binding is to a retired provider. -/
def Spares (content : Content) : Mutation → Prop
  | .addCapability record => record.lifecycle = .retired → record.aliases = []
  | .updateCapability record => ∀ providerId binding,
    content.bindings.get? (record.id, providerId) = some binding →
    ∀ provider, content.providers.get? providerId = some provider →
      constraintsCompatible record.constraints provider.declaredConstraints = true
  | .addBinding record => Unretired content.providers record.providerId
  | .lifecycleTransition entity id toState => entity = "capability" → toState = "retired" →
    ∀ providerId, content.bindings.get? (id, providerId) = none
  | .admitBundle bundle => content.SparesBundle bundle
  | .addProvider _ | .removeBinding _ _ | .addRelationship _ | .unknown _ => True

theorem Consistent.handle_iff {mutation : Mutation} (hworking : working.Consistent)
    (hnext : working.handle mutation = .ok next) : next.Consistent ↔ working.Spares mutation := by
  cases mutation with
  | addCapability record => exact hworking.addCapability_iff hnext
  | updateCapability record => exact hworking.updateCapability_iff hnext
  | addProvider record => exact iff_of_true (hworking.addProvider hnext) trivial
  | addBinding record => exact hworking.addBinding_iff hnext
  | removeBinding capabilityId providerId =>
    exact iff_of_true (hworking.removeBinding hnext) trivial
  | addRelationship record => exact iff_of_true (hworking.addRelationship hnext) trivial
  | lifecycleTransition entity id toState =>
    change (if _ then _ else if _ then _ else _) = _ at hnext
    split at hnext
    · next hentity =>
      refine (hworking.transitionCapability_iff hnext).trans ?_
      exact ⟨fun h _ ↦ h, fun h ↦ h hentity⟩
    · next hentity =>
      split at hnext
      · exact iff_of_true (hworking.transitionProvider hnext)
          fun hcapability ↦ absurd hcapability hentity
      · cases hnext
  | admitBundle bundle => exact hworking.admitBundle_iff hnext
  | unknown kind => cases kind <;> cases hnext

theorem evolves_handle {mutation : Mutation} (hnext : working.handle mutation = .ok next) :
    working.Evolves next := by
  cases mutation with
  | addCapability record => exact evolves_of_keeps (keeps_addCapability hnext)
  | updateCapability record => exact evolves_updateCapability hnext
  | addProvider record => exact evolves_of_keeps (keeps_addProvider hnext)
  | addBinding record => exact evolves_of_keeps (keeps_addBinding hnext)
  | removeBinding capabilityId providerId =>
    obtain ⟨canonical, rfl⟩ := removeBinding_ok hnext
    exact ⟨(Evolves.refl working).capabilities, (Evolves.refl working).providers⟩
  | addRelationship record => exact evolves_of_keeps (keeps_addRelationship hnext)
  | lifecycleTransition entity id toState =>
    change (if _ then _ else if _ then _ else _) = _ at hnext
    split at hnext
    · exact evolves_transitionCapability hnext
    · split at hnext
      · exact evolves_transitionProvider hnext
      · cases hnext
  | admitBundle bundle => exact evolves_admitBundle hnext
  | unknown kind => cases kind <;> cases hnext

end Content

namespace Registry

/-- Every accepted mutation of the sequence spares the version it is offered to. -/
def SparedBy (mutations : List Mutation) : Prop :=
  Versioned.Admits (fun content mutation ↦ ∀ next, content.handle mutation = .ok next →
    content.Spares mutation) Content.handle (Versioned.fresh Content.empty) mutations

section

variable (mutations : List Mutation)

theorem all_consistent_iff :
    (after mutations).All Content.Consistent ↔ SparedBy mutations :=
  Versioned.All.offer_iff (fun _ _ _ hworking hnext ↦ Content.Consistent.handle_iff hworking hnext)
    (.fresh Content.consistent_empty)

theorem ordered_after : (after mutations).Ordered Content.Evolves := by
  refine Versioned.Ordered.offer (fun _ _ _ hfirst hsecond ↦ hfirst.trans hsecond)
    Content.Evolves.refl (fun _ _ _ _ _ hnext ↦ ⟨trivial, Content.evolves_handle hnext⟩)
    (.fresh trivial) (.fresh _ _) (Versioned.admits_true _ _ _)

/-- After every sequence of mutations, accepted or refused: every version is consistent exactly when
the accepted ones spared what they met. In any case later versions evolve earlier ones, the versions
are those from 0 to the number of accepted mutations, each the same after whatever is offered next,
and a refused mutation leaves the registry as it was. -/
theorem lawful_iff_spares :
    ((∀ number content, (after mutations).atVersion number = some content → content.Consistent) ∧
      (∀ first second earlier later, first ≤ second →
        (after mutations).atVersion first = some earlier →
        (after mutations).atVersion second = some later → earlier.Evolves later) ∧
      (after mutations).version =
        Versioned.accepted Content.handle (Versioned.fresh Content.empty) mutations ∧
      (∀ number, (∃ content, (after mutations).atVersion number = some content) ↔
        0 ≤ number ∧ number ≤ (after mutations).version) ∧
      (∀ number content, (after mutations).atVersion number = some content →
        ∀ later, (after (mutations ++ later)).atVersion number = some content) ∧
      (∀ mutation refusal, ((after mutations).apply Content.handle mutation).2 = .error refusal →
        ((after mutations).apply Content.handle mutation).1 = after mutations)) ↔
      SparedBy mutations := by
  rw [← all_consistent_iff]
  constructor
  · exact fun hlawful ↦ Versioned.all_of_atVersion hlawful.1
  · intro hall
    refine ⟨fun number content hcontent ↦ hall.atVersion hcontent, ?_,
      Versioned.lawful_offer rfl⟩
    intro first second earlier later hle hearlier hlater
    exact (ordered_after mutations).atVersion Content.Evolves.refl hle hearlier hlater

end

/-- An active capability, a provider, a binding between them, and the retirement of the
capability. -/
def boundRetirement : List Mutation :=
  [.addCapability ⟨"cap.a", "does a", "nlp", [], .active, [], ["output non-empty"], .empty, 1, none,
      List.cons_ne_nil _ _⟩,
    .addProvider ⟨"prov.x", "1.0.0", .empty, .empty, .active⟩,
    .addBinding ⟨"cap.a", "prov.x", .empty⟩,
    .lifecycleTransition "capability" "cap.a" "retired"]

/-- The last version of that history keeps a binding to the retired capability. -/
theorem not_consistent_boundRetirement :
    ¬ ∀ number content, (after boundRetirement).atVersion number = some content →
      content.Consistent := by
  intro hall
  have hconsistent := hall _ _ (after boundRetirement).atVersion_current
  have hbound : ((after boundRetirement).current.bindings.get? ("cap.a", "prov.x")).isSome := by
    decide +kernel
  have hretired : ((after boundRetirement).current.capabilities.get? "cap.a").map
      CapabilityRecord.lifecycle = some .retired := by
    decide +kernel
  obtain ⟨binding, hbinding⟩ := isSome_iff_exists.mp hbound
  obtain ⟨-, -, capability, -, hcapability, hmatchable, -⟩ :=
    hconsistent.bindings "cap.a" "prov.x" binding hbinding
  rw [hcapability, map_some] at hretired
  rw [Option.some.inj hretired] at hmatchable
  cases hmatchable

end Registry

end AbsoluteZero.Plugins

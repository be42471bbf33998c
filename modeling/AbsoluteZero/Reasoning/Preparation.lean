import AbsoluteZero.Foundations.Checked
import AbsoluteZero.Reasoning.Request

/-!
# What a preparation depends on

The request of a preparation is determined by the sealed inputs alone. The resolved row is an
eligible candidate that no eligible one precedes, whatever the order of the rows as long as every
provider has one, and every other candidate is recorded with its reasons (`prepare_independent`).
-/

namespace AbsoluteZero.Reasoning

open Foundations Checked

variable {platform : Platform} {inputs : PrepareInputs} {rows rows' : List DescriptorRow}

/-- What a preparation fixes before it looks at the rows, and what it reads afterwards from the
registry and the decision. -/
structure Determined (platform : Platform) (inputs : PrepareInputs)
    (request : ReasoningRequest) : Prop where
  exists_parts : ∃ rqmHash reduced envelope target schema scope,
    checkFreshness platform inputs.rqm inputs.rqmStale inputs.expectedRqmHash = .ok rqmHash ∧
    selectAndReduce platform inputs.rqm inputs.capabilityRecord inputs.relevanceThreshold =
      .ok reduced ∧
    allocateBudget platform inputs.budgetCeiling inputs.budgetSourcePolicyVersion
      inputs.parentBudget inputs.alreadyAllocatedFromParent = .ok envelope ∧
    approvedTarget inputs.decisionRecord = .ok target ∧
    SchemaRegistry.require inputs.schemaRegistry inputs.schemaId inputs.schemaVersion =
      .ok schema ∧
    inputs.decisionRecord.approvedScope = some scope ∧
    request = preparedRequest platform inputs rqmHash reduced envelope target schema scope

theorem eq_ok_of_lift {Refusal Result : Type} {wrap : Refusal → PrepareError}
    {computation : Except Refusal Result} {result : Result}
    (hlift : lift wrap computation = .ok result) : computation = .ok result := by
  cases computation with
  | error refusal => cases hlift
  | ok value =>
    cases hlift
    rfl

theorem prepare_ok {request : ReasoningRequest} {resolution : ProviderResolution}
    (hprepared : prepare platform inputs rows = .ok (request, resolution)) :
    Determined platform inputs request ∧ ∃ selection,
      selectFor inputs.terms rows (request.capabilityId, request.requiredRung)
        (ReasoningRequest.contextBytes request.context) = .ok selection ∧
      resolution = resolutionOf platform inputs request selection := by
  unfold prepare at hprepared
  obtain ⟨-, hprepared⟩ := Checked.unless_eq_ok_iff.mp hprepared
  obtain ⟨-, hprepared⟩ := Checked.unless_eq_ok_iff.mp hprepared
  obtain ⟨rqmHash, hfresh, hprepared⟩ := bind_eq_ok_iff.mp hprepared
  obtain ⟨reduced, hreduced, hprepared⟩ := bind_eq_ok_iff.mp hprepared
  obtain ⟨envelope, hallocated, hprepared⟩ := bind_eq_ok_iff.mp hprepared
  obtain ⟨-, -, hprepared⟩ := bind_eq_ok_iff.mp hprepared
  obtain ⟨target, htarget, hprepared⟩ := bind_eq_ok_iff.mp hprepared
  obtain ⟨selection, hselected, hprepared⟩ := bind_eq_ok_iff.mp hprepared
  obtain ⟨schema, hschema, hprepared⟩ := bind_eq_ok_iff.mp hprepared
  split at hprepared
  · cases hprepared
  · next scope hscope =>
    cases hprepared
    exact ⟨⟨rqmHash, reduced, envelope, target, schema, scope, eq_ok_of_lift hfresh,
      eq_ok_of_lift hreduced, eq_ok_of_lift hallocated, htarget, eq_ok_of_lift hschema, hscope,
      rfl⟩, selection, eq_ok_of_lift hselected, rfl⟩

theorem Determined.unique {first second : ReasoningRequest}
    (hfirst : Determined platform inputs first) (hsecond : Determined platform inputs second) :
    first = second := by
  obtain ⟨_, _, _, _, _, _, hfresh, hreduced, hallocated, htarget, hschema, hscope, rfl⟩ :=
    hfirst.exists_parts
  obtain ⟨_, _, _, _, _, _, hfresh', hreduced', hallocated', htarget', hschema', hscope', rfl⟩ :=
    hsecond.exists_parts
  rw [Except.ok.inj (hfresh.symm.trans hfresh'), Except.ok.inj (hreduced.symm.trans hreduced'),
    Except.ok.inj (hallocated.symm.trans hallocated'), Except.ok.inj (htarget.symm.trans htarget'),
    Except.ok.inj (hschema.symm.trans hschema'), Option.some.inj (hscope.symm.trans hscope')]

def OneRowEach (rows : List DescriptorRow) : Prop :=
  ∀ row ∈ rows, ∀ other ∈ rows, row.providerId = other.providerId → row = other

theorem selectFor_perm {terms : SelectionTerms} {target : String × String} {contextBytes : Nat}
    (hperm : rows.Perm rows') (hrows : OneRowEach rows) :
    selectFor terms rows target contextBytes = selectFor terms rows' target contextBytes := by
  unfold selectFor
  rw [buildCandidateSet_perm hperm hrows]

/-- What the resolution of a request guarantees of the row it names, among the rows that claim the
capability at the rung. -/
structure Resolves (terms : SelectionTerms) (rows : List DescriptorRow)
    (request : ReasoningRequest) (resolution : ProviderResolution) (winner : DescriptorRow) :
    Prop where
  named : resolution.providerId = winner.providerId
  listed : winner ∈ rows
  claims : winner.claims request.capabilityId request.requiredRung = true
  eligible : winner.Eligible terms
    (deriveSizeClass (ReasoningRequest.contextBytes request.context))
  least : ∀ row ∈ rows, row.claims request.capabilityId request.requiredRung = true →
    row.Eligible terms (deriveSizeClass (ReasoningRequest.contextBytes request.context)) →
      rankKey terms winner ≤ rankKey terms row
  recorded : ∀ row ∈ rows, row.claims request.capabilityId request.requiredRung = true →
    ¬ row.Eligible terms (deriveSizeClass (ReasoningRequest.contextBytes request.context)) →
      (row.providerId, eligibilityReasons terms
        (deriveSizeClass (ReasoningRequest.contextBytes request.context)) row) ∈
          resolution.eligibilityExclusions

theorem exists_resolves {request : ReasoningRequest} {selection : Selection}
    (hselected : selectFor inputs.terms rows (request.capabilityId, request.requiredRung)
      (ReasoningRequest.contextBytes request.context) = .ok selection) :
    Resolves inputs.terms rows request (resolutionOf platform inputs request selection)
      selection.winner := by
  obtain ⟨candidates, hbuilt, hselected⟩ := bind_eq_ok_iff.mp hselected
  have hcandidates : ∀ row, row ∈ candidates ↔
      row ∈ rows ∧ row.claims request.capabilityId request.requiredRung = true :=
    fun _ ↦ mem_of_buildCandidateSet hbuilt
  obtain ⟨hwinner, heligible, hleast, hrecorded⟩ := selectProvider_spec hselected
  constructor
  · rfl
  · exact ((hcandidates _).mp hwinner).1
  · exact ((hcandidates _).mp hwinner).2
  · exact heligible
  · exact fun row hrow hclaims hpasses ↦ hleast row ((hcandidates row).mpr ⟨hrow, hclaims⟩) hpasses
  · intro row hrow hclaims hfails
    exact (hrecorded row ((hcandidates row).mpr ⟨hrow, hclaims⟩)).resolve_left hfails

/-- The rows can be listed in another order, as long as each provider has one. -/
theorem prepare_perm (hperm : rows.Perm rows') (hrows : OneRowEach rows) :
    prepare platform inputs rows = prepare platform inputs rows' := by
  simp only [prepare, selectFor_perm hperm hrows]

/-- The requests of two preparations of the same sealed inputs are identical. The whole results are,
refusals included, when the rows are a permutation of each other and each provider has one row. The
resolved row is the best of the eligible rows, with the others that claim the capability recorded or
outranked. -/
theorem prepare_independent (platform : Platform) (inputs : PrepareInputs) :
    (∀ rows rows' request request' resolution resolution',
      prepare platform inputs rows = .ok (request, resolution) →
        prepare platform inputs rows' = .ok (request', resolution') → request = request') ∧
    (∀ rows rows', rows.Perm rows' → OneRowEach rows →
      prepare platform inputs rows = prepare platform inputs rows') ∧
    ∀ rows request resolution, prepare platform inputs rows = .ok (request, resolution) →
      ∃ winner, Resolves inputs.terms rows request resolution winner := by
  refine ⟨fun rows rows' request request' resolution resolution' hfirst hsecond ↦ ?_,
    fun rows rows' hperm hrows ↦ prepare_perm hperm hrows,
    fun rows request resolution hprepared ↦ ?_⟩
  · exact (prepare_ok hfirst).1.unique (prepare_ok hsecond).1
  · obtain ⟨-, selection, hselected, rfl⟩ := prepare_ok hprepared
    exact ⟨selection.winner, exists_resolves hselected⟩

/-! ### A preparation -/

/-- A row that claims the capability `cap.a` at the rung `C1`. -/
def plainRow (providerId : String) (capacity : CapacityClass) (locality : DeploymentLocality) :
    DescriptorRow where
  providerId := providerId
  capabilitiesClaimed := ⟨[("cap.a", ⟨[.c1], by decide, by decide⟩)], by decide⟩
  contextCapacityClass := capacity
  costClass := .low
  latencyClass := .fast
  determinismClass := .lowVariance
  deploymentLocality := locality
  privacyDomain := .internal
  complianceTags := []
  reliability := ⟨.medium, none⟩
  requestForm := .promptText
  claims_nonempty := by decide

/-- A capability that demands no knowledge. -/
def plainCapability : CapabilityRecord where
  id := "cap.a"
  category := .interpretive
  characteristics := ⟨.moderate, .low, .medium, .low, .low, .c1, .low, .bounded⟩
  facets := []
  lifecycle := .active

/-- Sealed inputs with an empty memory: an approved decision, one schema and a local provider. -/
def plainInputs : PrepareInputs where
  decisionRecord := ⟨"REASONING_APPROVED", .empty, .empty, some "cap.a", some "C1",
    some ⟨.str "summarize", .str "single_demand", none⟩⟩
  rqm := .empty
  capabilityRecord := plainCapability
  descriptorSpaceVersion := 1
  policyVersion := 1
  priorsVersion := 1
  schemaRegistry := OrderedDict.empty.insert ("schema", 1) ["summary"]
  schemaId := "schema"
  schemaVersion := 1
  budgetCeiling := 100
  budgetSourcePolicyVersion := 1
  verificationExpectations := .obj []
  forbiddenBehaviors := []
  userPolicy := .null
  terms := ⟨.internal, [], some .local, []⟩
  relevanceThreshold := 0
  rqmStale := false
  expectedRqmHash := none
  parentBudget := none
  alreadyAllocatedFromParent := 0

def exclusionsFor (rows : List DescriptorRow) : Option (List (String × List String)) :=
  (prepare plainPlatform plainInputs rows).toOption.map fun pair ↦ pair.2.eligibilityExclusions

/-- An eligible row and one that is excluded, in both orders: the same request and resolution. -/
theorem prepare_independent_swapped : ∃ request resolution winner,
    prepare plainPlatform plainInputs
        [plainRow "prov.a" .large .remote, plainRow "prov.b" .large .local] =
      .ok (request, resolution) ∧
    prepare plainPlatform plainInputs
        [plainRow "prov.b" .large .local, plainRow "prov.a" .large .remote] =
      .ok (request, resolution) ∧
    Resolves plainInputs.terms [plainRow "prov.a" .large .remote, plainRow "prov.b" .large .local]
      request resolution winner := by
  have hexclusions : exclusionsFor
      [plainRow "prov.a" .large .remote, plainRow "prov.b" .large .local] =
        some [("prov.a", ["locality_mismatch"])] := by decide +kernel
  obtain ⟨⟨request, resolution⟩, hprepared, -⟩ := exists_of_toOption_map hexclusions
  obtain ⟨-, hsame, hresolves⟩ := prepare_independent plainPlatform plainInputs
  obtain ⟨winner, hwinner⟩ := hresolves _ _ _ hprepared
  refine ⟨request, resolution, winner, hprepared, ?_, hwinner⟩
  rw [← hprepared]
  refine hsame _ _ (.swap _ _ _) fun row hrow other hother hid ↦ ?_
  simp only [List.mem_cons, List.not_mem_nil, or_false] at hrow hother
  rcases hrow with rfl | rfl <;> rcases hother with rfl | rfl
  · rfl
  · exact absurd hid (by decide)
  · exact absurd hid (by decide)
  · rfl

/-- Two rows of one provider that fail a filter each. -/
def twiceListed : List DescriptorRow :=
  [plainRow "prov.a" .large .remote, { plainRow "prov.a" .large .local with
    privacyDomain := .publicDomain }]

/-- The exclusions of a provider with two rows stand in the order of the rows: permuted rows make
another resolution. -/
theorem prepare_depends_twiceListed : (twiceListed ++ [plainRow "prov.b" .large .local]).Perm
        (twiceListed.reverse ++ [plainRow "prov.b" .large .local]) ∧
    ∃ first second, prepare plainPlatform plainInputs (twiceListed ++
        [plainRow "prov.b" .large .local]) = .ok first ∧ prepare plainPlatform plainInputs
        (twiceListed.reverse ++ [plainRow "prov.b" .large .local]) = .ok second ∧
      first ≠ second := by
  have hfirst : exclusionsFor (twiceListed ++ [plainRow "prov.b" .large .local]) =
      some [("prov.a", ["locality_mismatch"]), ("prov.a", ["privacy_domain_insufficient"])] := by
    decide +kernel
  have hsecond : exclusionsFor (twiceListed.reverse ++ [plainRow "prov.b" .large .local]) =
      some [("prov.a", ["privacy_domain_insufficient"]), ("prov.a", ["locality_mismatch"])] := by
    decide +kernel
  obtain ⟨first, hprepared, hexclusions⟩ := exists_of_toOption_map hfirst
  obtain ⟨second, hprepared', hexclusions'⟩ := exists_of_toOption_map hsecond
  refine ⟨(List.reverse_perm twiceListed).symm.append_right _, first, second, hprepared,
    hprepared', ?_⟩
  rintro rfl
  exact absurd (hexclusions.symm.trans hexclusions') (by decide)

end AbsoluteZero.Reasoning

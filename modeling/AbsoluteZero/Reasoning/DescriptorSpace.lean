import AbsoluteZero.Foundations.Checked
import AbsoluteZero.Foundations.DepthFirst
import AbsoluteZero.Foundations.PythonValue
import AbsoluteZero.Foundations.SortedSet
import AbsoluteZero.Foundations.Versioned
import AbsoluteZero.Reasoning.Records
import Mathlib.Data.String.Basic

/-!
# The descriptor space

Capabilities, relationships and the rows with which providers claim them, changed by one admission
operation over eight kinds of mutations. A capability is never removed and its lifecycle only moves
forward (`Content.Evolves`), and the handlers keep the space well formed (`WellFormed.handle`,
`DescriptorSpace.lawful`).
-/

namespace AbsoluteZero.Reasoning

open Foundations Checked OrderedDict List

/-- The refusals of the admission, each with its class. -/
inductive RefusalKind
  | duplicateId
  | tombstoneReuse
  | lifecycleTransition
  | categoryFrozen
  | relationshipEndpoint
  | dependencyCycle
  | descriptorClaim
  | claimedCapabilityRetirement
  | notFound
  | unknownMutation

/-- `PermanentRefusal`: no resubmission under the same id succeeds. -/
def RefusalKind.permanent : RefusalKind → Bool
  | .tombstoneReuse => true
  | _ => false

structure Refusal where
  kind : RefusalKind
  message : String

/-- What one version of the space holds. -/
structure Content where
  capabilities : OrderedDict String CapabilityRecord
  relationships : List RelationshipRecord
  descriptorRows : OrderedDict String DescriptorRow

/-- The space before any mutation. -/
def Content.empty : Content := ⟨.empty, [], .empty⟩

/-- A mutation. A relationship to remove and a lifecycle state are named by text; the last
constructor is a mutation of no known kind, without a kind when it is none. -/
inductive Mutation
  | addCapability (record : CapabilityRecord)
  | updateCapability (record : CapabilityRecord)
  | transitionCapabilityLifecycle (id toState : String)
  | addRelationship (record : RelationshipRecord)
  | removeRelationship (relationshipKind src dst : String)
  | addDescriptorRow (record : DescriptorRow)
  | updateDescriptorRow (record : DescriptorRow)
  | removeDescriptorRow (providerId : String)
  | unknown (kind : Option String)

/-- The text of a relationship, as the refusals print it. -/
def tripleText (kind src dst : String) : String :=
  "(" ++ Json.quoted kind ++ ", " ++ Json.quoted src ++ ", " ++ Json.quoted dst ++ ")"

namespace Content

/-! ### Handlers -/

variable (working : Content)

def addCapability (record : CapabilityRecord) : Except Refusal Content :=
  match working.capabilities.get? record.id with
  | some existing =>
    if existing.lifecycle = .retired then
      .error ⟨.tombstoneReuse, "descriptor_space.tombstone_reuse:" ++ record.id⟩
    else .error ⟨.duplicateId, "descriptor_space.duplicate_id:" ++ record.id⟩
  | none => .ok { working with capabilities := working.capabilities.insert record.id record }

def updateCapability (record : CapabilityRecord) : Except Refusal Content :=
  match working.capabilities.get? record.id with
  | none => .error ⟨.notFound, "descriptor_space.capability_not_found:" ++ record.id⟩
  | some existing =>
    if existing.lifecycle = .retired then
      .error ⟨.tombstoneReuse, "descriptor_space.retired_capability_immutable:" ++ record.id⟩
    else if record.category ≠ existing.category then
      .error ⟨.categoryFrozen, "descriptor_space.category_change_needs_new_id:" ++ record.id⟩
    else if record.lifecycle ≠ existing.lifecycle then
      .error ⟨.lifecycleTransition,
        "descriptor_space.use_lifecycle_transition_mutation:" ++ record.id⟩
    else .ok { working with capabilities := working.capabilities.insert record.id record }

def claimants (id : String) : List String :=
  (SortedSet.ofList ((working.descriptorRows.items.filter fun item : String × DescriptorRow ↦
    (item.2.capabilitiesClaimed.get? id).isSome).map Prod.fst)).elements

def transitionCapabilityLifecycle (id toState : String) :
    Except Refusal Content :=
  match working.capabilities.get? id with
  | none => .error ⟨.notFound, "descriptor_space.capability_not_found:" ++ id⟩
  | some existing =>
    match existing.lifecycle.checkForward toState with
    | .error .unknownState =>
      .error ⟨.lifecycleTransition,
        "descriptor_space.unknown_lifecycle:" ++ id ++ ":" ++ toState⟩
    | .error .backwardOrSame =>
      .error ⟨.lifecycleTransition, "descriptor_space.backward_or_same_transition:" ++ id ++ ":" ++
        ClosedVocabulary.text existing.lifecycle ++ "->" ++ toState⟩
    | .ok lifecycle =>
      if lifecycle = .retired ∧ working.claimants id ≠ [] then
        .error ⟨.claimedCapabilityRetirement, "descriptor_space.retirement_while_claimed:" ++ id ++
          ":claimants=" ++ ",".intercalate (working.claimants id)⟩
      else
        .ok { working with
          capabilities := working.capabilities.insert id { existing with lifecycle } }

/-- The edges of the dependency relation, in the order in which they were added. -/
def dependencies : List (String × String) :=
  (working.relationships.filter fun record ↦ record.kind = .dependency).map fun record ↦
    (record.src, record.dst)

def addRelationship (record : RelationshipRecord) : Except Refusal Content :=
  if (working.capabilities.get? record.src).isNone then
    .error ⟨.relationshipEndpoint, "descriptor_space.dangling_relationship_endpoint:" ++ record.src⟩
  else if (working.capabilities.get? record.dst).isNone then
    .error ⟨.relationshipEndpoint, "descriptor_space.dangling_relationship_endpoint:" ++ record.dst⟩
  else if record ∈ working.relationships then
    .error ⟨.duplicateId, "descriptor_space.duplicate_relationship:" ++
      tripleText (ClosedVocabulary.text record.kind) record.src record.dst⟩
  else if record.kind = .dependency ∧
      DepthFirst.hasCycle (working.dependencies ++ [(record.src, record.dst)]) = true then
    .error ⟨.dependencyCycle,
      "descriptor_space.dependency_cycle:" ++ record.src ++ "->" ++ record.dst⟩
  else .ok { working with relationships := working.relationships ++ [record] }

/-- `_handle_remove_relationship`: the first relationship that the texts name. -/
def removeRelationship (relationshipKind src dst : String) :
    Except Refusal Content :=
  let named := fun record : RelationshipRecord ↦
    ClosedVocabulary.text record.kind = relationshipKind ∧ record.src = src ∧ record.dst = dst
  if ∃ record ∈ working.relationships, named record then
    .ok { working with relationships := working.relationships.eraseP fun record ↦ named record }
  else
    .error ⟨.notFound, "descriptor_space.relationship_not_found:" ++
      tripleText relationshipKind src dst⟩

/-- `_validate_claims`: the first claim of the row that does not resolve to a matchable
capability. -/
def claimDefect (row : DescriptorRow) : Option Refusal :=
  row.capabilitiesClaimed.keys.findSome? fun id ↦
    match working.capabilities.get? id with
    | none => some ⟨.descriptorClaim, "descriptor_space.claim_unknown_capability:" ++ id⟩
    | some capability =>
      if capability.lifecycle.matchable then none
      else
        some ⟨.descriptorClaim, "descriptor_space.claim_capability_not_matchable:" ++ id ++ ":" ++
          ClosedVocabulary.text capability.lifecycle⟩

/-- What the two handlers below end with: the claims are validated and the row is written. -/
def writeRow (row : DescriptorRow) : Except Refusal Content :=
  match working.claimDefect row with
  | some refusal => .error refusal
  | none => .ok { working with descriptorRows := working.descriptorRows.insert row.providerId row }

def addDescriptorRow (record : DescriptorRow) : Except Refusal Content :=
  if (working.descriptorRows.get? record.providerId).isSome then
    .error ⟨.duplicateId, "descriptor_space.duplicate_id:" ++ record.providerId⟩
  else working.writeRow record

def updateDescriptorRow (record : DescriptorRow) : Except Refusal Content :=
  if (working.descriptorRows.get? record.providerId).isNone then
    .error ⟨.notFound, "descriptor_space.descriptor_row_not_found:" ++ record.providerId⟩
  else working.writeRow record

def removeDescriptorRow (providerId : String) : Except Refusal Content :=
  if (working.descriptorRows.get? providerId).isNone then
    .error ⟨.notFound, "descriptor_space.descriptor_row_not_found:" ++ providerId⟩
  else .ok { working with descriptorRows := working.descriptorRows.erase providerId }

/-- `_validate`: the handler of the mutation's kind, run on the working copy. -/
def handle : Mutation → Except Refusal Content
  | .addCapability record => working.addCapability record
  | .updateCapability record => working.updateCapability record
  | .transitionCapabilityLifecycle id toState => working.transitionCapabilityLifecycle id toState
  | .addRelationship record => working.addRelationship record
  | .removeRelationship relationshipKind src dst =>
    working.removeRelationship relationshipKind src dst
  | .addDescriptorRow record => working.addDescriptorRow record
  | .updateDescriptorRow record => working.updateDescriptorRow record
  | .removeDescriptorRow providerId => working.removeDescriptorRow providerId
  | .unknown none => .error ⟨.unknownMutation, "descriptor_space.malformed_mutation"⟩
  | .unknown (some kind) =>
    .error ⟨.unknownMutation, "descriptor_space.unknown_mutation_kind:" ++ kind⟩

end Content

namespace Content

/-- A row claims only capabilities that are active or deprecated. -/
def Claimable (capabilities : OrderedDict String CapabilityRecord) (row : DescriptorRow) : Prop :=
  ∀ id ∈ row.capabilitiesClaimed.keys,
    ∃ capability, capabilities.get? id = some capability ∧ capability.lifecycle.matchable = true

/-- What every version of the space satisfies. -/
structure WellFormed (content : Content) : Prop where
  named : ∀ id record, content.capabilities.get? id = some record → record.id = id
  acyclic : DepthFirst.Acyclic content.dependencies
  endpoints : ∀ record ∈ content.relationships,
    (content.capabilities.get? record.src).isSome ∧ (content.capabilities.get? record.dst).isSome
  relationships_nodup : content.relationships.Nodup
  claims : ∀ provider row, content.descriptorRows.get? provider = some row →
    Claimable content.capabilities row

/-- How a later version stands to an earlier one: the capabilities are still there, of the same
category and not moved backwards, and the retired ones are as they were. -/
def Evolves (earlier later : Content) : Prop :=
  ∀ id record, earlier.capabilities.get? id = some record →
    ∃ record', later.capabilities.get? id = some record' ∧ record'.category = record.category ∧
      record.lifecycle.order ≤ record'.lifecycle.order ∧
      (record.lifecycle = .retired → record' = record)

theorem Evolves.refl (content : Content) : content.Evolves content :=
  fun _ record hrecord ↦ ⟨record, hrecord, rfl, Nat.le_refl _, fun _ ↦ rfl⟩

theorem Evolves.trans {first second third : Content} (hfirst : first.Evolves second)
    (hsecond : second.Evolves third) : first.Evolves third := by
  intro id record hrecord
  obtain ⟨record', hrecord', hcategory, horder, hretired⟩ := hfirst id record hrecord
  obtain ⟨last, hlast, hcategory', horder', hretired'⟩ := hsecond id record' hrecord'
  refine ⟨last, hlast, hcategory'.trans hcategory, horder.trans horder', fun hdone ↦ ?_⟩
  have hsame := hretired hdone
  subst hsame
  exact hretired' hdone

theorem Evolves.of_eq {earlier later : Content}
    (hcapabilities : later.capabilities = earlier.capabilities) : earlier.Evolves later :=
  fun _ record hrecord ↦
    ⟨record, hcapabilities ▸ hrecord, rfl, Nat.le_refl _, fun _ ↦ rfl⟩

theorem wellFormed_empty : empty.WellFormed where
  named := fun _ _ hrecord ↦ by cases hrecord
  acyclic := by
    rw [← DepthFirst.hasCycle_eq_false_iff]
    rfl
  endpoints := fun _ hrecord ↦ by cases hrecord
  relationships_nodup := nodup_nil
  claims := fun _ _ hrow ↦ by cases hrow

variable {working next : Content}

/-! ### Capabilities -/

variable {record : CapabilityRecord}

theorem isSome_insert {id other : String} (hother : (working.capabilities.get? other).isSome) :
    ((working.capabilities.insert id record).get? other).isSome := by
  rw [get?_insert]
  split
  · rfl
  · exact hother

theorem WellFormed.insertCapability (hworking : working.WellFormed) (record : CapabilityRecord)
    (hclaimed : ∀ provider row, working.descriptorRows.get? provider = some row →
      record.id ∈ row.capabilitiesClaimed.keys → record.lifecycle.matchable = true) : WellFormed
      { working with capabilities := working.capabilities.insert record.id record } :=
  { hworking with
    named := OrderedDict.KeyedBy.insert hworking.named record
    endpoints := fun relationship hrelationship ↦
      ⟨isSome_insert (hworking.endpoints relationship hrelationship).1,
        isSome_insert (hworking.endpoints relationship hrelationship).2⟩
    claims := by
      intro provider row hrow id hid
      obtain ⟨capability, hcapability, hmatchable⟩ := hworking.claims provider row hrow id hid
      by_cases heq : record.id = id
      · subst heq
        exact ⟨record, get?_insert_self .., hclaimed provider row hrow hid⟩
      · refine ⟨capability, ?_, hmatchable⟩
        rw [get?_insert, if_neg heq, hcapability] }

theorem Evolves.insertCapability (record : CapabilityRecord)
    (hreplaced : ∀ existing, working.capabilities.get? record.id = some existing →
      record.category = existing.category ∧ existing.lifecycle.order ≤ record.lifecycle.order ∧
        existing.lifecycle ≠ .retired) : working.Evolves
      { working with capabilities := working.capabilities.insert record.id record } := by
  intro id existing hexisting
  by_cases heq : record.id = id
  · subst heq
    obtain ⟨hcategory, horder, hlive⟩ := hreplaced existing hexisting
    exact ⟨record, get?_insert_self .., hcategory, horder,
      fun hretired ↦ absurd hretired hlive⟩
  · refine ⟨existing, ?_, rfl, Nat.le_refl _, fun _ ↦ rfl⟩
    rw [get?_insert, if_neg heq, hexisting]

theorem addCapability_lawful (hworking : working.WellFormed)
    (hnext : working.addCapability record = .ok next) : next.WellFormed ∧ working.Evolves next := by
  unfold addCapability at hnext
  cases hexisting : working.capabilities.get? record.id with
  | some existing =>
    simp only [hexisting] at hnext
    split at hnext <;> cases hnext
  | none =>
    simp only [hexisting] at hnext
    cases hnext
    constructor
    · refine hworking.insertCapability record fun provider row hrow hid ↦ ?_
      obtain ⟨capability, hcapability, -⟩ := hworking.claims provider row hrow record.id hid
      rw [hexisting] at hcapability
      cases hcapability
    · refine .insertCapability record fun existing hsome ↦ ?_
      rw [hexisting] at hsome
      cases hsome

theorem updateCapability_lawful (hworking : working.WellFormed)
    (hnext : working.updateCapability record = .ok next) :
    next.WellFormed ∧ working.Evolves next := by
  unfold updateCapability at hnext
  cases hexisting : working.capabilities.get? record.id with
  | none =>
    simp only [hexisting] at hnext
    cases hnext
  | some existing =>
    simp only [hexisting] at hnext
    obtain ⟨hlive, hnext⟩ := unless_eq_ok_iff.mp hnext
    obtain ⟨hcategory, hnext⟩ := unless_eq_ok_iff.mp hnext
    obtain ⟨hlifecycle, hnext⟩ := unless_eq_ok_iff.mp hnext
    cases hnext
    rw [not_not] at hcategory hlifecycle
    constructor
    · refine hworking.insertCapability record fun provider row hrow hid ↦ ?_
      obtain ⟨capability, hcapability, hmatchable⟩ :=
        hworking.claims provider row hrow record.id hid
      rw [hexisting] at hcapability
      cases hcapability
      rw [hlifecycle, hmatchable]
    · refine .insertCapability record fun other hother ↦ ?_
      rw [hexisting] at hother
      cases hother
      exact ⟨hcategory, Nat.le_of_eq (congrArg Lifecycle.order hlifecycle.symm), hlive⟩

variable {row : DescriptorRow}

theorem mem_claimants {id provider : String}
    (hrow : working.descriptorRows.get? provider = some row)
    (hid : id ∈ row.capabilitiesClaimed.keys) : provider ∈ working.claimants id := by
  refine SortedSet.mem_elements.mpr (SortedSet.mem_ofList.mpr (mem_map.mpr ?_))
  have hclaimed : (row.capabilitiesClaimed.get? id).isSome := by
    rw [Option.isSome_iff_ne_none, ne_eq, get?_eq_none_iff, not_not]
    exact hid
  exact ⟨(provider, row), mem_filter.mpr ⟨(get?_eq_some_iff _).mp hrow, hclaimed⟩, rfl⟩

theorem transitionCapabilityLifecycle_lawful {id toState : String} (hworking : working.WellFormed)
    (hnext : working.transitionCapabilityLifecycle id toState = .ok next) :
    next.WellFormed ∧ working.Evolves next := by
  unfold transitionCapabilityLifecycle at hnext
  cases hexisting : working.capabilities.get? id with
  | none =>
    simp only [hexisting] at hnext
    cases hnext
  | some existing =>
    cases hcheck : existing.lifecycle.checkForward toState with
    | error defect =>
      cases defect <;> (simp only [hexisting, hcheck] at hnext; cases hnext)
    | ok lifecycle =>
      obtain ⟨-, horder⟩ := Lifecycle.checkForward_eq_ok hcheck
      have hid : existing.id = id := hworking.named id existing hexisting
      subst hid
      simp only [hexisting, hcheck] at hnext
      obtain ⟨hunclaimed, hnext⟩ := unless_eq_ok_iff.mp hnext
      cases hnext
      constructor
      · refine hworking.insertCapability { existing with lifecycle }
          fun provider row hrow hclaimed ↦ ?_
        obtain ⟨capability, hcapability, hmatchable⟩ :=
          hworking.claims provider row hrow existing.id hclaimed
        rw [hexisting] at hcapability
        cases hcapability
        -- a claimed capability is not retired, so what lies ahead of it is deprecated
        refine Lifecycle.matchable_of_forward horder hmatchable fun hretired ↦ ?_
        have hclaimant := mem_claimants hrow hclaimed
        exact hunclaimed ⟨hretired, ne_nil_of_mem hclaimant⟩
      · refine .insertCapability { existing with lifecycle } fun other hother ↦ ?_
        rw [hexisting] at hother
        cases hother
        refine ⟨rfl, Nat.le_of_lt horder, fun hretired ↦ ?_⟩
        rw [hretired] at horder
        exact Lifecycle.not_forward_of_retired horder

theorem addRelationship_lawful {record : RelationshipRecord} (hworking : working.WellFormed)
    (hnext : working.addRelationship record = .ok next) :
    next.WellFormed ∧ working.Evolves next := by
  obtain ⟨hsource, hnext⟩ := unless_eq_ok_iff.mp hnext
  obtain ⟨htarget, hnext⟩ := unless_eq_ok_iff.mp hnext
  obtain ⟨hnew, hnext⟩ := unless_eq_ok_iff.mp hnext
  obtain ⟨hcycle, hnext⟩ := unless_eq_ok_iff.mp hnext
  cases hnext
  refine ⟨⟨hworking.named, ?_, ?_, ?_, hworking.claims⟩, .of_eq rfl⟩
  · -- an edge of another kind leaves the dependencies as they were
    unfold dependencies
    rw [filter_append, map_append]
    by_cases hkind : record.kind = .dependency
    · rw [filter_cons_of_pos (by simpa using hkind)]
      rw [← DepthFirst.hasCycle_eq_false_iff]
      exact Bool.eq_false_of_not_eq_true fun hfound ↦ hcycle ⟨hkind, hfound⟩
    · rw [filter_cons_of_neg (by simpa using hkind), filter_nil, map_nil, append_nil]
      exact hworking.acyclic
  · intro other hother
    rcases mem_append.mp hother with hold | hlast
    · exact hworking.endpoints other hold
    · rw [mem_singleton.mp hlast]
      exact ⟨by simpa [Option.isSome_iff_ne_none] using hsource,
        by simpa [Option.isSome_iff_ne_none] using htarget⟩
  · refine List.nodup_append.mpr ⟨hworking.relationships_nodup, nodup_singleton _, ?_⟩
    intro other hother last hlast heq
    rw [mem_singleton.mp hlast] at heq
    exact hnew (heq ▸ hother)

theorem removeRelationship_lawful {relationshipKind src dst : String}
    (hworking : working.WellFormed)
    (hnext : working.removeRelationship relationshipKind src dst = .ok next) :
    next.WellFormed ∧ working.Evolves next := by
  unfold removeRelationship at hnext
  simp only at hnext
  split at hnext
  · cases hnext
    refine ⟨⟨hworking.named, ?_, ?_, ?_, hworking.claims⟩, .of_eq rfl⟩
    · -- what is left of the dependencies has no cycle either
      intro node hcycle
      refine hworking.acyclic node (Relation.TransGen.mono ?_ node node hcycle)
      intro source target hedge
      exact ((eraseP_sublist.filter _).map _).subset hedge
    · exact fun record hrecord ↦
        hworking.endpoints record (eraseP_sublist.subset hrecord)
    · exact eraseP_sublist.nodup hworking.relationships_nodup
  · cases hnext

theorem claimDefect_eq_none_iff :
    working.claimDefect row = none ↔ Claimable working.capabilities row := by
  unfold claimDefect Claimable
  rw [findSome?_eq_none_iff]
  refine forall₂_congr fun id _ ↦ ?_
  cases working.capabilities.get? id with
  | none => simp
  | some capability =>
    cases hmatchable : capability.lifecycle.matchable <;> simp [hmatchable]

theorem writeRow_lawful (hworking : working.WellFormed)
    (hnext : working.writeRow row = .ok next) : next.WellFormed ∧ working.Evolves next := by
  unfold writeRow at hnext
  cases hdefect : working.claimDefect row with
  | some refusal =>
    simp only [hdefect] at hnext
    cases hnext
  | none =>
    simp only [hdefect] at hnext
    cases hnext
    refine ⟨{ hworking with claims := fun provider other hother ↦ ?_ }, .of_eq rfl⟩
    rw [get?_insert] at hother
    split at hother
    · cases hother
      exact claimDefect_eq_none_iff.mp hdefect
    · exact hworking.claims provider other hother

theorem removeDescriptorRow_lawful {providerId : String} (hworking : working.WellFormed)
    (hnext : working.removeDescriptorRow providerId = .ok next) :
    next.WellFormed ∧ working.Evolves next := by
  unfold removeDescriptorRow at hnext
  split at hnext
  · cases hnext
  · cases hnext
    refine ⟨{ hworking with claims := fun provider row hrow ↦ ?_ }, .of_eq rfl⟩
    exact hworking.claims provider row (get?_of_erase hrow).2

theorem WellFormed.handle {mutation : Mutation} (hworking : working.WellFormed)
    (hnext : working.handle mutation = .ok next) : next.WellFormed ∧ working.Evolves next := by
  cases mutation with
  | addCapability record => exact addCapability_lawful hworking hnext
  | updateCapability record => exact updateCapability_lawful hworking hnext
  | transitionCapabilityLifecycle id toState =>
    exact transitionCapabilityLifecycle_lawful hworking hnext
  | addRelationship record => exact addRelationship_lawful hworking hnext
  | removeRelationship relationshipKind src dst => exact removeRelationship_lawful hworking hnext
  | addDescriptorRow record | updateDescriptorRow record =>
    change (if _ then _ else _) = _ at hnext
    split at hnext
    · cases hnext
    · exact writeRow_lawful hworking hnext
  | removeDescriptorRow providerId => exact removeDescriptorRow_lawful hworking hnext
  | unknown kind => cases kind <;> cases hnext

end Content

/-- `DescriptorSpace`: the current content and every version before it. -/
abbrev DescriptorSpace := Versioned Content

namespace DescriptorSpace

/-- The space after a sequence of mutations offered to a new one. -/
def after (mutations : List Mutation) : DescriptorSpace :=
  (Versioned.fresh Content.empty).offer Content.handle mutations

section

variable (mutations : List Mutation)

theorem all_after : (after mutations).All Content.WellFormed :=
  Versioned.All.offer (fun _ _ _ hstate _ hnext ↦ (Content.WellFormed.handle hstate hnext).1)
    (.fresh Content.wellFormed_empty) (Versioned.admits_true _ _ _)

theorem ordered_after : (after mutations).Ordered Content.Evolves :=
  Versioned.Ordered.offer (fun _ _ _ hfirst hsecond ↦ hfirst.trans hsecond) Content.Evolves.refl
    (fun _ _ _ hstate _ hnext ↦ Content.WellFormed.handle hstate hnext)
    (.fresh Content.wellFormed_empty) (.fresh _ _) (Versioned.admits_true _ _ _)

/-- After every sequence of mutations, accepted or refused: every version is well formed, and later
versions evolve earlier ones; the versions are those from 0 to the number of accepted mutations,
each the same after whatever is offered next; and a refused mutation leaves the space as it was. -/
theorem lawful :
    (∀ number content, (after mutations).atVersion number = some content → content.WellFormed) ∧
    (∀ first second earlier later, first ≤ second →
      (after mutations).atVersion first = some earlier →
      (after mutations).atVersion second = some later → earlier.Evolves later) ∧
    (after mutations).version =
      Versioned.accepted Content.handle (Versioned.fresh Content.empty) mutations ∧
    (∀ number, (∃ content, (after mutations).atVersion number = some content) ↔
      0 ≤ number ∧ number ≤ (after mutations).version) ∧
    (∀ number content, (after mutations).atVersion number = some content →
      ∀ later, (after (mutations ++ later)).atVersion number = some content) ∧
    (∀ mutation refusal, ((after mutations).apply Content.handle mutation).2 = .error refusal →
      ((after mutations).apply Content.handle mutation).1 = after mutations) := by
  refine ⟨?_, ?_, Versioned.lawful_offer rfl⟩
  · intro number content hcontent
    exact (all_after mutations).atVersion hcontent
  · intro first second earlier later hle hearlier hlater
    exact (ordered_after mutations).atVersion Content.Evolves.refl hle hearlier hlater

end

end DescriptorSpace

end AbsoluteZero.Reasoning

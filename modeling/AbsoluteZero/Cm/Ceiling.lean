import AbsoluteZero.Cm.Sources
import AbsoluteZero.Cm.Validation

/-!
# What the ceiling covers

The tokens used are the words of the contents that are placed, and the budget covers them
(`accounts_of_fit`). The fitter counts no words in a dict, so it places the blocks of a live request
whole at no cost: an artifact is covered exactly when no live request was read (`covered_iff`).
-/

namespace AbsoluteZero.Cm

open Foundations List

variable {candidate : Candidate}

theorem exists_of_mem_resolveReferences {references : List String} {candidates : List Candidate}
    (hresolve : resolveReferences references = .ok candidates)
    (hcandidate : candidate ∈ candidates) : ∃ ref, candidate = referenceCandidate ref := by
  induction references generalizing candidates with
  | nil =>
    cases hresolve
    cases hcandidate
  | cons ref rest ih =>
    unfold resolveReferences at hresolve
    rw [mapM_cons] at hresolve
    by_cases hbad : (partitionColon ref).2 = "" ∨ (partitionColon ref).1 ∉ referenceSections
    · rw [if_pos hbad] at hresolve
      cases hresolve
    · rw [if_neg hbad] at hresolve
      cases hrest : resolveReferences rest with
      | error failure =>
        unfold resolveReferences at hrest
        simp only [bind, Except.bind, hrest] at hresolve
        cases hresolve
      | ok others =>
        have hothers := hrest
        unfold resolveReferences at hrest
        simp only [bind, Except.bind, hrest] at hresolve
        cases hresolve
        rcases mem_cons.mp hcandidate with rfl | hmem
        · exact ⟨ref, rfl⟩
        · exact ih hothers hmem

section Gathered

variable {scoring : Ums.Scoring} {floatMinus : Rsm.FloatSum} {spec : Spec} {bundle : Ums.Bundle}
  {requestId : String} {store : Option Rsm.Store} {queryClass : Option Ums.QueryClass}
  {candidates : List Candidate}

theorem eq_of_gather (hgather : gather scoring floatMinus spec bundle requestId store queryClass =
    .ok candidates) : ∃ blocks references, blocksOf floatMinus store requestId = .ok blocks ∧
      resolveReferences spec.references = .ok references ∧
      candidates = gatherUms scoring bundle spec queryClass ++ blocks ++ references := by
  obtain ⟨blocks, hblocks, hrest⟩ := Checked.bind_eq_ok_iff.mp hgather
  obtain ⟨references, hreferences, hcandidates⟩ := Checked.bind_eq_ok_iff.mp hrest
  cases hcandidates
  exact ⟨blocks, references, Checked.mapError_eq_ok_iff.mp hblocks, hreferences, rfl⟩

def Live (store : Option Rsm.Store) (requestId : String) : Prop :=
  ∃ rsm, store = some rsm ∧ ¬ Absent rsm requestId

theorem blocks_of_live (hlive : Live store requestId) {blocks : List Candidate}
    (hblocks : blocksOf floatMinus store requestId = .ok blocks) :
    ∃ rsm status budget, store = some rsm ∧
      blocks = [blockCandidate requestId status "identity" (blockOf (·.identity) rsm requestId),
        blockCandidate requestId status "plan" (blockOf (·.plan) rsm requestId),
        blockCandidate requestId status "budget" budget] := by
  obtain ⟨rsm, rfl, hpresent⟩ := hlive
  change gatherRsm floatMinus rsm requestId = .ok blocks at hblocks
  unfold gatherRsm at hblocks
  rw [if_neg hpresent] at hblocks
  obtain ⟨budget, -, hmade⟩ := Checked.bind_eq_ok_iff.mp hblocks
  cases hmade
  exact ⟨rsm, _, budget, rfl, rfl⟩

/-- Without a live request there is at most the mark of an absent one. -/
theorem eq_absentCandidate_of_mem (hlive : ¬ Live store requestId) {blocks : List Candidate}
    (hblocks : blocksOf floatMinus store requestId = .ok blocks)
    (hcandidate : candidate ∈ blocks) : ∃ status, candidate = absentCandidate requestId status := by
  cases store with
  | none =>
    cases hblocks
    cases hcandidate
  | some rsm =>
    have habsent : Absent rsm requestId := by
      by_contra hpresent
      exact hlive ⟨rsm, rfl, hpresent⟩
    change gatherRsm floatMinus rsm requestId = .ok blocks at hblocks
    unfold gatherRsm at hblocks
    rw [if_pos habsent] at hblocks
    cases hblocks
    exact ⟨_, mem_singleton.mp hcandidate⟩

/-- Without a live request, a gathered candidate offers texts, or nothing as the mark of an absent
one. -/
theorem offers_of_not_live (hlive : ¬ Live store requestId)
    (hgather : gather scoring floatMinus spec bundle requestId store queryClass = .ok candidates)
    (hcandidate : candidate ∈ candidates) {tier : String} {text : Json}
    (hoffers : Offers candidate.content tier text) : (∃ printed, text = .str printed) ∨
      text = .null ∧ candidate.id = "rsm:" ++ requestId ++ ":absent" := by
  have htiers : ∀ {full sectionContent reference : Json},
      Offers (tieredContent full sectionContent reference) tier text →
        text = full ∨ text = sectionContent ∨ text = reference := by
    intro full sectionContent reference h
    have hmem := OrderedDict.mem_of_find h.2
    simp only [mem_cons, not_mem_nil, or_false, Prod.mk.injEq] at hmem
    rcases hmem with ⟨-, rfl⟩ | ⟨-, rfl⟩ | ⟨-, rfl⟩
    · exact .inl rfl
    · exact .inr (.inl rfl)
    · exact .inr (.inr rfl)
  obtain ⟨blocks, references, hblocks, hreferences, rfl⟩ := eq_of_gather hgather
  rcases mem_append.mp hcandidate with hmem | hmem
  · rcases mem_append.mp hmem with hhit | hblock
    · obtain ⟨hit, -, rfl⟩ := mem_map.mp hhit
      exact .inl ⟨hit.content, hoffers.2⟩
    · obtain ⟨status, rfl⟩ := eq_absentCandidate_of_mem hlive hblocks hblock
      rcases htiers hoffers with rfl | rfl | rfl <;> exact .inr ⟨rfl, rfl⟩
  · obtain ⟨ref, rfl⟩ := exists_of_mem_resolveReferences hreferences hmem
    rcases htiers hoffers with rfl | rfl | rfl <;> exact .inl ⟨_, rfl⟩

theorem content_of_identity (hlive : Live store requestId)
    (hgather : gather scoring floatMinus spec bundle requestId store queryClass = .ok candidates) :
    ∃ value, (value = .null ∨ ∃ fields, value = .obj fields) ∧
      (∃ candidate ∈ candidates, candidate.id = "rsm:" ++ requestId ++ ":" ++ "identity") ∧
      ∀ candidate ∈ candidates, candidate.id = "rsm:" ++ requestId ++ ":" ++ "identity" →
        ∃ sectionContent reference,
          candidate.content = tieredContent value sectionContent reference := by
  obtain ⟨blocks, references, hblocks, hreferences, rfl⟩ := eq_of_gather hgather
  obtain ⟨rsm, status, budget, -, rfl⟩ := blocks_of_live hlive hblocks
  refine ⟨blockOf (·.identity) rsm requestId, ?_, ⟨_, mem_append_left _
    (mem_append_right _ mem_cons_self), rfl⟩, fun candidate hcandidate hid ↦ ?_⟩
  · unfold blockOf
    cases rsm.get? requestId with
    | none => exact .inl rfl
    | some record => exact .inr ⟨_, rfl⟩
  have hblock : ∀ {name value}, candidate = blockCandidate requestId status name value →
      name = "identity" := by
    rintro name value rfl
    simpa [blockCandidate] using hid
  rcases mem_append.mp hcandidate with hmem | hmem
  · rcases mem_append.mp hmem with hmem | hmem
    · obtain ⟨hit, hhit, rfl⟩ := mem_map.mp hmem
      have hfirst := congrArg (fun text : String ↦ text.toList[0]?) hid
      rcases Ums.mem_hits hhit with ⟨symbol, -, -, hsymbol⟩ | ⟨-, hfile⟩
      · simp [hitCandidate, hsymbol, Ums.symbolCandidate] at hfirst
      · simp [hitCandidate, hfile] at hfirst
    · simp only [mem_cons, not_mem_nil, or_false] at hmem
      rcases hmem with rfl | rfl | rfl
      · exact ⟨_, _, rfl⟩
      · exact absurd (hblock rfl) (by decide)
      · exact absurd (hblock rfl) (by decide)
  · obtain ⟨ref, rfl⟩ := exists_of_mem_resolveReferences hreferences hmem
    have hsecond := congrArg (fun text : String ↦ text.toList[1]?) hid
    simp [referenceCandidate] at hsecond

/-- Every item carries a text that its candidate offers, or nothing as the mark of an absent
request; the tokens used are the words of these contents, and the budget covers them. -/
structure Covered (requestId : String) (candidates : List Candidate) (memory : RequestMemory) :
    Prop where
  chosen : ∀ item ∈ memory.items, ∃ candidate ∈ candidates,
    item.originalId.getD item.id = candidate.id ∧
      Offers candidate.content item.fidelity item.content ∧
      ((∃ text, item.content = .str text) ∨
        item.content = .null ∧ candidate.id = "rsm:" ++ requestId ++ ":absent")
  used : memory.tokensUsed = (memory.items.map fun item ↦ tokenCount item.content).sum
  ceiling : (memory.tokensUsed : Int) ≤ memory.budgetTokens

variable {hashing : Hashing} {floats : FloatShare} {config : ConfigView}
  {assemblyId : Option String} {memory : RequestMemory}

/-- An artifact that is assembled from gathered candidates is covered exactly when they were read of
no live request. -/
theorem covered_iff
    (hgather : gather scoring floatMinus spec bundle requestId store queryClass = .ok candidates)
    (hassemble : assemble hashing floats spec (prioritize config (dedup hashing candidates)) config
      assemblyId = .ok memory) : Covered requestId candidates memory ↔ ¬ Live store requestId := by
  obtain ⟨fitted, hfit, rfl⟩ := exists_fit_of_assemble hassemble
  have haccounts := accounts_of_fit hfit
  have hperm := @perm_items_buildMemory hashing floats config spec assemblyId _ fitted hfit
    (prioritize config (dedup hashing candidates)).length
  constructor
  · intro hcovered hlive
    obtain ⟨value, hvalue, ⟨identity, hidentity, hid⟩, hall⟩ := content_of_identity hlive hgather
    obtain ⟨kept, hkept, hkeptId⟩ := @exists_mem_dedup hashing _ _ hidentity
    obtain ⟨source, hsource, hkeptSource⟩ := exists_of_mem_dedup hkept
    have hsourceId : source.id = "rsm:" ++ requestId ++ ":" ++ "identity" := by
      rw [← hid, ← hkeptId, hkeptSource]
    obtain ⟨sectionContent, reference, hcontent⟩ := hall source hsource hsourceId
    have hfree : tokenCount value = 0 := by
      rcases hvalue with rfl | ⟨fields, rfl⟩ <;> rfl
    have hfull : Offers kept.content "full" value := by
      rw [hkeptSource]
      rw [hcontent]
      exact ⟨mem_cons_self, rfl⟩
    obtain ⟨item, hitem, hheader, hitemContent⟩ :=
      exists_item_of_free hfit (mem_prioritize.mpr hkept) hfull hfree
    obtain ⟨candidate, -, horiginal, -, htext⟩ := hcovered.chosen (disambiguate hashing item)
      (hperm.mem_iff.mpr (mem_map_of_mem hitem))
    rw [content_disambiguate, hitemContent] at htext
    rw [originalId_disambiguate ((haccounts.offered item hitem).1)] at horiginal
    have hitemId : item.id = kept.id := congrArg Candidate.id hheader
    rcases htext with ⟨text, htext⟩ | ⟨-, habsent⟩
    · rw [htext] at hvalue
      rcases hvalue with hnull | ⟨fields, hobj⟩
      · cases hnull
      · cases hobj
    · rw [← horiginal, hitemId, hkeptId, hid] at habsent
      have hchars := congrArg String.toList habsent
      simp at hchars
  · intro hlive
    refine ⟨fun item hitem ↦ ?_, ?_, haccounts.within⟩
    · obtain ⟨placed, hplaced, rfl⟩ := mem_map.mp (hperm.mem_iff.mp hitem)
      obtain ⟨horiginal, -, kept, hkept, hheader, hoffers⟩ := haccounts.offered placed hplaced
      obtain ⟨source, hsource, hkeptSource⟩ := exists_of_mem_dedup (mem_prioritize.mp hkept)
      have hsourceOffers : Offers source.content placed.fidelity placed.content := by
        rw [hkeptSource] at hoffers
        exact hoffers
      have hplacedId : placed.id = source.id := by
        rw [show placed.id = kept.id from congrArg Candidate.id hheader, hkeptSource]
      refine ⟨source, hsource, ?_, ?_, ?_⟩
      · rw [originalId_disambiguate horiginal, hplacedId]
      · rw [content_disambiguate, fidelity_disambiguate]
        exact hsourceOffers
      · rw [content_disambiguate]
        exact offers_of_not_live hlive hgather hsource hsourceOffers
    · rw [(hperm.map fun item ↦ tokenCount item.content).sum_eq, map_map]
      refine haccounts.used.trans (congrArg List.sum (map_congr_left fun item _ ↦ ?_))
      rw [Function.comp_apply, content_disambiguate]

end Gathered

/-! ### One request, absent and live -/

def fileBundle : Ums.Bundle where
  files := OrderedDict.empty.insert "core.py" none
  summaries := OrderedDict.empty.insert "core.py" ⟨"adds two numbers", "adds numbers", "adds"⟩
  isFresh _ := true

/-- The score of that file for the query `core`. -/
def fullScore : Ums.Scoring := fun _ _ ↦ (1, "1.0")

def absentSpec : Spec := ⟨"r1", "core", 10, [], [], ["knowledge:k1"]⟩

/-- What is gathered for an absent request: the file, the mark and the reference. -/
def absentCandidates : List Candidate :=
  [hitCandidate absentSpec .concept
      ⟨"file:core.py", "core.py", .file, (1, "1.0"), false, "full", "adds two numbers"⟩,
    absentCandidate "r1" .absent, referenceCandidate "knowledge:k1"]

def absentHashing : Hashing :=
  tableHashing
    [(.str "adds two numbers", "e1456ff91e0f505a4643739e24de6efd3d1e89de5a242dcdac3c260359832553"),
      (tieredContent .null .null .null,
        "1b77eeda203e207c143379b9d1920dd5e211bf938dcca3a220aa8a20ab282daf"),
      (tieredContent (.str "k1") (.str "k1") (.str "k1"),
        "42fd2b8c9517e4cfdc8ce3ba63b25bad823546607b2aa88be6d28325c6c3869a")]
    [] "fe52d49cf96f7ce1eb4edf0bcd43bd93c33d69a3dc61d5bcf0b2bbc41e7b2866" "d8326fd447ae5d3f0afe7095"
    (by decide) (by decide)

theorem covered_absent :
    gather fullScore (fun _ _ ↦ .error .typeError) absentSpec fileBundle "r1" (some .empty)
        (some .concept) = .ok absentCandidates ∧
      ∃ memory, assemble absentHashing exactShare absentSpec
        (prioritize defaultConfig (dedup absentHashing absentCandidates)) defaultConfig none =
          .ok memory ∧ Covered "r1" absentCandidates memory := by
  have hgather : gather fullScore (fun _ _ ↦ .error .typeError) absentSpec fileBundle "r1"
      (some .empty) (some .concept) = .ok absentCandidates := by
    decide +kernel
  obtain ⟨memory, hmemory, -⟩ := @exists_of_check _ (assemble absentHashing exactShare absentSpec
    (prioritize defaultConfig (dedup absentHashing absentCandidates)) defaultConfig none)
    (fun _ ↦ true) (by decide +kernel)
  refine ⟨hgather, memory, hmemory, (covered_iff hgather hmemory).mpr ?_⟩
  rintro ⟨store, hstore, hpresent⟩
  cases hstore
  exact hpresent (.inl rfl)

def liveIdentity : Rsm.Block :=
  (OrderedDict.empty.insert "declared_type" (.str "task")).insert "origin" (.str "cli")

/-- The store after the request was received. -/
def liveStore : Rsm.Store :=
  { Rsm.Store.empty with
    active := OrderedDict.empty.insert "r1" (Rsm.birth "r1" liveIdentity)
    state := OrderedDict.empty.insert "r1" .active }

def liveSpec : Spec := ⟨"r1", "core", 10, [], [], []⟩

/-- What is gathered for the live request from an empty index. -/
def liveCandidates : List Candidate :=
  [blockCandidate "r1" .active "identity" (.obj liveIdentity.items),
    blockCandidate "r1" .active "plan" (.obj []),
    blockCandidate "r1" .active "budget"
      (.obj [("granted", .int 0), ("consumed", .int 0), ("remaining", .int 0)])]

def liveHashing : Hashing :=
  tableHashing
    (liveCandidates.map (·.content) |>.zip
      ["bcfffedd1995a2af3f7baa7561db8ce13f99d9867f8cfff891d40149106f2c56",
        "ee9bff1f35fb6adfc09ccc50c1e53747d23b6bde05dc898b85e80cb19cfd8a57",
        "770f186be6112dbfdc8132bc893880c81e9cc76b6ed2254a74f50ba456f0a81a"])
    [] "7f6e9b8f03185b830cf16043ff22c3c101d316d7720465663a464a721a34f16f" "b6158a39212b0969a5b1cc9c"
    (by decide) (by decide)

/-- The blocks of a live request are in the artifact as dicts, and no token is used. -/
theorem not_covered_live :
    gather fullScore (fun _ _ ↦ .error .typeError) liveSpec ⟨.empty, .empty, fun _ ↦ true⟩ "r1"
        (some liveStore) (some .concept) = .ok liveCandidates ∧
      ∃ memory, assemble liveHashing exactShare liveSpec
        (prioritize defaultConfig (dedup liveHashing liveCandidates)) defaultConfig
          none = .ok memory ∧
          memory.tokensUsed = 0 ∧ (∃ item ∈ memory.items, item.content = .obj liveIdentity.items) ∧
          ¬ Covered "r1" liveCandidates memory := by
  refine ⟨by decide +kernel, ?_⟩
  obtain ⟨memory, hmemory, hcheck⟩ := @exists_of_check _ (assemble liveHashing exactShare liveSpec
    (prioritize defaultConfig (dedup liveHashing liveCandidates)) defaultConfig none)
    (fun memory ↦ memory.tokensUsed = 0 ∧ ∃ item ∈ memory.items, item.content = .obj
      liveIdentity.items)
    (by decide +kernel)
  obtain ⟨hused, item, hitem, hcontent⟩ := of_decide_eq_true hcheck
  refine ⟨memory, hmemory, hused, ⟨item, hitem, hcontent⟩, fun hcovered ↦ ?_⟩
  obtain ⟨candidate, -, -, -, htext⟩ := hcovered.chosen item hitem
  rw [hcontent] at htext
  rcases htext with ⟨text, htext⟩ | ⟨htext, -⟩
  · cases htext
  · cases htext

end AbsoluteZero.Cm

import AbsoluteZero.Cm.Budgeter
import AbsoluteZero.Foundations.Interleaving

/-!
# The assembly pipeline

The passes around the budget fitter: `dedup`, `prioritize`, the suffixes that tell contradicting
variants apart, the artifact that `assemble` builds, and the checks of `validate`.

The events that `assemble` publishes are left out here.
-/

namespace AbsoluteZero.Cm

open Foundations

/-- Whether an id comes with more than one content hash. -/
def Contradicted (hashing : Hashing) (candidates : List Candidate) (id : String) : Prop :=
  ∃ first ∈ candidates, ∃ second ∈ candidates, first.id = id ∧ second.id = id ∧
    hashing.contentHash first.content ≠ hashing.contentHash second.content

instance (hashing : Hashing) (candidates : List Candidate) (id : String) :
    Decidable (Contradicted hashing candidates id) :=
  inferInstanceAs (Decidable (∃ _ ∈ _, ∃ _ ∈ _, _))

/-- What makes two candidates copies of each other. -/
def dedupKey (hashing : Hashing) (candidate : Candidate) : String × String :=
  (candidate.id, hashing.contentHash candidate.content)

def dedup (hashing : Hashing) (candidates : List Candidate) : List Candidate :=
  (fresh (dedupKey hashing) [] candidates).map fun candidate ↦
    if Contradicted hashing candidates candidate.id then { candidate with contradiction := true }
    else candidate

variable {candidates : List Candidate}

/-- What is left is a candidate but for its flag. -/
theorem exists_of_mem_dedup {hashing : Hashing} {kept : Candidate}
    (hkept : kept ∈ dedup hashing candidates) : ∃ candidate ∈ candidates,
      kept = { candidate with contradiction := kept.contradiction } := by
  obtain ⟨candidate, hcandidate, rfl⟩ := List.mem_map.mp hkept
  refine ⟨candidate, (fresh_sublist [] candidates).mem hcandidate, ?_⟩
  split <;> rfl

/-- Every id is left. -/
theorem exists_mem_dedup {hashing : Hashing} {candidates : List Candidate} {candidate : Candidate}
    (hcandidate : candidate ∈ candidates) : ∃ kept ∈ dedup hashing candidates,
      kept.id = candidate.id := by
  obtain ⟨kept, hkept, heq⟩ : ∃ kept ∈ fresh (dedupKey hashing) [] candidates,
      dedupKey hashing kept = dedupKey hashing candidate :=
    exists_mem_fresh hcandidate List.not_mem_nil
  refine ⟨_, List.mem_map_of_mem hkept, ?_⟩
  rw [← (Prod.mk.inj heq).1]
  split <;> rfl

/-- The number of a score, none for one that is no number; a bool is none. -/
def score? : Json → Option Rat
  | .int value => some value
  | .float value _ => some value
  | _ => none

/-- `_score_key`: what is no number sorts below every number. -/
def scoreKey (score : Json) : WithBot Rat :=
  match score? score with
  | some value => value
  | none => ⊥

/-- `-_score_key(score)`. -/
def negScoreKey (score : Json) : WithTop Rat :=
  match score? score with
  | some value => ((-value : Rat) : WithTop Rat)
  | none => ⊤

theorem negScoreKey_le_iff {first second : Json} :
    negScoreKey first ≤ negScoreKey second ↔ scoreKey second ≤ scoreKey first := by
  unfold negScoreKey scoreKey
  cases score? first with
  | none =>
    cases score? second with
    | none | some value => simp
  | some value =>
    cases score? second with
    | none => simp
    | some other => exact (WithTop.coe_le_coe.trans neg_le_neg_iff).trans WithBot.coe_le_coe.symm

def prioritize (config : ConfigView) (candidates : List Candidate) : List Candidate :=
  sortedBy (fun candidate : Candidate ↦ toLex (-config.weightOf candidate.sectionName,
    toLex (negScoreKey candidate.score, candidate.id))) candidates

theorem mem_prioritize {config : ConfigView} {candidate : Candidate} :
    candidate ∈ prioritize config candidates ↔ candidate ∈ candidates := mem_sortedBy

/-! ### Variants of one id -/

/-- The body of `_disambiguate_contradictions`: the id of a flagged item gets the digest of its
content, and the original id is kept beside it. -/
def disambiguate (hashing : Hashing) (item : Item) : Item :=
  if item.contradiction then
    { item with
      id := item.id ++ "#" ++ hashing.variantDigest item.content
      originalId := some item.id }
  else item

section Disambiguated

variable {hashing : Hashing}

section

variable (item : Item)

@[simp] theorem sectionName_disambiguate :
    (disambiguate hashing item).sectionName = item.sectionName := by
  unfold disambiguate
  split <;> rfl

@[simp] theorem content_disambiguate :
    (disambiguate hashing item).content = item.content := by
  unfold disambiguate
  split <;> rfl

@[simp] theorem fidelity_disambiguate :
    (disambiguate hashing item).fidelity = item.fidelity := by
  unfold disambiguate
  split <;> rfl

@[simp] theorem score_disambiguate :
    (disambiguate hashing item).score = item.score := by
  unfold disambiguate
  split <;> rfl

@[simp] theorem provenance_disambiguate :
    (disambiguate hashing item).provenance = item.provenance := by
  unfold disambiguate
  split <;> rfl

@[simp] theorem stale_disambiguate :
    (disambiguate hashing item).stale = item.stale := by
  unfold disambiguate
  split <;> rfl

end

theorem originalId_disambiguate {item : Item} (hitem : item.originalId = none) :
    (disambiguate hashing item).originalId.getD (disambiguate hashing item).id = item.id := by
  unfold disambiguate
  split
  · rfl
  · rw [hitem, Option.getD_none]

end Disambiguated

/-- The loop over the items of a section, with the ids seen so far and the score before. -/
def checkItems (seen : List String) (previous : Option (WithBot Rat)) :
    List Item → Except String (List String)
  | [] => .ok seen
  | item :: rest =>
    if item.id ∈ seen then .error ("validator.duplicate_id:" ++ item.id)
    else if item.provenance.items = [] then .error ("validator.missing_provenance:" ++ item.id)
    else if item.stale = none then .error ("validator.missing_stale_flag:" ++ item.id)
    else if previous.any fun score ↦ score < scoreKey item.score then
      .error ("validator.order_violation:" ++ item.id)
    else checkItems (seen ++ [item.id]) (some (scoreKey item.score)) rest

/-- `validate`: the reason for which the artifact fails, none for one that passes. -/
def RequestMemory.validate (memory : RequestMemory) : Option String :=
  if ¬ (∀ name ∈ memory.sections.keys, name ∈ sectionNames) ∨
      ¬ ∀ name ∈ sectionNames, name ∈ memory.sections.keys then
    some "validator.missing_section"
  else if (memory.tokensUsed : Int) > memory.budgetTokens then some "validator.ceiling_exceeded"
  else
    match sectionNames.foldlM (fun seen name ↦ checkItems seen none (memory.itemsOf name)) [] with
    | .error reason => some reason
    | .ok _ => none

/-- The artifact around the items that the fitter placed. -/
def buildMemory (hashing : Hashing) (spec : Spec) (requestId : Option String)
    (candidateCount : Nat) (fitted : Fitted) : RequestMemory where
  requestId := (requestId.filter (· ≠ "")).getD spec.requestId
  memoryId := hashing.memoryId ((requestId.filter (· ≠ "")).getD spec.requestId)
    (hashing.specHash spec)
  specHash := hashing.specHash spec
  objective := spec.objective
  constraints := spec.constraints
  sections := bySection fun name ↦
    stream Item.sectionName name (fitted.items.map (disambiguate hashing))
  candidateCount := candidateCount
  selectedCount := fitted.items.length
  dropped := fitted.dropped
  degraded := fitted.degraded
  budgetTokens := spec.budgetTokens
  tokensUsed := fitted.tokensUsed
  sectionBudgets := fitted.sectionBudgets
  sectionUsed := fitted.sectionUsed
  truncated := fitted.truncated

def assemble (hashing : Hashing) (floats : FloatShare) (spec : Spec) (candidates : List Candidate)
    (config : ConfigView) (requestId : Option String) : Except Failure RequestMemory := do
  let fitted ← fit floats config spec.budgetTokens candidates
  let memory := buildMemory hashing spec requestId candidates.length fitted
  match memory.validate with
  | some reason => .error (.invalid reason)
  | none => .ok memory

/-- An artifact is built around what the fitter placed. -/
theorem exists_fit_of_assemble {hashing : Hashing} {floats : FloatShare} {spec : Spec}
    {config : ConfigView} {requestId : Option String} {memory : RequestMemory}
    (hassemble : assemble hashing floats spec candidates config requestId = .ok memory) :
    ∃ fitted, fit floats config spec.budgetTokens candidates = .ok fitted ∧
      memory = buildMemory hashing spec requestId candidates.length fitted := by
  obtain ⟨fitted, hfit, hmemory⟩ := Checked.bind_eq_ok_iff.mp hassemble
  dsimp only at hmemory
  split at hmemory
  · cases hmemory
  · cases hmemory
    exact ⟨fitted, hfit, rfl⟩

end AbsoluteZero.Cm

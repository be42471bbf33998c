import AbsoluteZero.Foundations.PythonValue
import AbsoluteZero.Foundations.Text
import Mathlib.Tactic.Positivity

/-!
# Candidates and request memory

The data of context assembly: candidates as the sources hand them over, the spec, the configuration,
and the frozen artifact with its items in five sections. The digests (`Hashing`) and the division
that carves the budget (`FloatShare`) are parameters.
-/

namespace AbsoluteZero.Cm

open Foundations

def sectionNames : List String :=
  ["symbols", "files", "dependency_graph", "knowledge", "experience"]

def bySection {Value : Type} (value : String → Value) : OrderedDict String Value :=
  sectionNames.foldl (fun dict name ↦ dict.insert name (value name)) .empty

theorem get?_bySection {Value : Type} (value : String → Value) {name : String}
    (hname : name ∈ sectionNames) : (bySection value).get? name = some (value name) := by
  unfold bySection sectionNames
  simp only [sectionNames, List.mem_cons, List.not_mem_nil, or_false] at hname
  rcases hname with rfl | rfl | rfl | rfl | rfl <;> rfl

/-- What a source hands over. The key `stale` may be missing, `contradiction` is set by dedup. -/
structure Candidate where
  id : String
  sectionName : String
  content : Json
  score : Json
  stale : Option Json
  provenance : OrderedDict String Json
  contradiction : Bool
  deriving DecidableEq

structure Spec where
  requestId : String
  objective : String
  budgetTokens : Int
  capabilities : List String
  constraints : List (String × Json)
  references : List String

/-- The section weights of a configuration, which are checked not to be negative. -/
structure ConfigView where
  sectionWeights : OrderedDict String Rat
  nonneg : ∀ name weight, sectionWeights.get? name = some weight → 0 ≤ weight

def ConfigView.weightOf (config : ConfigView) (name : String) : Rat :=
  (config.sectionWeights.get? name).getD 0

theorem ConfigView.weightOf_nonneg (config : ConfigView) (name : String) :
    0 ≤ config.weightOf name := by
  unfold weightOf
  cases hweight : config.sectionWeights.get? name with
  | none => exact le_rfl
  | some weight => exact config.nonneg name weight hweight

/-- The digests of assembly: the content hash of dedup, the first eight hexadecimal digits that tell
variants apart, the hash of a spec and the id of an artifact. -/
structure Hashing where
  contentHash : Json → String
  variantDigest : Json → String
  specHash : Spec → String
  memoryId : String → String → String
  length_variantDigest : ∀ content, (variantDigest content).toList.length = 8
  hex_variantDigest : ∀ content, ∀ char ∈ (variantDigest content).toList,
    char.isDigit ∨ 'a' ≤ char ∧ char ≤ 'f'

/-- The value of a content in a table, and a default for every other one. -/
def tabled (default : String) (entries : List (Json × String)) (content : Json) : String :=
  ((entries.find? fun entry ↦ entry.1 = content).map Prod.snd).getD default

theorem tabled_mem {Holds : String → Prop} {default : String} {entries : List (Json × String)}
    (hdefault : Holds default) (hentries : ∀ entry ∈ entries, Holds entry.2) (content : Json) :
    Holds (tabled default entries content) := by
  unfold tabled
  cases hfind : entries.find? fun entry ↦ entry.1 = content with
  | none => exact hdefault
  | some entry => exact hentries entry (List.mem_of_find?_eq_some hfind)

/-- The digests of the contents of a table, as a sample for the contents of one run. -/
def tableHashing (hashes digests : List (Json × String)) (specHash memoryId : String)
    (hlength : ∀ entry ∈ digests, entry.2.toList.length = 8)
    (hhex : ∀ entry ∈ digests, ∀ char ∈ entry.2.toList, char.isDigit ∨ 'a' ≤ char ∧ char ≤ 'f') :
    Hashing where
  contentHash := tabled "" hashes
  variantDigest := tabled "00000000" digests
  specHash _ := specHash
  memoryId _ _ := memoryId
  length_variantDigest :=
    @tabled_mem (fun text ↦ text.toList.length = 8) _ _ (by decide) hlength
  hex_variantDigest :=
    @tabled_mem (fun text ↦ ∀ char ∈ text.toList, char.isDigit ∨ 'a' ≤ char ∧ char ≤ 'f') _ _
      (by decide) hhex

/-- `weights[s] / sum(weights) * budget_tokens` in floats: a number that is not negative, or none
where the arithmetic or the conversion to an integer after it raises. -/
structure FloatShare where
  share : List Rat → Rat → Nat → Option Rat
  nonneg : ∀ {weights weight budget raw}, (∀ other ∈ weights, 0 ≤ other) → 0 ≤ weight →
    share weights weight budget = some raw → 0 ≤ raw

def exactShare : FloatShare where
  share weights weight budget := some (weight / weights.sum * budget)
  nonneg := by
    intro weights weight budget raw hweights hweight hraw
    cases hraw
    have hsum : 0 ≤ weights.sum := List.sum_nonneg hweights
    have hbudget : (0 : Rat) ≤ budget := Nat.cast_nonneg budget
    positivity

/-- `DEFAULT["section_weights"]`. -/
def defaultConfig : ConfigView where
  sectionWeights := ⟨[("symbols", 3), ("files", 3), ("dependency_graph", 2), ("knowledge", 1),
    ("experience", 1)], by decide⟩
  nonneg := by
    intro name weight hweight
    have hmem := OrderedDict.mem_of_find hweight
    simp only [List.mem_cons, List.not_mem_nil, or_false, Prod.mk.injEq] at hmem
    rcases hmem with ⟨-, rfl⟩ | ⟨-, rfl⟩ | ⟨-, rfl⟩ | ⟨-, rfl⟩ | ⟨-, rfl⟩ <;> decide

/-- An item of the artifact: a candidate with the content and the tier that the budget left it. -/
structure Item where
  id : String
  originalId : Option String
  sectionName : String
  content : Json
  fidelity : String
  score : Json
  stale : Option Json
  provenance : OrderedDict String Json
  contradiction : Bool
  deriving DecidableEq

/-- `RequestMemory`, with the blocks of metadata that assembly stamps. -/
structure RequestMemory where
  requestId : String
  memoryId : String
  specHash : String
  objective : String
  constraints : List (String × Json)
  sections : OrderedDict String (List Item)
  candidateCount : Nat
  selectedCount : Nat
  dropped : Nat
  degraded : List String
  budgetTokens : Int
  tokensUsed : Nat
  sectionBudgets : OrderedDict String Int
  sectionUsed : OrderedDict String Nat
  truncated : Bool
  deriving DecidableEq

def RequestMemory.itemsOf (memory : RequestMemory) (name : String) : List Item :=
  (memory.sections.get? name).getD []

def RequestMemory.items (memory : RequestMemory) : List Item :=
  sectionNames.flatMap memory.itemsOf

end AbsoluteZero.Cm

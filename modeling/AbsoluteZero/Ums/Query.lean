import AbsoluteZero.Foundations.OrderedDict
import AbsoluteZero.Foundations.SortedSet
import AbsoluteZero.Foundations.Text
import Mathlib.Algebra.GroupWithZero.Nat
import Mathlib.Algebra.Order.Ring.Rat
import Mathlib.Data.List.Induction
import Mathlib.Data.Prod.Lex

/-!
# Repository queries

One retrieval: the plan of the query class, the candidates of its stores in the order of their
paths, the ranking, the freshness flag and the fit under the budget.

How a candidate is scored is a parameter. `mem_hits` says what every hit is.
-/

namespace AbsoluteZero.Ums

open Foundations List

/-- A symbol of an extraction, as far as a query reads it. -/
structure Symbol where
  kind : String
  qualname : String
  signature : String
  doc : Option String

/-- Three texts, from the richest to the poorest. -/
structure Tiers where
  full : String
  sectionText : String
  reference : String

/-- `bundle`: the symbols of each extracted file (none for a file without an extractor), the
summaries by path, and `is_fresh` of the tracker. -/
structure Bundle where
  files : OrderedDict String (Option (List Symbol))
  summaries : OrderedDict String Tiers
  isFresh : String → Bool

inductive Kind
  | symbol
  | file

def Kind.text : Kind → String
  | .symbol => "symbol"
  | .file => "file"

structure Candidate where
  id : String
  path : String
  kind : Kind
  name : String
  text : String
  content : Tiers

variable (bundle : Bundle)

/-- `sorted(extraction["files"])`. -/
def Bundle.paths : List String := sortedBy id bundle.files.keys

/-- `extraction["files"][path]["symbols"] or ()`. -/
def Bundle.symbolsOf (path : String) : List Symbol :=
  (bundle.files.get? path).join.getD []

def symbolCandidate (path : String) (symbol : Symbol) : Candidate :=
  let text := " ".intercalate [symbol.kind, symbol.qualname, symbol.signature, symbol.doc.getD ""]
  { id := "sym:" ++ path ++ ":" ++ symbol.qualname
    path := path
    kind := .symbol
    name := symbol.qualname
    text := text
    content := ⟨text, text, symbol.kind ++ " " ++ symbol.qualname⟩ }

def symbolCandidates : List Candidate :=
  bundle.paths.flatMap fun path ↦ (bundle.symbolsOf path).map (symbolCandidate path)

def fileCandidate (path : String) (record : Tiers) : Candidate where
  id := "file:" ++ path
  path := path
  kind := .file
  name := path
  text := path ++ " " ++ record.full
  content := record

def fileCandidates : List Candidate :=
  bundle.paths.filterMap fun path ↦ (bundle.summaries.get? path).map (fileCandidate path)

/-! ### Plans -/

inductive QueryClass
  | symbol
  | file
  | concept

def QueryClass.text : QueryClass → String
  | .symbol => "symbol"
  | .file => "file"
  | .concept => "concept"

/-- The stores of `PLANS`. -/
def QueryClass.stores : QueryClass → List (Bundle → List Candidate)
  | .symbol => [symbolCandidates]
  | .file => [fileCandidates]
  | .concept => [symbolCandidates, fileCandidates]

/-- The `max_candidates` of `PLANS`. -/
def QueryClass.maxCandidates : QueryClass → Nat
  | .symbol => 200
  | .file => 200
  | .concept => 400

/-- An ASCII letter or an underscore. -/
def isNameStart (char : Char) : Bool := char.isAlpha ∨ char = '_'

/-- A name: a letter or underscore, then letters, digits and underscores. -/
def isName : List Char → Bool
  | [] => false
  | first :: rest => isNameStart first && rest.all fun char ↦ isNameStart char || char.isDigit

def classifyQuery (text : String) : QueryClass :=
  let stripped := strip text
  if '/' ∈ stripped ∨ ".py".toList <:+ stripped ∨ ".md".toList <:+ stripped then .file
  else if ' ' ∉ stripped ∧ (stripped.splitOn '.').all isName then .symbol
  else .concept

/-- `total` of `ranker.score` for the tokens of a text: the float and its `repr`. -/
abbrev Scoring := String → Candidate → Rat × String

/-- `SCORE_FLOOR`, the float nearest to 0.2. -/
def scoreFloor : Rat := 3602879701896397 / 18014398509481984

/-- `ranker.rank`. -/
def rank (scoring : Scoring) (text : String) (candidates : List Candidate) : List Candidate :=
  sortedBy (fun candidate : Candidate ↦ toLex (-(scoring text candidate).1, candidate.id))
    (candidates.filter fun candidate ↦ scoreFloor < (scoring text candidate).1)

/-- `by_id[hit["id"]]["content"]`: the content of the last candidate with the id. -/
def contentOf (considered : List Candidate) (candidate : Candidate) : Tiers :=
  ((considered.reverse.find? fun other ↦ other.id = candidate.id).getD candidate).content

/-! ### Fitting -/

structure Hit where
  id : String
  path : String
  kind : Kind
  score : Rat × String
  stale : Bool
  fidelity : String
  content : String

/-- The tiers of `budget.fit` with their texts. -/
def Tiers.options (tiers : Tiers) : List (String × String) :=
  [("full", tiers.full), ("section", tiers.sectionText), ("reference", tiers.reference)]

/-- The hits that are kept and what they cost, with the number of those that are dropped. -/
structure Fitted where
  hits : List Hit
  used : Nat
  dropped : Nat

/-- The body of the loop of `budget.fit`. -/
def Fitted.step (budgetTokens : Int) (fitted : Fitted) (hit : Hit × Tiers) : Fitted :=
  match hit.2.options.find? fun option ↦
      (fitted.used + wordCount option.2 : Int) ≤ budgetTokens with
  | none => { fitted with dropped := fitted.dropped + 1 }
  | some (tier, text) =>
    { fitted with
      hits := fitted.hits ++ [{ hit.1 with fidelity := tier, content := text }]
      used := fitted.used + wordCount text }

/-- `budget.fit`. -/
def fit (budgetTokens : Int) (hits : List (Hit × Tiers)) : Fitted :=
  hits.foldl (Fitted.step budgetTokens) ⟨[], 0, 0⟩

/-- What `query` returns. -/
structure Answer where
  queryClass : QueryClass
  hits : List Hit
  tokensUsed : Nat
  truncated : Bool
  dropped : Nat
  candidatesConsidered : Nat

/-- The candidates of the planned stores, up to the cap. -/
def considered (queryClass : QueryClass) : List Candidate :=
  (queryClass.stores.flatMap fun store ↦ store bundle).take queryClass.maxCandidates

/-- A ranked candidate with its flag, before it is fitted. -/
def hitOf (scoring : Scoring) (bundle : Bundle) (text : String) (pool : List Candidate)
    (candidate : Candidate) : Hit × Tiers :=
  ({ id := candidate.id
     path := candidate.path
     kind := candidate.kind
     score := scoring text candidate
     stale := !bundle.isFresh candidate.path
     fidelity := ""
     content := "" }, contentOf pool candidate)

/-- `query`. No class given means the class of the text. -/
def query (scoring : Scoring) (bundle : Bundle) (text : String) (budgetTokens : Int)
    (queryClass : Option QueryClass) : Answer :=
  let planned := queryClass.getD (classifyQuery text)
  let pool := considered bundle planned
  let fitted := fit budgetTokens ((rank scoring text pool).map (hitOf scoring bundle text pool))
  { queryClass := planned
    hits := fitted.hits
    tokensUsed := fitted.used
    truncated := 0 < fitted.dropped ∨ ∃ hit ∈ fitted.hits, hit.fidelity ≠ "full"
    dropped := fitted.dropped
    candidatesConsidered := pool.length }

variable {candidate : Candidate} {bundle : Bundle}

theorem exists_of_mem_symbolCandidates (hmem : candidate ∈ symbolCandidates bundle) :
    ∃ path, ∃ symbol ∈ bundle.symbolsOf path, candidate = symbolCandidate path symbol := by
  obtain ⟨path, -, hmem⟩ := mem_flatMap.mp hmem
  obtain ⟨symbol, hsymbol, rfl⟩ := mem_map.mp hmem
  exact ⟨path, symbol, hsymbol, rfl⟩

theorem exists_of_mem_fileCandidates (hmem : candidate ∈ fileCandidates bundle) :
    ∃ path record, candidate = fileCandidate path record := by
  obtain ⟨path, -, hmem⟩ := mem_filterMap.mp hmem
  obtain ⟨record, -, rfl⟩ := Option.map_eq_some_iff.mp hmem
  exact ⟨path, record, rfl⟩

theorem cases_of_mem_considered {queryClass : QueryClass}
    (hmem : candidate ∈ considered bundle queryClass) :
    (∃ path, ∃ symbol ∈ bundle.symbolsOf path, candidate = symbolCandidate path symbol) ∨
      ∃ path record, candidate = fileCandidate path record := by
  obtain ⟨store, hstore, hmem⟩ := mem_flatMap.mp (mem_of_mem_take hmem)
  have hstores : store = symbolCandidates ∨ store = fileCandidates := by
    cases queryClass with
    | symbol => exact .inl (mem_singleton.mp hstore)
    | file => exact .inr (mem_singleton.mp hstore)
    | concept =>
      rcases mem_cons.mp hstore with rfl | hstore
      · exact .inl rfl
      · exact .inr (mem_singleton.mp hstore)
  rcases hstores with rfl | rfl
  · exact .inl (exists_of_mem_symbolCandidates hmem)
  · exact .inr (exists_of_mem_fileCandidates hmem)

theorem exists_of_mem_fit {budgetTokens : Int} {hits : List (Hit × Tiers)} {fitted : Fitted}
    {kept : Hit} (hkept : kept ∈ (hits.foldl (Fitted.step budgetTokens) fitted).hits) :
    kept ∈ fitted.hits ∨ ∃ hit ∈ hits, ∃ tier text,
      kept = { hit.1 with fidelity := tier, content := text } := by
  induction hits generalizing fitted with
  | nil => exact .inl hkept
  | cons hit rest ih =>
    rw [foldl_cons] at hkept
    rcases ih hkept with hmem | ⟨other, hother, hrest⟩
    · unfold Fitted.step at hmem
      split at hmem
      · exact .inl hmem
      · next tier text _ =>
        rcases mem_append.mp hmem with hmem | hmem
        · exact .inl hmem
        · exact .inr ⟨hit, mem_cons_self, tier, text, mem_singleton.mp hmem⟩
    · exact .inr ⟨other, mem_cons_of_mem _ hother, hrest⟩

theorem mem_hits {scoring : Scoring} {text : String} {budgetTokens : Int}
    {queryClass : Option QueryClass} {hit : Hit}
    (hhit : hit ∈ (query scoring bundle text budgetTokens queryClass).hits) :
    (∃ symbol ∈ bundle.symbolsOf hit.path, hit.kind = .symbol ∧
        hit.id = (symbolCandidate hit.path symbol).id) ∨
      hit.kind = .file ∧ hit.id = "file:" ++ hit.path := by
  rcases exists_of_mem_fit hhit with hnone | ⟨pair, hpair, tier, chosen, rfl⟩
  · cases hnone
  · obtain ⟨candidate, hcandidate, rfl⟩ := mem_map.mp hpair
    have hmem := mem_of_mem_filter (mem_sortedBy.mp hcandidate)
    rcases cases_of_mem_considered hmem with ⟨path, symbol, hsymbol, rfl⟩ | ⟨path, record, rfl⟩
    · exact .inl ⟨symbol, hsymbol, rfl, rfl⟩
    · exact .inr ⟨rfl, rfl⟩

/-! ### What an answer leaves -/

/-- A hit with the tier that it gets, and none if it is dropped. -/
structure Choice where
  hit : Hit × Tiers
  tier? : Option (String × String)

namespace Choice

def hit? (choice : Choice) : Option Hit :=
  choice.tier?.map fun tier ↦ { choice.hit.1 with fidelity := tier.1, content := tier.2 }

def cost (choice : Choice) : Nat := choice.tier?.elim 0 fun tier ↦ wordCount tier.2

def richer (choice : Choice) : List (String × String) :=
  choice.hit.2.options.takeWhile fun tier ↦ choice.tier? ≠ some tier

end Choice

/-- The hits, the cost and the number of dropped hits come from the choices, each of a tier that its
hit offers; the cost is within the budget, and would not be with a richer tier for any of the
hits. -/
structure Accounted (budgetTokens : Int) (choices : List Choice) (fitted : Fitted) : Prop where
  offered : ∀ choice ∈ choices, ∀ tier ∈ choice.tier?, tier ∈ choice.hit.2.options
  hits : fitted.hits = choices.filterMap Choice.hit?
  used : fitted.used = (choices.map Choice.cost).sum
  dropped : fitted.dropped = choices.countP fun choice ↦ choice.tier?.isNone
  within : (fitted.used : Int) ≤ budgetTokens ∨ fitted.used = 0
  maximal : ∀ choice ∈ choices, ∀ tier ∈ choice.richer,
    budgetTokens < fitted.used - choice.cost + wordCount tier.2

theorem Accounted.step {budgetTokens : Int} {choices : List Choice} {fitted : Fitted}
    (haccounted : Accounted budgetTokens choices fitted) (hit : Hit × Tiers) : ∃ tier?,
      Accounted budgetTokens (choices ++ [⟨hit, tier?⟩]) (fitted.step budgetTokens hit) := by
  unfold Fitted.step
  cases hfind : hit.2.options.find? fun option ↦
      (fitted.used + wordCount option.2 : Int) ≤ budgetTokens with
  | none =>
    refine ⟨none, forall_mem_append.mpr ⟨haccounted.offered, by simp⟩, ?_, ?_, ?_,
      haccounted.within, forall_mem_append.mpr ⟨haccounted.maximal, ?_⟩⟩
    · simp [haccounted.hits, Choice.hit?]
    · simp [haccounted.used, Choice.cost]
    · simp [haccounted.dropped]
    · refine forall_mem_singleton.mpr fun tier hricher ↦ ?_
      have hover := find?_eq_none.mp hfind tier (takeWhile_subset _ hricher)
      simpa [Choice.cost] using hover
  | some chosen =>
    obtain ⟨hfits, before, after, hoptions, hover⟩ := find?_eq_some_iff_append.mp hfind
    refine ⟨some chosen, forall_mem_append.mpr ⟨haccounted.offered, ?_⟩, ?_, ?_, ?_,
      .inl (by simpa using hfits), forall_mem_append.mpr ⟨fun choice hold tier hricher ↦ ?_, ?_⟩⟩
    · refine forall_mem_singleton.mpr fun tier htier ↦ ?_
      cases htier
      exact mem_of_find?_eq_some hfind
    · simp [haccounted.hits, Choice.hit?]
    · simp [haccounted.used, Choice.cost]
    · simp [haccounted.dropped]
    · have hbefore := haccounted.maximal choice hold tier hricher
      push_cast
      omega
    · refine forall_mem_singleton.mpr fun tier hricher ↦ ?_
      have hmem : tier ∈ before := by
        unfold Choice.richer at hricher
        simp only [hoptions] at hricher
        rw [takeWhile_append_of_pos] at hricher
        · simpa using hricher
        · intro other hother
          have hne : chosen ≠ other := by
            rintro rfl
            have hboth := hover _ hother
            simp [of_decide_eq_true hfits] at hboth
          simpa using hne
      have hlarge := hover tier hmem
      simp only [Choice.cost, Option.elim_some]
      push_cast
      simp at hlarge
      omega

end AbsoluteZero.Ums

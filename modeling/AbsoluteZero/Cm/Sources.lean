import AbsoluteZero.Cm.Assembly
import AbsoluteZero.Rsm.Store
import AbsoluteZero.Ums.Query

/-!
# Candidate sources

`gather` asks three sources for candidates: the repository index for hits, which come with the one
text that the query fitted; the request store for the blocks of a live request, or for the mark of
an absent one; and the references of the spec.

Unlike every other text, a block of a live request is offered as a dict at its full tier.
-/

namespace AbsoluteZero.Cm

open Foundations

def provenanceOf (entries : List (String × Json)) : OrderedDict String Json :=
  entries.foldl (fun dict entry ↦ dict.insert entry.1 entry.2) .empty

/-- The dict of the three tiers. -/
def tieredContent (full sectionContent reference : Json) : Json :=
  .obj [("full", full), ("section", sectionContent), ("reference", reference)]

def sectionByKind : Ums.Kind → String
  | .symbol => "symbols"
  | .file => "files"

def hitCandidate (spec : Spec) (queryClass : Ums.QueryClass) (hit : Ums.Hit) : Candidate where
  id := hit.id
  sectionName := sectionByKind hit.kind
  content := .str hit.content
  score := .float hit.score.1 hit.score.2
  stale := some (.bool hit.stale)
  provenance := provenanceOf [("source", .str "ums"), ("store", .str hit.kind.text),
    ("query_class", .str queryClass.text), ("query", .str spec.objective)]
  contradiction := false

/-- `UmsAdapter.gather`. -/
def gatherUms (scoring : Ums.Scoring) (bundle : Ums.Bundle) (spec : Spec)
    (queryClass : Option Ums.QueryClass) : List Candidate :=
  let result := Ums.query scoring bundle spec.objective spec.budgetTokens queryClass
  result.hits.map (hitCandidate spec result.queryClass)

/-! ### The request store -/

variable (floatMinus : Rsm.FloatSum)

/-- `first - second`. -/
def minus (first second : Json) : Except PyError Json :=
  match first.int?, second.int? with
  | some a, some b => .ok (.int (a - b))
  | _, _ =>
    match first.number?, second.number? with
    | some _, some _ => floatMinus first second
    | _, _ => .error .typeError

variable (store : Rsm.Store) (requestId : String)

/-- `query.budget`: the budget block with what remains, `None` without a record. -/
def budgetView :
    Except PyError Json :=
  match store.get? requestId with
  | none => .ok .null
  | some record => do
    let granted := (record.budget.get? "granted").getD (.int 0)
    let consumed := (record.budget.get? "consumed").getD (.int 0)
    let remaining ← minus floatMinus granted consumed
    return .obj [("granted", granted), ("consumed", consumed), ("remaining", remaining)]

/-- A block of a record, `None` without a record. -/
def blockOf (block : Rsm.RequestRecord → Rsm.Block) (store : Rsm.Store)
    (requestId : String) : Json :=
  match store.get? requestId with
  | none => .null
  | some record => .obj (block record).items

def statusText : Rsm.Materialization → String
  | .absent => "absent"
  | .active => "active"
  | .terminal => "terminal"
  | .persisted => "persisted"
  | .retained => "retained"
  | .evicted => "evicted"

def absentCandidate (requestId : String) (status : Rsm.Materialization) : Candidate where
  id := "rsm:" ++ requestId ++ ":absent"
  sectionName := "knowledge"
  content := tieredContent .null .null .null
  score := .null
  stale := some .null
  provenance := provenanceOf [("source", .str "rsm"), ("request_id", .str requestId),
    ("status", .str (statusText status))]
  contradiction := false

def blockCandidate (requestId : String) (status : Rsm.Materialization) (name : String)
    (value : Json) : Candidate where
  id := "rsm:" ++ requestId ++ ":" ++ name
  sectionName := "knowledge"
  content := tieredContent value (.str (name ++ ":" ++ value.pyStr)) (.str name)
  score := .null
  stale := some .null
  provenance := provenanceOf [("source", .str "rsm"), ("request_id", .str requestId),
    ("block", .str name), ("status", .str (statusText status))]
  contradiction := false

/-- The request has no record that may be read: `None` without a store. -/
def Absent : Prop :=
  store.stateOf requestId = .absent ∨ store.stateOf requestId = .evicted

instance (store : Rsm.Store) (requestId : String) : Decidable (Absent store requestId) :=
  inferInstanceAs (Decidable (_ ∨ _))

/-- `gather_rsm` with the blocks `RSM_BLOCKS`. -/
def gatherRsm :
    Except PyError (List Candidate) :=
  let status := store.stateOf requestId
  if Absent store requestId then .ok [absentCandidate requestId status]
  else do
    let budget ← budgetView floatMinus store requestId
    return [blockCandidate requestId status "identity" (blockOf (·.identity) store requestId),
      blockCandidate requestId status "plan" (blockOf (·.plan) store requestId),
      blockCandidate requestId status "budget" budget]

/-- The reads of the store, which are skipped without one. -/
def blocksOf (store : Option Rsm.Store) (requestId : String) :
    Except PyError (List Candidate) :=
  match store with
  | none => .ok []
  | some store => gatherRsm floatMinus store requestId

def referenceSections : List String := ["knowledge", "experience"]

def partitionColon (text : String) : String × String :=
  (String.ofList (text.toList.takeWhile (· ≠ ':')),
    String.ofList ((text.toList.dropWhile (· ≠ ':')).drop 1))

def referenceCandidate (ref : String) : Candidate where
  id := "ref:" ++ ref
  sectionName := (partitionColon ref).1
  content := tieredContent (.str (partitionColon ref).2) (.str (partitionColon ref).2)
    (.str (partitionColon ref).2)
  score := .null
  stale := some .null
  provenance := provenanceOf [("source", .str "reference"), ("ref", .str ref)]
  contradiction := false

def resolveReferences (references : List String) : Except Failure (List Candidate) :=
  references.mapM fun ref ↦
    if (partitionColon ref).2 = "" ∨ (partitionColon ref).1 ∉ referenceSections then
      .error (.refused ("sources.bad_reference:" ++ ref))
    else .ok (referenceCandidate ref)

def gather (scoring : Ums.Scoring) (floatMinus : Rsm.FloatSum) (spec : Spec) (bundle : Ums.Bundle)
    (requestId : String) (store : Option Rsm.Store) (queryClass : Option Ums.QueryClass) :
    Except Failure (List Candidate) := do
  let hits := gatherUms scoring bundle spec queryClass
  let blocks ← (blocksOf floatMinus store requestId).mapError .raised
  let references ← resolveReferences spec.references
  return hits ++ blocks ++ references

end AbsoluteZero.Cm

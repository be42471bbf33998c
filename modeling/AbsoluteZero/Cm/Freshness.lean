import AbsoluteZero.Cm.Sources
import AbsoluteZero.Cm.Validation

/-!
# The cache of artifacts and its freshness

Artifacts are cached under a key until a notification names a path that one of their items traces
back to. The id of a contradicting file variant ends in a digest that the code reads as a part of
the path, so a notification never reaches the artifact through it; `served_fresh` is what the cache
guarantees.
-/

namespace AbsoluteZero.Cm

open Foundations List

/-- `text[len(start):]` where the text starts so. -/
def afterStart (start text : String) : Option (List Char) :=
  if start.toList <+: text.toList then some (text.toList.drop start.toList.length) else none

theorem afterStart_append (start rest : String) :
    afterStart start (start ++ rest) = some rest.toList := by
  unfold afterStart
  rw [String.toList_append, if_pos (prefix_append _ _), drop_left]

/-- `rest.rpartition(":")[0]`. -/
def beforeLastColon (rest : List Char) : List Char :=
  ((rest.reverse.dropWhile (· ≠ ':')).drop 1).reverse

theorem beforeLastColon_append (path : List Char) {name : List Char} (hname : ':' ∉ name) :
    beforeLastColon (path ++ ':' :: name) = path := by
  have hskip : ∀ char ∈ name.reverse, (decide (char ≠ ':')) = true := by
    intro char hchar
    refine decide_eq_true fun heq ↦ hname ?_
    rw [← heq]
    exact mem_reverse.mp hchar
  unfold beforeLastColon
  rw [reverse_append, reverse_cons, append_assoc, dropWhile_append_of_pos hskip, singleton_append,
    dropWhile_cons_of_neg (by decide), drop_one, tail_cons, reverse_reverse]

/-- `(path,) if path else ()`. -/
def pathIfAny (path : List Char) : List Json := if path = [] then [] else
    [.str (String.ofList path)]

def itemPaths (item : Item) : List Json :=
  match item.provenance.get? "path" with
  | some path => [path]
  | none =>
    if item.provenance.get? "source" ≠ some (.str "ums") then []
    else
      match afterStart "sym:" item.id with
      | some rest => pathIfAny (beforeLastColon rest)
      | none =>
        match afterStart "file:" item.id with
        | some rest => pathIfAny rest
        | none => []

def artifactPaths (memory : RequestMemory) : List Json := memory.items.flatMap itemPaths

/-! ### The cache -/

structure Entry where
  artifact : RequestMemory
  invalidated : Bool

abbrev Key := String × String

abbrev Cache := OrderedDict Key Entry

namespace Cache

/-- `get`: nothing for an absent or invalidated entry. -/
def get (cache : Cache) (key : Key) : Option RequestMemory :=
  match cache.get? key with
  | none => none
  | some entry => if entry.invalidated then none else some entry.artifact

def put (cache : Cache) (key : Key) (artifact : RequestMemory) : Cache :=
  cache.insert key ⟨artifact, false⟩

/-- `invalidate`, for an entry that is there. -/
def invalidate (cache : Cache) (key : Key) (entry : Entry) : Cache :=
  cache.insert key { entry with invalidated := true }

/-- The loop of `on_index_updated` over the cached keys. The publish after `published` others may
fail; an item whose stamped path cannot be hashed raises when its artifact is looked at. The flag
says that the loop ran to its end. -/
def sweep (changed : List String) (failsAt : Option Nat) : List Key → Nat → Cache → Cache × Bool
  | [], _, cache => (cache, true)
  | key :: rest, published, cache =>
    match cache.get? key with
    | none => sweep changed failsAt rest published cache
    | some entry =>
      if entry.invalidated then sweep changed failsAt rest published cache
      else if ∃ path ∈ artifactPaths entry.artifact, path.hashable = false then (cache, false)
      else if ∃ path ∈ changed, .str path ∈ artifactPaths entry.artifact then
        if failsAt = some published then (cache.invalidate key entry, false)
        else sweep changed failsAt rest (published + 1) (cache.invalidate key entry)
      else sweep changed failsAt rest published cache

def onIndexUpdated (cache : Cache) (changed : List String) (failsAt : Option Nat) : Cache × Bool :=
  if changed = [] then (cache, true) else sweep changed failsAt cache.keys 0 cache

variable {memory : RequestMemory} {cache : Cache} {key : Key}

theorem get_eq_some_iff :
    cache.get key = some memory ↔ cache.get? key = some ⟨memory, false⟩ := by
  unfold get
  cases hentry : cache.get? key with
  | none => simp
  | some entry =>
    obtain ⟨artifact, invalidated⟩ := entry
    cases invalidated <;> simp

theorem get_put (cache : Cache) (key other : Key) (artifact : RequestMemory) :
    (cache.put key artifact).get other = if key = other then some artifact else
      cache.get other := by
  unfold get put
  rw [OrderedDict.get?_insert]
  by_cases hkey : key = other
  · rw [if_pos hkey, if_pos hkey]
    rfl
  · rw [if_neg hkey, if_neg hkey]

theorem get_invalidate (cache : Cache) (key other : Key) (entry : Entry) :
    (cache.invalidate key entry).get other = if key = other then none else cache.get other := by
  unfold get invalidate
  rw [OrderedDict.get?_insert]
  by_cases hkey : key = other
  · rw [if_pos hkey, if_pos hkey]
    rfl
  · rw [if_neg hkey, if_neg hkey]

/-- What the sweep leaves can be served as before, and, if the sweep ran to its end, traces back to
no path that changed. -/
theorem get_sweep {changed : List String} {failsAt : Option Nat} {keys : List Key} {published : Nat}
    (hget : (sweep changed failsAt keys published cache).1.get key = some memory) :
    cache.get key = some memory ∧
      ((sweep changed failsAt keys published cache).2 = true → key ∈ keys →
        ∀ path ∈ changed, .str path ∉ artifactPaths memory) := by
  induction keys generalizing published cache with
  | nil => exact ⟨hget, fun _ hkey ↦ absurd hkey not_mem_nil⟩
  | cons head rest ih =>
    have hskip : (∀ entry, cache.get? head = some entry → entry.invalidated = true ∨
          ∀ path ∈ changed, .str path ∉ artifactPaths entry.artifact) →
        sweep changed failsAt (head :: rest) published cache =
          sweep changed failsAt rest published cache →
        cache.get key = some memory ∧
          ((sweep changed failsAt (head :: rest) published cache).2 = true → key ∈ head :: rest →
            ∀ path ∈ changed, .str path ∉ artifactPaths memory) := by
      intro hhead hsame
      rw [hsame] at hget ⊢
      obtain ⟨hbefore, hrest⟩ := ih hget
      refine ⟨hbefore, fun hdone hkey ↦ ?_⟩
      rcases mem_cons.mp hkey with rfl | hkey
      · rcases hhead _ (get_eq_some_iff.mp hbefore) with hinvalid | hclean
        · cases hinvalid
        · exact hclean
      · exact hrest hdone hkey
    cases hentry : cache.get? head with
    | none => exact hskip (fun entry h ↦ by rw [hentry] at h; cases h) (by rw [sweep, hentry])
    | some entry =>
      by_cases hinvalid : entry.invalidated = true
      · refine hskip (fun other h ↦ ?_) (by simp only [sweep, hentry, if_pos hinvalid])
        rw [hentry] at h
        cases h
        exact .inl hinvalid
      · by_cases hhash : ∃ path ∈ artifactPaths entry.artifact, path.hashable = false
        · have hsweep : sweep changed failsAt (head :: rest) published cache = (cache, false) := by
            simp only [sweep, hentry, if_neg hinvalid, if_pos hhash]
          rw [hsweep] at hget ⊢
          exact ⟨hget, nofun⟩
        · by_cases hoverlap : ∃ path ∈ changed, .str path ∈ artifactPaths entry.artifact
          · have hinvalidated : ∀ {result}, (cache.invalidate head entry).get key = some result →
                cache.get key = some result ∧ key ≠ head := by
              intro result hresult
              rw [get_invalidate] at hresult
              split at hresult
              · cases hresult
              · next hne => exact ⟨hresult, fun heq ↦ hne heq.symm⟩
            by_cases hfails : failsAt = some published
            · have hsweep : sweep changed failsAt (head :: rest) published cache =
                  (cache.invalidate head entry, false) := by
                simp only [sweep, hentry, if_neg hinvalid, if_neg hhash, if_pos hoverlap,
                  if_pos hfails]
              rw [hsweep] at hget ⊢
              exact ⟨(hinvalidated hget).1, nofun⟩
            · have hsweep : sweep changed failsAt (head :: rest) published cache =
                  sweep changed failsAt rest (published + 1) (cache.invalidate head entry) := by
                simp only [sweep, hentry, if_neg hinvalid, if_neg hhash, if_pos hoverlap,
                  if_neg hfails]
              rw [hsweep] at hget ⊢
              obtain ⟨hmiddle, hrest⟩ := ih hget
              obtain ⟨hbefore, hne⟩ := hinvalidated hmiddle
              exact ⟨hbefore, fun hdone hkey ↦ hrest hdone ((mem_cons.mp hkey).resolve_left hne)⟩
          · refine hskip (fun other h ↦ ?_)
              (by simp only [sweep, hentry, if_neg hinvalid, if_neg hhash, if_neg hoverlap])
            rw [hentry] at h
            cases h
            exact .inr fun path hpath hmem ↦ hoverlap ⟨path, hpath, hmem⟩

/-- After a notification that was handled, nothing that is served traces back to a path it named. -/
theorem get_onIndexUpdated {changed : List String} {failsAt : Option Nat}
    (hget : (cache.onIndexUpdated changed failsAt).1.get key = some memory) :
    cache.get key = some memory ∧ ((cache.onIndexUpdated changed failsAt).2 = true →
      ∀ path ∈ changed, .str path ∉ artifactPaths memory) := by
  unfold onIndexUpdated at hget ⊢
  by_cases hnone : changed = []
  · rw [if_pos hnone] at hget ⊢
    exact ⟨hget, fun _ path hpath ↦ absurd (hnone ▸ hpath) not_mem_nil⟩
  · rw [if_neg hnone] at hget ⊢
    obtain ⟨hbefore, hclean⟩ := get_sweep hget
    refine ⟨hbefore, fun hdone ↦ hclean hdone ?_⟩
    have hentry := get_eq_some_iff.mp hbefore
    by_contra hkey
    rw [(OrderedDict.get?_eq_none_iff cache).mpr hkey] at hentry
    cases hentry

end Cache

def Item.sourceId (item : Item) : String := item.originalId.getD item.id

/-- The item was retrieved from a path: its provenance is stamped with the path, or it is a hit of
the repository index whose candidate has the id of a file with that path or of a symbol in it. A
path is not empty, and the qualified name of a symbol has no colon. -/
def RetrievedFrom (item : Item) (path : String) : Prop :=
  path ≠ "" ∧
    match item.provenance.get? "path" with
    | some stamped => stamped = .str path
    | none => item.provenance.get? "source" = some (.str "ums") ∧
        ((∃ name : String, ':' ∉ name.toList ∧ item.sourceId = "sym:" ++ path ++ ":" ++ name) ∨
          item.sourceId = "file:" ++ path)

def FileVariant (item : Item) (path : String) : Prop :=
  item.contradiction = true ∧ item.provenance.get? "path" = none ∧ item.sourceId = "file:" ++ path

/-- Every contradicting file variant is accompanied by another item that was retrieved from its path
and is none. -/
def Accompanied (items : List Item) : Prop :=
  ∀ item ∈ items, ∀ path, FileVariant item path → RetrievedFrom item path →
    ∃ other ∈ items, RetrievedFrom other path ∧ ¬ FileVariant other path

section Paths

variable {hashing : Hashing} {item : Item} {path : String}

theorem pathIfAny_toList (hpath : path ≠ "") : pathIfAny path.toList = [.str path] := by
  unfold pathIfAny
  rw [if_neg (fun hnil ↦ hpath (String.toList_eq_nil_iff.mp hnil)), String.ofList_toList]

theorem colon_notMem_variantDigest (content : Json) :
    ':' ∉ (hashing.variantDigest content).toList := by
  intro hmem
  rcases hashing.hex_variantDigest content ':' hmem with hdigit | ⟨hle, -⟩
  · exact absurd hdigit (by decide)
  · exact absurd hle (by decide)

/-- The path of an item is read from the id that assembly gives it, unless it is a contradicting
variant of a file. -/
theorem mem_itemPaths (hitem : item.originalId = none) (hretrieved : RetrievedFrom item path)
    (hvariant : ¬ FileVariant item path) : .str path ∈ itemPaths (disambiguate hashing item) := by
  obtain ⟨hpath, hretrieved⟩ := hretrieved
  unfold itemPaths
  rw [provenance_disambiguate]
  cases hstamp : item.provenance.get? "path" with
  | some stamped =>
    rw [hstamp] at hretrieved
    obtain rfl := hretrieved
    exact mem_singleton.mpr rfl
  | none =>
    rw [hstamp] at hretrieved
    obtain ⟨hsource, hid⟩ := hretrieved
    have hsourceId : item.sourceId = item.id := by
      unfold Item.sourceId
      rw [hitem, Option.getD_none]
    rw [hsourceId] at hid
    simp only [hsource, ne_eq, not_true_eq_false, if_false]
    have hsymbol : ∀ name : String, ':' ∉ name.toList →
        (disambiguate hashing item).id = "sym:" ++ (path ++ ":" ++ name) →
        .str path ∈ (match afterStart "sym:" (disambiguate hashing item).id with
          | some rest => pathIfAny (beforeLastColon rest)
          | none =>
            match afterStart "file:" (disambiguate hashing item).id with
            | some rest => pathIfAny rest
            | none => []) := by
      intro name hname hassembled
      rw [hassembled, afterStart_append, String.toList_append, String.toList_append, append_assoc]
      change .str path ∈ pathIfAny (beforeLastColon (path.toList ++ ':' :: name.toList))
      rw [beforeLastColon_append _ hname, pathIfAny_toList hpath]
      exact mem_singleton.mpr rfl
    cases hflag : item.contradiction with
    | true =>
      have hassembled : (disambiguate hashing item).id =
          item.id ++ "#" ++ hashing.variantDigest item.content := by
        rw [disambiguate, if_pos hflag]
      rcases hid with ⟨name, hname, hid⟩ | hid
      · refine hsymbol (name ++ "#" ++ hashing.variantDigest item.content) ?_ ?_
        · have hdigest := @colon_notMem_variantDigest hashing item.content
          simp [hname, hdigest]
        · rw [hassembled, hid]
          simp only [String.append_assoc]
      · exact absurd ⟨hflag, hstamp, hsourceId.trans hid⟩ hvariant
    | false =>
      have hassembled : (disambiguate hashing item).id = item.id := by
        rw [disambiguate, if_neg (Bool.eq_false_iff.mp hflag)]
      rcases hid with ⟨name, hname, hid⟩ | hid
      · refine hsymbol name hname ?_
        rw [hassembled, hid]
        simp only [String.append_assoc]
      · have hnone : afterStart "sym:" ("file:" ++ path) = none := by
          unfold afterStart
          rw [if_neg]
          intro hextends
          rw [String.toList_append] at hextends
          exact absurd (cons_prefix_cons.mp hextends).1 (by decide)
        rw [hassembled, hid, hnone, afterStart_append]
        simp only
        rw [pathIfAny_toList hpath]
        exact mem_singleton.mpr rfl

theorem retrievedFrom_disambiguate (hitem : item.originalId = none) :
    RetrievedFrom (disambiguate hashing item) path ↔ RetrievedFrom item path := by
  have hid : (disambiguate hashing item).sourceId = item.sourceId := by
    unfold Item.sourceId
    rw [originalId_disambiguate hitem, hitem, Option.getD_none]
  unfold RetrievedFrom
  rw [provenance_disambiguate, hid]

end Paths

/-- Every path that an item was retrieved from is one that the artifact traces back to. -/
def Traced (memory : RequestMemory) : Prop :=
  ∀ item ∈ memory.items, ∀ path, RetrievedFrom item path → .str path ∈ artifactPaths memory

/-! ### Runs of the cache layer -/

/-- The arguments of an assembly, and whether the bus takes its events. -/
structure Request where
  spec : Spec
  candidates : List Candidate
  config : ConfigView
  published : Bool

/-- A call of the cache layer. The publish of a notification that may fail is given by its
number. -/
inductive Op
  | getOrAssemble (key : Key) (request : Request)
  | rebuild (key : Key) (request : Request)
  | indexUpdated (paths : List String) (failsAt : Option Nat)

/-- The cache, and for each key the paths named in notifications that were handled after its
artifact was put. -/
structure Machine where
  cache : Cache
  named : Key → List String

def Machine.start : Machine := ⟨.empty, fun _ ↦ []⟩

section Runs

variable (hashing : Hashing) (floats : FloatShare)

variable (machine : Machine)

/-- `rebuild`: assemble and put, unless the assembly or one of its events raises. -/
def Machine.rebuild (key : Key) (request : Request) :
    Machine × Option RequestMemory :=
  match assemble hashing floats request.spec request.candidates request.config none with
  | .error _ => (machine, none)
  | .ok memory =>
    if request.published then
      (⟨machine.cache.put key memory, Function.update machine.named key []⟩, some memory)
    else (machine, none)

/-- `get_or_assemble`, with whether the artifact was assembled. -/
def Machine.getOrAssemble (key : Key) (request : Request) :
    Machine × Option (RequestMemory × Bool) :=
  match machine.cache.get key with
  | some cached => (machine, some (cached, false))
  | none =>
    let result := machine.rebuild hashing floats key request
    (result.1, result.2.map fun memory ↦ (memory, true))

/-- `on_index_updated`. A notification whose handler raises is not handled. -/
def Machine.indexUpdated (paths : List String) (failsAt : Option Nat) : Machine :=
  let result := machine.cache.onIndexUpdated paths failsAt
  ⟨result.1, if result.2 then fun key ↦ machine.named key ++ paths else machine.named⟩

/-- A call of the cache layer. -/
def Machine.step : Op → Machine
  | .getOrAssemble key request => (machine.getOrAssemble hashing floats key request).1
  | .rebuild key request => (machine.rebuild hashing floats key request).1
  | .indexUpdated paths failsAt => machine.indexUpdated paths failsAt

/-- The machine after a sequence of calls. -/
def Machine.run (ops : List Op) : Machine :=
  ops.foldl (Machine.step hashing floats) .start

/-- What an assembly places has accompanied file variants. -/
def Request.Accompanied (request : Request) : Prop :=
  ∀ fitted, fit floats request.config request.spec.budgetTokens request.candidates = .ok fitted →
    Cm.Accompanied fitted.items

def Op.Accompanied : Op → Prop
  | .getOrAssemble _ request => request.Accompanied floats
  | .rebuild _ request => request.Accompanied floats
  | .indexUpdated _ _ => True

/-- Whatever is served traces back to the paths of its items, none of which was named since it was
put. -/
def Machine.Fresh : Prop :=
  ∀ key memory, machine.cache.get key = some memory →
    Traced memory ∧ ∀ path ∈ machine.named key, ∀ item ∈ memory.items, ¬ RetrievedFrom item path

variable {hashing floats} {request : Request}

theorem traced_of_assemble {memory : RequestMemory} (haccompanied : request.Accompanied floats)
    (hassemble : assemble hashing floats request.spec request.candidates request.config none =
      .ok memory) : Traced memory := by
  obtain ⟨fitted, hfit, rfl⟩ := exists_fit_of_assemble hassemble
  have haccounts := accounts_of_fit hfit
  have hperm := @perm_items_buildMemory hashing floats request.config request.spec none _ fitted
    hfit request.candidates.length
  intro item hitem path hretrieved
  obtain ⟨placed, hplaced, rfl⟩ := mem_map.mp (hperm.mem_iff.mp hitem)
  have horiginal := (haccounts.offered placed hplaced).1
  have hretrieved' := (retrievedFrom_disambiguate horiginal).mp hretrieved
  obtain ⟨other, hother, hotherRetrieved, hplain⟩ : ∃ other ∈ fitted.items,
      RetrievedFrom other path ∧ ¬ FileVariant other path := by
    by_cases hvariant : FileVariant placed path
    · exact haccompanied fitted hfit placed hplaced path hvariant hretrieved'
    · exact ⟨placed, hplaced, hretrieved', hvariant⟩
  refine mem_flatMap.mpr ⟨disambiguate hashing other,
    hperm.mem_iff.mpr (mem_map_of_mem hother), ?_⟩
  exact mem_itemPaths (haccounts.offered other hother).1 hotherRetrieved hplain

variable {machine : Machine}

theorem Machine.Fresh.rebuild (hfresh : machine.Fresh) (key : Key)
    (haccompanied : request.Accompanied floats) :
    (machine.rebuild hashing floats key request).1.Fresh := by
  cases hassemble : assemble hashing floats request.spec request.candidates request.config none with
  | error failure =>
    simp only [Machine.rebuild, hassemble]
    exact hfresh
  | ok memory =>
    by_cases hpublished : request.published = true
    · simp only [Machine.rebuild, hassemble, if_pos hpublished]
      intro other served hget
      rw [Cache.get_put] at hget
      by_cases hkey : key = other
      · rw [if_pos hkey] at hget
        cases hget
        have hnone : Function.update machine.named key [] other = [] := by
          rw [← hkey, Function.update_self]
        refine ⟨traced_of_assemble haccompanied hassemble, fun path hpath ↦ ?_⟩
        change path ∈ Function.update machine.named key [] other at hpath
        rw [hnone] at hpath
        cases hpath
      · rw [if_neg hkey] at hget
        have hsame : Function.update machine.named key [] other = machine.named other :=
          Function.update_of_ne (Ne.symm hkey) _ _
        obtain ⟨htraced, hnamed⟩ := hfresh other served hget
        exact ⟨htraced, fun path hpath ↦ hnamed path (hsame ▸ hpath)⟩
    · simp only [Machine.rebuild, hassemble, if_neg hpublished]
      exact hfresh

theorem Machine.Fresh.indexUpdated (hfresh : machine.Fresh) (paths : List String)
    (failsAt : Option Nat) : (machine.indexUpdated paths failsAt).Fresh := by
  intro key memory hget
  obtain ⟨hbefore, hclean⟩ := Cache.get_onIndexUpdated hget
  obtain ⟨htraced, hnamed⟩ := hfresh key memory hbefore
  refine ⟨htraced, fun path hpath item hitem hretrieved ↦ ?_⟩
  change path ∈ (if (machine.cache.onIndexUpdated paths failsAt).2 then
    fun key ↦ machine.named key ++ paths else machine.named) key at hpath
  by_cases hhandled : (machine.cache.onIndexUpdated paths failsAt).2 = true
  · rw [if_pos hhandled] at hpath
    rcases mem_append.mp hpath with hpath | hpath
    · exact hnamed path hpath item hitem hretrieved
    · exact hclean hhandled path hpath (htraced item hitem path hretrieved)
  · rw [if_neg hhandled] at hpath
    exact hnamed path hpath item hitem hretrieved

theorem Machine.Fresh.step (hfresh : machine.Fresh) {op : Op}
    (hop : op.Accompanied floats) : (machine.step hashing floats op).Fresh := by
  cases op with
  | getOrAssemble key request =>
    change (machine.getOrAssemble hashing floats key request).1.Fresh
    cases hcached : machine.cache.get key with
    | some cached =>
      simp only [Machine.getOrAssemble, hcached]
      exact hfresh
    | none =>
      simp only [Machine.getOrAssemble, hcached]
      exact hfresh.rebuild key hop
  | rebuild key request => exact hfresh.rebuild key hop
  | indexUpdated paths failsAt => exact hfresh.indexUpdated paths failsAt

theorem Machine.fresh_run {ops : List Op} (hops : ∀ op ∈ ops, op.Accompanied floats) :
    (Machine.run hashing floats ops).Fresh := by
  unfold Machine.run
  have hstart : Machine.start.Fresh := fun key memory hget ↦ nomatch hget
  generalize Machine.start = machine at hstart ⊢
  induction ops generalizing machine with
  | nil => exact hstart
  | cons op rest ih =>
    exact ih (fun other hother ↦ hops other (mem_cons_of_mem _ hother)) _
      (hstart.step (hops op mem_cons_self))

/-- Assumes: every contradicting file variant that an assembly of the run places is accompanied. An
artifact that is served from the cache has no item that was retrieved from a path named since the
artifact was put. -/
theorem served_fresh {ops : List Op} (hops : ∀ op ∈ ops, op.Accompanied floats) {key : Key}
    {memory : RequestMemory}
    (hserved : ((Machine.run hashing floats ops).getOrAssemble hashing floats key request).2 =
      some (memory, false)) :
    ∀ path ∈ (Machine.run hashing floats ops).named key, ∀ item ∈ memory.items,
      ¬ RetrievedFrom item path := by
  have hget : (Machine.run hashing floats ops).cache.get key = some memory := by
    cases hcached : (Machine.run hashing floats ops).cache.get key with
    | some cached =>
      simp only [Machine.getOrAssemble, hcached] at hserved
      cases hserved
      rfl
    | none =>
      simp only [Machine.getOrAssemble, hcached] at hserved
      obtain ⟨assembled, -, heq⟩ := Option.map_eq_some_iff.mp hserved
      cases heq
  exact (Machine.fresh_run hops key memory hget).2

end Runs

def freshSpec : Spec := ⟨"r1", "core", 10, [], [], []⟩

def fileHit (text : String) : Candidate :=
  hitCandidate freshSpec .concept ⟨"file:core.py", "core.py", .file, (1, "1.0"), false,
    "full", text⟩

/-- The digests of two texts. -/
def freshHashing : Hashing :=
  tableHashing
    [(.str "one", "49e9fcfb5617aad332d56d58ffd0c7020d29ec1d0d0a03b7d7c47f268820acf3"),
      (.str "two", "b85d38dc71a8027700bebd3c30d39424852cf532883d88f0a0d992d3bf0eba9b")]
    [(.str "one", "49e9fcfb"), (.str "two", "b85d38dc")]
    "7f6e9b8f03185b830cf16043ff22c3c101d316d7720465663a464a721a34f16f" "b6158a39212b0969a5b1cc9c"
    (by decide) (by decide)

def requestOf (candidates : List Candidate) : Request where
  spec := freshSpec
  candidates := prioritize defaultConfig (dedup freshHashing candidates)
  config := defaultConfig
  published := true

def freshKey : Key := ("r1", "7f6e9b8f03185b830cf16043ff22c3c101d316d7720465663a464a721a34f16f")

/-- One file, which changes and is assembled again before another one changes. -/
def plainOps : List Op :=
  [.getOrAssemble freshKey (requestOf [fileHit "one"]), .indexUpdated ["core.py"] none,
    .getOrAssemble freshKey (requestOf [fileHit "two"]), .indexUpdated ["other.py"] none]

theorem accompanied_plain (text : String) (htext : (fit exactShare defaultConfig 10
    (requestOf [fileHit text]).candidates).toOption.all
      (fun fitted ↦ fitted.items.all fun item ↦ !item.contradiction) = true) :
    (requestOf [fileHit text]).Accompanied exactShare := by
  intro fitted hfit item hitem path hvariant
  change fit exactShare defaultConfig 10 _ = .ok fitted at hfit
  rw [hfit] at htext
  have hplain := all_eq_true.mp htext item hitem
  rw [hvariant.1] at hplain
  cases hplain

theorem served_fresh_plain : ∃ memory,
    ((Machine.run freshHashing exactShare plainOps).getOrAssemble freshHashing exactShare freshKey
      (requestOf [fileHit "two"])).2 = some (memory, false) ∧
      ∀ path ∈ (Machine.run freshHashing exactShare plainOps).named freshKey, ∀ item ∈ memory.items,
        ¬ RetrievedFrom item path := by
  have hserved : ((Machine.run freshHashing exactShare plainOps).getOrAssemble freshHashing
      exactShare freshKey (requestOf [fileHit "two"])).2.any (fun result ↦ !result.2) = true := by
    decide +kernel
  obtain ⟨⟨memory, assembled⟩, hresult, hassembled⟩ := (Option.any_eq_true _ _).mp hserved
  cases assembled with
  | true => cases hassembled
  | false =>
    refine ⟨memory, hresult, served_fresh (fun op hop ↦ ?_) hresult⟩
    simp only [plainOps, mem_cons, not_mem_nil, or_false] at hop
    rcases hop with rfl | rfl | rfl | rfl
    · exact accompanied_plain "one" (by decide +kernel)
    · trivial
    · exact accompanied_plain "two" (by decide +kernel)
    · trivial

/-- Two contradicting variants of a file are assembled, and a notification names the file: the
artifact with both is served from the cache. -/
theorem not_served_fresh_variants : ∃ memory, ((Machine.run freshHashing exactShare
        [.getOrAssemble freshKey (requestOf [fileHit "one", fileHit "two"]),
          .indexUpdated ["core.py"] none]).getOrAssemble freshHashing exactShare freshKey
      (requestOf [fileHit "one", fileHit "two"])).2 = some (memory, false) ∧
      "core.py" ∈ (Machine.run freshHashing exactShare
        [.getOrAssemble freshKey (requestOf [fileHit "one", fileHit "two"]),
          .indexUpdated ["core.py"] none]).named freshKey ∧
      ∃ item ∈ memory.items, RetrievedFrom item "core.py" := by
  have hserved : ((Machine.run freshHashing exactShare
        [.getOrAssemble freshKey (requestOf [fileHit "one", fileHit "two"]),
          .indexUpdated ["core.py"] none]).getOrAssemble freshHashing exactShare freshKey
      (requestOf [fileHit "one", fileHit "two"])).2.any (fun result ↦ !result.2 ∧
        ∃ item ∈ result.1.items, item.sourceId = "file:core.py" ∧
          item.provenance = (fileHit "one").provenance) = true := by
    decide +kernel
  obtain ⟨⟨memory, assembled⟩, hresult, hcheck⟩ := (Option.any_eq_true _ _).mp hserved
  obtain ⟨hassembled, item, hitem, hid, hprovenance⟩ := of_decide_eq_true hcheck
  cases assembled with
  | true => cases hassembled
  | false =>
    refine ⟨memory, hresult, by decide +kernel, item, hitem, by decide, ?_⟩
    rw [hprovenance]
    exact ⟨rfl, .inr hid⟩

end AbsoluteZero.Cm

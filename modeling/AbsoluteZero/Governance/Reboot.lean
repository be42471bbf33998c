import AbsoluteZero.Foundations.DurableLog
import AbsoluteZero.Governance.Activation
import AbsoluteZero.Governance.RuntimeHistory

/-!
# Rebooting governance

The store and the ledger of `boot_governance` count their positions in memory and never read
storage, so a boot runs the bootstrap canon again over whatever storage holds, and what was appended
since the last boot will be written over; a reboot loses nothing exactly when nothing was
(`Vault.survives_iff`).
-/

namespace AbsoluteZero.Governance

open Foundations Call List

/-! ### The constitution -/

def sgpeOperations : List String :=
  ["execution.run", "token-budget.run", "persistence.store", "resource-limit.store", "plugin.bind",
    "model.invoke", "token-budget.invoke", "resource-limit.dispatch", "retry-limit.dispatch",
    "context-limit.assemble", "resource-limit.verify", "approval.waive"]

def sgpeRule (ruleId domain operation selector : String) (effect : Effect)
    (condition : Option Condition) (final : Bool) : Rule where
  ruleId := ruleId
  target := ⟨domain, operation, selector⟩
  effect := effect
  condition := condition
  final := final

def Effect.limitOf (value : Int) : Effect := ⟨.limit, .int value, by simp⟩

def overBudget : Condition := .comparison "usage.tokens" .gte (.ofInt 1000)

def defaultConstitution : List Rule :=
  [sgpeRule "r-exec" "execution" "run" "*" .allow none false,
    sgpeRule "r-exec-budget" "token-budget" "run" "*" (.limitOf 5000) none false,
    sgpeRule "r-persist" "persistence" "store" "*" .allow none false,
    sgpeRule "r-retention" "resource-limit" "store" "*" (.limitOf 30) none false,
    sgpeRule "r-plugin" "plugin" "bind" "*" .requireApproval none false,
    sgpeRule "r-model" "model" "invoke" "*" .allow none false,
    sgpeRule "r-model-cap" "model" "invoke" "*" .deny (some overBudget) false,
    sgpeRule "r-model-budget" "token-budget" "invoke" "*" (.limitOf 1000) none false,
    sgpeRule "r-concurrency" "resource-limit" "dispatch" "*" (.limitOf 4) none false,
    sgpeRule "r-retries" "retry-limit" "dispatch" "*" (.limitOf 3) none false,
    sgpeRule "r-context" "context-limit" "assemble" "*" (.limitOf 8000) none false,
    sgpeRule "r-verify-budget" "resource-limit" "verify" "*" (.limitOf 2) none false,
    sgpeRule "r-no-waiver" "approval" "waive" "*" .deny none true]

def constitution : PolicyDocument where
  header :=
    { scope := .system
      name := "constitution"
      domainRefs := ["execution"]
      provenance := ⟨"system", .str "epoch-0", "constitution"⟩
      vocabularyVersion := 2
      schemaVersion := 1 }
  rules := defaultConstitution
  nodup := by decide

inductive BootError
  | refused (refusal : Refusal)
  | vocabulary (refusal : VocabularyRefusal)
  | bootstrapFailed (errors : List Finding)

section Digest

variable (digest : Json → String)

/-- The second vocabulary of the bootstrap canon. -/
def sgpeVocabulary : Except VocabularyRefusal Vocabulary :=
  defaultVocabulary.evolve none (some (.ofList sgpeOperations)) (some (.ofList ["usage.tokens"]))

/-- The bootstrap canon: vocabulary and constitution, first compilation, first activation. -/
def bootstrap : Call StoreDesk BootError Unit := do
  (appendVocabulary defaultVocabulary).raising .refused
  match sgpeVocabulary with
  | .error refusal => throw (.vocabulary refusal)
  | .ok evolved => do (appendVocabulary evolved).raising .refused
    (appendDocument constitution false).raising .refused
    let desk ← get
    match compileSnapshot digest desk.store desk.store.catalogPosition
        currentCompilerRulesetVersion with
    | .error refusal => throw (.refused refusal)
    | .ok result =>
      if result.outcome ≠ .compiled then
        throw (.bootstrapFailed result.report.errors)
      else
        (activate result).raising .refused

def bootGovernance : Call Storage BootError GovernanceRuntime := do
  let storage ← get
  let fresh := StoreDesk.fresh storage
  let canon : Call StoreDesk BootError Unit :=
    if fresh.store.catalogPosition = 0 then bootstrap digest else pure ()
  let desk := canon.after fresh
  set desk.storage
  match canon.outcome fresh with
  | .error error => throw error
  | .ok _ => return .new desk.storage desk.store .new

end Digest

theorem catalogKey_injective : Function.Injective catalogKey := by
  intro first second hkey
  unfold catalogKey at hkey
  rw [String.append_right_inj] at hkey
  exact SeparatedText.toString_inj hkey

theorem ledgerKey_injective : Function.Injective ledgerKey := by
  intro first second hkey
  unfold ledgerKey at hkey
  rw [String.append_right_inj] at hkey
  exact SeparatedText.toString_inj hkey

theorem catalogKey_ne_ledgerKey (first second : Nat) : catalogKey first ≠ ledgerKey second := by
  intro hkey
  have hhead := congrArg (fun text : String ↦ text.toList[5]?) hkey
  simp [catalogKey, ledgerKey, String.toList_append] at hhead

/-- Entries are written to the desk, one after the other. -/
abbrev StoreDesk.Grows (desk after : StoreDesk) : Prop :=
  Relation.ReflTransGen (fun desk next ↦ ∃ payload, next = StoreDesk.appended desk payload) desk
    after

theorem grows_append (append : Append) : Call.Within StoreDesk.Grows append.call := by
  intro desk
  rcases append.after_call desk with heq | ⟨-, heq⟩
  · rw [heq]
  · rw [heq]
    exact .single ⟨_, rfl⟩

theorem grows_activate (result : CompileResult) : Call.Within StoreDesk.Grows
    (activate result) := by
  intro desk
  unfold activate
  rw [after_get_bind]
  split
  · exact .refl
  · next snapshot hsnapshot =>
    split
    · exact .refl
    · dsimp only
      split
      · exact .refl
      · next recorded hrecorded =>
        exact ((grows_append (.manifest recorded)).bind fun _ ↦ grows_append (.activation _)) desk

theorem grows_bootstrap (digest : Json → String) :
    Call.Within StoreDesk.Grows (bootstrap digest) := by
  refine .bind (grows_append (.vocabulary defaultVocabulary)) fun _ ↦ ?_
  split
  · exact fun desk ↦ .refl
  · next evolved hevolved =>
    refine .bind (grows_append (.vocabulary evolved)) fun _ ↦ ?_
    refine .bind (grows_append (.document constitution false)) fun _ desk ↦ ?_
    rw [after_get_bind]
    split
    · exact .refl
    · next result hresult =>
      split
      · exact .refl
      · exact grows_activate result desk

/-! ### Calls that take a number of writes -/

/-- Storage commits the next writes, so many of them. -/
def Storage.Commits (storage : Storage) (count : Nat) : Prop :=
  ∀ answer ∈ storage.answers.take count, answer = .committed

instance (storage : Storage) (count : Nat) : Decidable (storage.Commits count) := by
  unfold Storage.Commits
  infer_instance

theorem Storage.commits_one (storage : Storage) :
    storage.Commits 1 ↔ storage.answer = .committed := by
  unfold Commits answer
  cases storage.answers <;> simp

theorem Storage.commits_add {storage later : Storage} {first : Nat}
    (hlater : later.answers = storage.answers.drop first) (second : Nat) :
    storage.Commits (first + second) ↔ storage.Commits first ∧ later.Commits second := by
  unfold Commits
  rw [take_add, hlater, forall_mem_append]

/-- A storage that commits every write. -/
def Storage.willing : Storage := ⟨.empty, []⟩

/-- The call is refused over every storage, or it returns exactly where storage commits its next
writes, so many of them, and leads to one and the same store. -/
def Takes {Error Result : Type} (count : Nat) (store : PolicyStore)
    (call : Call StoreDesk Error Result) : Prop :=
  (∀ storage, ∃ error, call.outcome ⟨storage, store⟩ = .error error) ∨
    ∃ result after, after.entries.length = store.entries.length + count ∧ ∀ storage : Storage,
      (storage.Commits count → call.outcome ⟨storage, store⟩ = .ok result ∧
        (call.after ⟨storage, store⟩).store = after ∧
        (call.after ⟨storage, store⟩).storage.answers = storage.answers.drop count) ∧
      (¬ storage.Commits count → ∃ error, call.outcome ⟨storage, store⟩ = .error error)

namespace Takes

variable {Error Result Result' : Type} {count more : Nat} {store : PolicyStore}

theorem throw (error : Error) : Takes count store (throw error : Call StoreDesk Error Result) :=
  .inl fun _ ↦ ⟨error, rfl⟩

theorem get_bind {next : StoreDesk → Call StoreDesk Error Result}
    (hnext : ∀ storage, next ⟨storage, store⟩ = next ⟨.willing, store⟩)
    (htakes : Takes count store (next ⟨.willing, store⟩)) : Takes count store (get >>= next) := by
  have hcall : ∀ storage, (get >>= next).outcome ⟨storage, store⟩ =
        (next ⟨.willing, store⟩).outcome ⟨storage, store⟩ ∧
      (get >>= next).after ⟨storage, store⟩ =
        (next ⟨.willing, store⟩).after ⟨storage, store⟩ := fun storage ↦ by
    rw [← hnext storage]
    exact ⟨rfl, rfl⟩
  simpa only [Takes, hcall] using htakes

theorem raising {Error' : Type} {wrap : Error → Error'} {call : Call StoreDesk Error Result}
    (htakes : Takes count store call) : Takes count store (call.raising wrap) := by
  rcases htakes with hrefused | ⟨result, after, hlength, hends⟩
  · refine .inl fun storage ↦ ?_
    obtain ⟨error, herror⟩ := hrefused storage
    exact ⟨wrap error, by rw [outcome_raising, herror]; rfl⟩
  · refine .inr ⟨result, after, hlength, fun storage ↦ ⟨fun hcommits ↦ ?_, fun hrejects ↦ ?_⟩⟩
    · obtain ⟨hok, hafter⟩ := (hends storage).1 hcommits
      exact ⟨by rw [outcome_raising, hok]; rfl, hafter⟩
    · obtain ⟨error, herror⟩ := (hends storage).2 hrejects
      exact ⟨wrap error, by rw [outcome_raising, herror]; rfl⟩

/-- The writes of two calls add up. -/
theorem bind {call : Call StoreDesk Error Result} {next : Result → Call StoreDesk Error Result'}
    (hcall : Takes count store call) (hnext : ∀ result after, Takes more after (next result)) :
    Takes (count + more) store (call >>= next) := by
  rcases hcall with hrefused | ⟨result, middle, hlength, hends⟩
  · refine .inl fun storage ↦ ?_
    obtain ⟨error, herror⟩ := hrefused storage
    exact ⟨error, by rw [outcome_bind, herror]⟩
  -- where the first call returns, the second one runs over its store
  have hsplit : ∀ storage : Storage, storage.Commits count → ∃ later : Storage,
      later.answers = storage.answers.drop count ∧
      (call >>= next).outcome ⟨storage, store⟩ = (next result).outcome ⟨later, middle⟩ ∧
      (call >>= next).after ⟨storage, store⟩ = (next result).after ⟨later, middle⟩ := by
    intro storage hcommits
    obtain ⟨hok, hstore, hanswers⟩ := (hends storage).1 hcommits
    refine ⟨(call.after ⟨storage, store⟩).storage, hanswers, ?_, ?_⟩
    · rw [outcome_bind, hok, ← hstore]
    · rw [after_bind, hok, ← hstore]
  have hstops : ∀ storage : Storage, ¬ storage.Commits count →
      ∃ error, (call >>= next).outcome ⟨storage, store⟩ = .error error := by
    intro storage hrejects
    obtain ⟨error, herror⟩ := (hends storage).2 hrejects
    exact ⟨error, by rw [outcome_bind, herror]⟩
  rcases hnext result middle with hrefused | ⟨result', after, hlength', hends'⟩
  · refine .inl fun storage ↦ ?_
    by_cases hcommits : storage.Commits count
    · obtain ⟨later, -, houtcome, -⟩ := hsplit storage hcommits
      rw [houtcome]
      exact hrefused later
    · exact hstops storage hcommits
  · refine .inr ⟨result', after, by omega, fun storage ↦ ?_⟩
    by_cases hcommits : storage.Commits count
    · obtain ⟨later, hanswers, houtcome, hafter⟩ := hsplit storage hcommits
      rw [Storage.commits_add hanswers, houtcome, hafter]
      refine ⟨fun hboth ↦ ?_, fun hrejects ↦ ?_⟩
      · obtain ⟨hok, hstore, hlast⟩ := (hends' later).1 hboth.2
        exact ⟨hok, hstore, by rw [hlast, hanswers, drop_drop]⟩
      · exact (hends' later).2 fun hmore ↦ hrejects ⟨hcommits, hmore⟩
    · have hfew : ¬ storage.Commits (count + more) := fun hboth ↦
        hcommits fun answer hanswer ↦ hboth answer (take_subset_take_left _ (by omega) hanswer)
      exact ⟨fun hboth ↦ absurd hboth hfew, fun _ ↦ hstops storage hcommits⟩

theorem catalogAppend (payload : CatalogPayload) (store : PolicyStore) :
    Takes 1 store (Governance.catalogAppend payload) := by
  refine .inr ⟨(), store.extended payload, by simp, fun storage ↦ ?_⟩
  rw [Storage.commits_one, outcome_catalogAppend, after_catalogAppend]
  cases hanswer : storage.answer with
  | committed => simp [StoreDesk.appended, hanswer, Storage.written]
  | rejected => simp

end Takes

theorem takes_vocabulary (vocabulary : Vocabulary) (store : PolicyStore) :
    Takes 1 store (appendVocabulary vocabulary) := by
  refine .get_bind (fun _ ↦ rfl) ?_
  split
  · split
    · exact .throw _
    · exact .catalogAppend _ store
  · split
    · exact .throw _
    · split
      · exact .throw _
      · split
        · exact .throw _
        · exact .catalogAppend _ store

theorem takes_document (document : PolicyDocument) (expectNew : Bool) (store : PolicyStore) :
    Takes 1 store (appendDocument document expectNew) := by
  refine .get_bind (fun _ ↦ rfl) ?_
  dsimp only
  split
  · exact .throw _
  · split
    · exact .throw _
    · refine .get_bind (fun _ ↦ rfl) ?_
      dsimp only
      split
      · exact .throw _
      · exact .catalogAppend _ store

theorem takes_manifest (recorded : SnapshotManifest) (store : PolicyStore) :
    Takes 1 store (appendManifest recorded) := by
  refine .get_bind (fun _ ↦ rfl) ?_
  split
  · exact .throw _
  · exact .catalogAppend _ store

theorem takes_activate (result : CompileResult) (store : PolicyStore) :
    Takes 2 store (activate result) := by
  refine .get_bind (fun _ ↦ rfl) ?_
  split
  · exact .throw _
  · split
    · exact .throw _
    · dsimp only
      split
      · exact .throw _
      · exact (takes_manifest _ store).bind fun _ after ↦ .catalogAppend _ after

theorem takes_bootstrap (digest : Json → String) (store : PolicyStore) :
    Takes 5 store (bootstrap digest) := by
  change Takes (1 + (1 + (1 + 2))) store (bootstrap digest)
  refine (Takes.raising (takes_vocabulary _ store)).bind fun _ first ↦ ?_
  split
  · exact .throw _
  · refine (Takes.raising (takes_vocabulary _ first)).bind fun _ second ↦ ?_
    refine (Takes.raising (takes_document _ _ second)).bind fun _ third ↦ ?_
    refine .get_bind (fun _ ↦ rfl) ?_
    split
    · exact .throw _
    · split
      · exact .throw _
      · exact .raising (takes_activate _ third)

/-! ### What storage holds -/

/-- Storage holds the log of the store and the log of the ledger, and beyond their ends what it held
at the start. -/
structure Storage.Holds (start storage : Storage) (store : PolicyStore) (ledger : GrantLedger) :
    Prop where
  catalog : DurableLog catalogKey start.blobs storage.blobs store.exportLog
  ledger : DurableLog ledgerKey start.blobs storage.blobs ledger.exportLog

/-- Neither the catalog nor the ledger has a gap in storage. -/
structure Storage.Contiguous (storage : Storage) : Prop where
  catalog : Foundations.Contiguous catalogKey storage.blobs
  ledger : Foundations.Contiguous ledgerKey storage.blobs

@[simp] theorem length_exportLog (store : PolicyStore) :
    store.exportLog.length = store.entries.length := length_map _

@[simp] theorem GrantLedger.length_exportLog (ledger : GrantLedger) :
    ledger.exportLog.length = ledger.position := length_map _

/-- What a step writes: nothing, the next entry of the catalog, or the next record of the ledger. -/
inductive Written (storage : Storage) (store : PolicyStore) (ledger : GrantLedger) :
    Storage → PolicyStore → GrantLedger → Prop
  | nothing (next : Storage) (hblobs : next.blobs = storage.blobs) :
      Written storage store ledger next store ledger
  | entry (next : Storage) (payload : CatalogPayload)
      (hblobs : next.blobs = storage.blobs.insert (catalogKey (store.entries.length + 1))
        (CatalogEntry.mk (store.entries.length + 1) payload).toJson) :
      Written storage store ledger next (store.extended payload) ledger
  | record (next : Storage) (record : LedgerRecord)
      (hblobs : next.blobs = storage.blobs.insert (ledgerKey (ledger.position + 1))
        record.toJson) :
      Written storage store ledger next store (ledger.recorded record)

theorem Storage.Holds.written {start storage next : Storage} {store store' : PolicyStore}
    {ledger ledger' : GrantLedger} (hholds : start.Holds storage store ledger)
    (hwritten : Written storage store ledger next store' ledger') :
    start.Holds next store' ledger' := by
  cases hwritten with
  | nothing hblobs => exact ⟨hblobs ▸ hholds.catalog, hblobs ▸ hholds.ledger⟩
  | entry payload hblobs =>
    have hlog : (store.extended payload).exportLog =
        store.exportLog ++ [(CatalogEntry.mk (store.entries.length + 1) payload).toJson] := by
      simp [PolicyStore.exportLog]
    refine ⟨?_, ?_⟩
    · rw [hlog, hblobs, ← length_exportLog]
      exact hholds.catalog.append catalogKey_injective _
    · rw [hblobs]
      exact hholds.ledger.insert (fun position ↦ catalogKey_ne_ledgerKey _ position) _
  | record record hblobs =>
    have hlog : (ledger.recorded record).exportLog = ledger.exportLog ++ [record.toJson] := by
      simp [GrantLedger.exportLog, GrantLedger.recorded]
    refine ⟨?_, ?_⟩
    · rw [hblobs]
      exact hholds.catalog.insert (fun position ↦ (catalogKey_ne_ledgerKey position _).symm) _
    · rw [hlog, hblobs, ← GrantLedger.length_exportLog]
      exact hholds.ledger.append ledgerKey_injective _

theorem written_appended (desk : StoreDesk) (payload : CatalogPayload) (ledger : GrantLedger) :
    Written desk.storage desk.store ledger (desk.appended payload).storage
      (desk.appended payload).store ledger := by
  unfold StoreDesk.appended Storage.written
  cases desk.storage.answer with
  | committed => exact .entry _ payload rfl
  | rejected => exact .nothing _ rfl

theorem written_recorded (desk : LedgerDesk) {record : LedgerRecord}
    (hposition : record.position = desk.ledger.position + 1) (store : PolicyStore) :
    Written desk.storage store desk.ledger (desk.recorded record).storage store
      (desk.recorded record).ledger := by
  unfold LedgerDesk.recorded Storage.written
  cases desk.storage.answer with
  | committed => exact .record _ record (by rw [hposition])
  | rejected => exact .nothing _ rfl

def GovernanceRuntime.performed (digest : Json → String) (runtime : GovernanceRuntime)
    (action : RuntimeAction) : GovernanceRuntime :=
  ((RuntimeHistory.mk runtime []).performed digest action).runtime

def GovernanceRuntime.run (digest : Json → String) (runtime : GovernanceRuntime)
    (actions : List RuntimeAction) : GovernanceRuntime :=
  actions.foldl (performed digest) runtime

/-- An action writes at most one entry or one record. -/
theorem written_performed (digest : Json → String) (runtime : GovernanceRuntime)
    (action : RuntimeAction) : Written runtime.storage runtime.store runtime.ledger
      (runtime.performed digest action).storage (runtime.performed digest action).store
      (runtime.performed digest action).ledger := by
  cases action with
  | author append =>
    change Written _ _ _ (append.call.after ⟨runtime.storage, runtime.store⟩).storage
      (append.call.after ⟨runtime.storage, runtime.store⟩).store runtime.ledger
    rcases append.after_call ⟨runtime.storage, runtime.store⟩ with heq | ⟨-, heq⟩
    · rw [heq]
      exact .nothing _ rfl
    · rw [heq]
      exact written_appended ⟨runtime.storage, runtime.store⟩ _ _
  | admission requestId principal project =>
    rw [GovernanceRuntime.performed, RuntimeHistory.performed, after_admitRequest]
    exact .nothing _ rfl
  | record append =>
    change Written _ _ _ (append.call.after ⟨runtime.storage, runtime.ledger⟩).storage
      runtime.store (append.call.after ⟨runtime.storage, runtime.ledger⟩).ledger
    rcases append.after_call ⟨runtime.storage, runtime.ledger⟩ with heq | ⟨record, hpermits, heq⟩
    · rw [heq]
      exact .nothing _ rfl
    · rw [heq]
      exact written_recorded ⟨runtime.storage, runtime.ledger⟩ hpermits.position_eq _
  | consultation view question =>
    rw [GovernanceRuntime.performed, RuntimeHistory.performed]
    rcases consult_cases digest runtime view question with
      ⟨-, -, hafter⟩ | ⟨slice, snapshot, snapshots, -, -, -, -, hafter⟩
    · rw [hafter]
      exact .nothing _ rfl
    · rw [hafter]
      exact .nothing _ rfl

variable {digest : Json → String} {runtime : GovernanceRuntime} {start : Storage}

section

variable (hholds : start.Holds runtime.storage runtime.store runtime.ledger)

include hholds

theorem Storage.Holds.performed (action : RuntimeAction) :
    start.Holds (runtime.performed digest action).storage (runtime.performed digest action).store
      (runtime.performed digest action).ledger :=
  hholds.written (written_performed digest runtime action)

theorem Storage.Holds.run (actions : List RuntimeAction) :
    start.Holds (runtime.run digest actions).storage (runtime.run digest actions).store
      (runtime.run digest actions).ledger := by
  induction actions generalizing runtime with
  | nil => exact hholds
  | cons action rest ih => exact ih (hholds.performed action)

end

theorem length_le_performed (digest : Json → String) (runtime : GovernanceRuntime)
    (action : RuntimeAction) :
    runtime.store.entries.length ≤ (runtime.performed digest action).store.entries.length := by
  have hwritten := written_performed digest runtime action
  generalize (runtime.performed digest action).store = store at hwritten ⊢
  generalize (runtime.performed digest action).ledger = ledger at hwritten
  cases hwritten with
  | nothing hblobs => exact le_rfl
  | entry payload hblobs => simp
  | record record hblobs => exact le_rfl

theorem length_le_run (digest : Json → String) (runtime : GovernanceRuntime)
    (actions : List RuntimeAction) :
    runtime.store.entries.length ≤ (runtime.run digest actions).store.entries.length := by
  induction actions generalizing runtime with
  | nil => exact le_rfl
  | cons action rest ih => exact (length_le_performed digest runtime action).trans (ih _)

theorem Storage.Holds.grows {desk after : StoreDesk} {ledger : GrantLedger}
    (hholds : start.Holds desk.storage desk.store ledger) (hgrows : desk.Grows after) :
    start.Holds after.storage after.store ledger := by
  induction hgrows with
  | refl => exact hholds
  | tail _ happended ih =>
    obtain ⟨payload, rfl⟩ := happended
    exact ih.written (written_appended _ payload ledger)

theorem Storage.Holds.contiguous {start storage : Storage} {store : PolicyStore}
    {ledger : GrantLedger} (hholds : start.Holds storage store ledger)
    (hstart : start.Contiguous) : storage.Contiguous :=
  ⟨hholds.catalog.contiguous hstart.catalog, hholds.ledger.contiguous hstart.ledger⟩

def bootDesk (digest : Json → String) (storage : Storage) : StoreDesk :=
  (bootstrap digest).after (.fresh storage)

/-- A boot runs the bootstrap canon over a new store, whatever storage holds. -/
theorem bootGovernance_eq (digest : Json → String) (storage : Storage) :
    (bootGovernance digest).after storage = (bootDesk digest storage).storage ∧
      (bootGovernance digest).outcome storage =
        match (bootstrap digest).outcome (.fresh storage) with
        | .error error => .error error
        | .ok _ => .ok (.new (bootDesk digest storage).storage (bootDesk digest storage).store
            .new) := by
  have hempty : (StoreDesk.fresh storage).store.catalogPosition = 0 := rfl
  unfold bootGovernance bootDesk
  rw [outcome_get_bind, after_get_bind]
  simp only [hempty, if_true, outcome_bind, after_bind, outcome_set, after_set]
  cases (bootstrap digest).outcome (.fresh storage) <;> exact ⟨rfl, rfl⟩

theorem holds_bootDesk (digest : Json → String) (storage : Storage) :
    storage.Holds (bootDesk digest storage).storage (bootDesk digest storage).store .new :=
  Storage.Holds.grows ⟨.nil _ _, .nil _ _⟩ (grows_bootstrap digest (.fresh storage))

variable {booted : GovernanceRuntime}

theorem holds_bootGovernance {storage : Storage}
    (hbooted : (bootGovernance digest).outcome storage = .ok booted) :
    booted.storage = (bootGovernance digest).after storage ∧
      storage.Holds booted.storage booted.store booted.ledger := by
  obtain ⟨hafter, houtcome⟩ := bootGovernance_eq digest storage
  cases hcanon : (bootstrap digest).outcome (.fresh storage) with
  | error error =>
    rw [houtcome, hcanon] at hbooted
    cases hbooted
  | ok value =>
    rw [houtcome, hcanon] at hbooted
    cases hbooted
    exact ⟨hafter.symm, holds_bootDesk digest storage⟩

/-- Every boot is refused, or those boots return that can write five entries, and all of them with
one store and without grants. -/
theorem bootGovernance_cases (digest : Json → String) :
    (∀ storage, ∃ error, (bootGovernance digest).outcome storage = .error error) ∨
      ∃ canon : PolicyStore, canon.entries.length = 5 ∧ ∀ storage : Storage,
        (storage.Commits 5 → (bootGovernance digest).outcome storage =
          .ok (.new ((bootGovernance digest).after storage) canon .new)) ∧ (¬ storage.Commits 5 →
          ∃ error, (bootGovernance digest).outcome storage = .error error) := by
  rcases takes_bootstrap digest .new with hrefused | ⟨⟨⟩, canon, hlength, hends⟩
  · refine .inl fun storage ↦ ?_
    obtain ⟨error, herror⟩ := hrefused storage
    exact ⟨error, by rw [(bootGovernance_eq digest storage).2, StoreDesk.fresh, herror]⟩
  · refine .inr ⟨canon, hlength, fun storage ↦ ?_⟩
    obtain ⟨hafter, houtcome⟩ := bootGovernance_eq digest storage
    refine ⟨fun hcommits ↦ ?_, fun hrejects ↦ ?_⟩
    · obtain ⟨hok, hstore, -⟩ := (hends storage).1 hcommits
      rw [houtcome, hafter, StoreDesk.fresh, hok, ← hstore]
      rfl
    · obtain ⟨error, herror⟩ := (hends storage).2 hrejects
      exact ⟨error, by rw [houtcome, StoreDesk.fresh, herror]⟩

/-- A boot that returns ends with five entries. -/
theorem length_bootGovernance {storage : Storage}
    (hbooted : (bootGovernance digest).outcome storage = .ok booted) :
    booted.store.entries.length = 5 := by
  rcases bootGovernance_cases digest with hrefused | ⟨canon, hlength, hends⟩
  · obtain ⟨error, herror⟩ := hrefused storage
    rw [hbooted] at herror
    cases herror
  · by_cases hcommits : storage.Commits 5
    · have hcanon := (hends storage).1 hcommits
      rw [hbooted] at hcanon
      cases hcanon
      exact hlength
    · obtain ⟨error, herror⟩ := (hends storage).2 hcommits
      rw [hbooted] at herror
      cases herror

/-- Once a boot has returned, those boots return that can write five entries, with the same store
and without grants. -/
theorem bootGovernance_again {first : Storage}
    (hbooted : (bootGovernance digest).outcome first = .ok booted)
    (storage : Storage) (rebooted : GovernanceRuntime) :
    (bootGovernance digest).outcome storage = .ok rebooted ↔ storage.Commits 5 ∧
      rebooted = .new ((bootGovernance digest).after storage) booted.store .new := by
  rcases bootGovernance_cases digest with hrefused | ⟨canon, hlength, hends⟩
  · obtain ⟨error, herror⟩ := hrefused first
    rw [hbooted] at herror
    cases herror
  have hcanon : ∀ (storage : Storage) (booted : GovernanceRuntime),
      (bootGovernance digest).outcome storage = .ok booted ↔ storage.Commits 5 ∧
        booted = .new ((bootGovernance digest).after storage) canon .new := by
    intro storage booted
    by_cases hcommits : storage.Commits 5
    · rw [(hends storage).1 hcommits, Except.ok.injEq, eq_comm]
      exact (and_iff_right hcommits).symm
    · obtain ⟨error, herror⟩ := (hends storage).2 hcommits
      rw [herror]
      exact iff_of_false nofun fun hboth ↦ hcommits hboth.1
  rw [hcanon storage rebooted, ((hcanon first booted).mp hbooted).2]
  rfl

/-! ### A vault -/

/-- A vault: its storage, and the governance that was booted over it last, if that boot returned. -/
structure Vault where
  storage : Storage
  system : Option GovernanceRuntime

/-- What happens to a vault: governance is booted over it, or the booted governance acts. -/
inductive VaultAction
  | boot
  | act (action : RuntimeAction)

namespace Vault

/-- A vault that holds nothing. -/
def empty (answers : List WriteAnswer) : Vault := ⟨⟨.empty, answers⟩, none⟩

def performed (digest : Json → String) (vault : Vault) : VaultAction → Vault
  | .boot => ⟨(bootGovernance digest).after vault.storage,
      ((bootGovernance digest).outcome vault.storage).toOption⟩
  | .act action =>
    match vault.system with
    | none => vault
    | some runtime =>
      ⟨(runtime.performed digest action).storage, some (runtime.performed digest action)⟩

def run (digest : Json → String) (vault : Vault) (actions : List VaultAction) : Vault :=
  actions.foldl (performed digest) vault

/-- The governance was booted over some storage without gaps, and its store is still what boots lead
to, or has grown. -/
structure Booted (digest : Json → String) (storage : Storage) (runtime : GovernanceRuntime) :
    Prop where
  storage_eq : runtime.storage = storage
  holds : ∃ start : Storage, start.Contiguous ∧
    start.Holds runtime.storage runtime.store runtime.ledger
  boots : ∃ start booted, (bootGovernance digest).outcome start = .ok booted ∧
    (runtime.store = booted.store ∨ 5 < runtime.store.entries.length)

/-- There is no gap in storage, and it holds what the governance has. -/
structure Sound (digest : Json → String) (vault : Vault) : Prop where
  contiguous : vault.storage.Contiguous
  booted : ∀ runtime ∈ vault.system, Booted digest vault.storage runtime

theorem Sound.empty (digest : Json → String) (answers : List WriteAnswer) :
    (empty answers).Sound digest :=
  ⟨⟨fun _ _ ↦ rfl, fun _ _ ↦ rfl⟩, nofun⟩

variable {storage : Storage}

theorem contiguous_boot (digest : Json → String)
    (hcontiguous : storage.Contiguous) : ((bootGovernance digest).after storage).Contiguous := by
  rw [(bootGovernance_eq digest storage).1]
  exact (holds_bootDesk digest storage).contiguous hcontiguous

variable {digest : Json → String}

theorem Booted.boot {booted : GovernanceRuntime} (hcontiguous : storage.Contiguous)
    (hbooted : (bootGovernance digest).outcome storage = .ok booted) :
    Booted digest ((bootGovernance digest).after storage) booted := by
  obtain ⟨hstorage, hholds⟩ := holds_bootGovernance hbooted
  exact ⟨hstorage, ⟨storage, hcontiguous, hholds⟩, storage, booted, hbooted, .inl rfl⟩

theorem Booted.performed {runtime : GovernanceRuntime}
    (hbooted : Booted digest storage runtime) (action : RuntimeAction) :
    Booted digest (runtime.performed digest action).storage (runtime.performed digest action) := by
  obtain ⟨start, hcontiguous, hholds⟩ := hbooted.holds
  obtain ⟨first, booted, hboot, hstore⟩ := hbooted.boots
  refine ⟨rfl, ⟨start, hcontiguous, hholds.performed action⟩, first, booted, hboot, ?_⟩
  have hwritten := written_performed digest runtime action
  generalize (runtime.performed digest action).store = store at hwritten ⊢
  generalize (runtime.performed digest action).ledger = ledger at hwritten
  cases hwritten with
  | nothing hblobs => exact hstore
  | entry payload hblobs =>
    refine .inr ?_
    rw [PolicyStore.entries_extended, length_append, length_singleton]
    rcases hstore with heq | hlong
    · have hfive := length_bootGovernance hboot
      rw [heq]
      omega
    · omega
  | record record hblobs => exact hstore

theorem Sound.performed {vault : Vault} (hsound : vault.Sound digest)
    (action : VaultAction) : (vault.performed digest action).Sound digest := by
  cases action with
  | boot =>
    refine ⟨contiguous_boot digest hsound.contiguous, fun runtime hruntime ↦ ?_⟩
    exact .boot hsound.contiguous (Checked.toOption_eq_some_iff.mp hruntime)
  | act action =>
    unfold Vault.performed
    cases hsystem : vault.system with
    | none => exact hsound
    | some runtime =>
      have hbooted := (hsound.booted runtime hsystem).performed action
      obtain ⟨start, hcontiguous, hholds⟩ := hbooted.holds
      refine ⟨hholds.contiguous hcontiguous, fun next hnext ↦ ?_⟩
      cases hnext
      exact hbooted

theorem Sound.run {vault : Vault} (hsound : vault.Sound digest)
    (actions : List VaultAction) : (vault.run digest actions).Sound digest := by
  induction actions generalizing vault with
  | nil => exact hsound
  | cons action rest ih => exact ih (hsound.performed action)

end Vault

/-- The bytes stored under a key of the catalog or of the ledger stay under every further action. -/
def GovernanceRuntime.AppendOnly (digest : Json → String) (runtime : GovernanceRuntime) : Prop :=
  ∀ actions action position, ∀ key ∈ [catalogKey position, ledgerKey position], ∀ data,
    (runtime.run digest actions).storage.blobs.get? key = some data →
      ((runtime.run digest actions).performed digest action).storage.blobs.get? key = some data

/-- The rebooted governance has the logs and the active snapshot of the one before, and overwrites
nothing later on. -/
structure Survives (digest : Json → String) (before rebooted : GovernanceRuntime) : Prop where
  catalog : rebooted.store.exportLog = before.store.exportLog
  active : rebooted.activeSnapshotVersion = before.activeSnapshotVersion
  ledger : rebooted.ledger.exportLog = before.ledger.exportLog
  appendOnly : rebooted.AppendOnly digest

/-- A write that finds nothing under its key leaves every stored entry as it is. -/
theorem get?_written {storage next : Storage} {store store' : PolicyStore}
    {ledger ledger' : GrantLedger} (hwritten : Written storage store ledger next store' ledger')
    (hcatalog : storage.blobs.get? (catalogKey (store.entries.length + 1)) = none)
    (hledger : storage.blobs.get? (ledgerKey (ledger.position + 1)) = none) {key : String}
    {data : Json} (hdata : storage.blobs.get? key = some data) :
    next.blobs.get? key = some data := by
  have hinsert : ∀ other value, storage.blobs.get? other = none →
      (storage.blobs.insert other value).get? key = some data := by
    intro other value hnone
    have hne : other ≠ key := fun heq ↦ by
      rw [heq, hdata] at hnone
      cases hnone
    rw [OrderedDict.get?_insert, if_neg hne, hdata]
  cases hwritten with
  | nothing hblobs => rw [hblobs, hdata]
  | entry payload hblobs => rw [hblobs, hinsert _ _ hcatalog]
  | record record hblobs => rw [hblobs, hinsert _ _ hledger]

/-- Logs that begin with what a boot writes, over a storage with nothing beyond it, overwrite
nothing. -/
theorem appendOnly_of_none
    (hcontiguous : start.Contiguous) (hcatalog : start.blobs.get? (catalogKey 6) = none)
    (hledger : start.blobs.get? (ledgerKey 1) = none)
    (hholds : start.Holds runtime.storage runtime.store runtime.ledger)
    (hlength : 5 ≤ runtime.store.entries.length) : runtime.AppendOnly digest := by
  intro actions action position key hkey data hdata
  have hlater : start.Holds (runtime.run digest actions).storage
      (runtime.run digest actions).store (runtime.run digest actions).ledger := hholds.run actions
  have hlong := hlength.trans (length_le_run digest runtime actions)
  refine get?_written (written_performed digest _ action) ?_ ?_ hdata
  · exact hlater.catalog.none_of_length_le hcontiguous.catalog hcatalog hlong (by simp)
  · exact hlater.ledger.none_of_length_le hcontiguous.ledger hledger (Nat.zero_le _) (by simp)

/-- Storage commits after some refused writes, which change nothing. -/
theorem exists_committed (digest : Json → String) (runtime : GovernanceRuntime) :
    ∃ actions, (runtime.run digest actions).storage.answer = .committed ∧
      (runtime.run digest actions).storage.blobs = runtime.storage.blobs ∧
      (runtime.run digest actions).store = runtime.store ∧
      (runtime.run digest actions).ledger = runtime.ledger := by
  obtain ⟨answers, hanswers⟩ : ∃ answers, runtime.storage.answers = answers := ⟨_, rfl⟩
  induction answers generalizing runtime with
  | nil => exact ⟨[], by simp [GovernanceRuntime.run, Storage.answer, hanswers], rfl, rfl, rfl⟩
  | cons answer rest ih =>
    cases answer with
    | committed =>
      exact ⟨[], by simp [GovernanceRuntime.run, Storage.answer, hanswers], rfl, rfl, rfl⟩
    | rejected =>
      have hanswer : runtime.storage.answer = .rejected := by simp [Storage.answer, hanswers]
      let next := runtime.performed digest (.author (.activation ⟨none, 1⟩))
      have hnext : next.storage = ⟨runtime.storage.blobs, rest⟩ ∧ next.store = runtime.store ∧
          next.ledger = runtime.ledger := by
        have hdesk := after_catalogAppend (.activation ⟨none, 1⟩) ⟨runtime.storage, runtime.store⟩
        simp only [StoreDesk.appended, Storage.written, hanswer, hanswers, tail_cons] at hdesk
        exact ⟨congrArg StoreDesk.storage hdesk, congrArg StoreDesk.store hdesk, rfl⟩
      have hsame : next.storage.blobs = runtime.storage.blobs := by rw [hnext.1]
      obtain ⟨actions, hcommitted, hblobs, hstore, hledger⟩ := ih next (by rw [hnext.1])
      exact ⟨.author (.activation ⟨none, 1⟩) :: actions, hcommitted, hblobs.trans hsame,
        hstore.trans hnext.2.1, hledger.trans hnext.2.2⟩

theorem blobs_activation
    (hcommitted : runtime.storage.answer = .committed) (fact : ActivationFact) :
    (runtime.performed digest (.author (.activation fact))).storage.blobs =
      runtime.storage.blobs.insert (catalogKey (runtime.store.entries.length + 1))
        (CatalogEntry.mk (runtime.store.entries.length + 1) (.activation fact)).toJson := by
  have hdesk := after_catalogAppend (.activation fact) ⟨runtime.storage, runtime.store⟩
  simp only [StoreDesk.appended, Storage.written, hcommitted] at hdesk
  exact congrArg (fun desk ↦ desk.storage.blobs) hdesk

def overwritingGrant (signature : String) : LedgerAppend :=
  .grant signature ⟨.request, "r1"⟩ ⟨"alice", 1, 0, 1, "", ""⟩ none

theorem blobs_grant (hcommitted : runtime.storage.answer = .committed) {signature : String}
    (hsignature : signature ≠ "") :
    (runtime.performed digest (.record (overwritingGrant signature))).storage.blobs =
      runtime.storage.blobs.insert (ledgerKey (runtime.ledger.position + 1))
        (grantRecord (runtime.ledger.position + 1) signature ⟨.request, "r1"⟩
          ⟨"alice", 1, 0, 1, "", ""⟩ none).toJson := by
  have hdesk := after_appendGrant signature ⟨.request, "r1"⟩ ⟨"alice", 1, 0, 1, "", ""⟩ none
    ⟨runtime.storage, runtime.ledger⟩
  rw [if_neg hsignature] at hdesk
  simp only [LedgerDesk.recorded, Storage.written, hcommitted] at hdesk
  exact congrArg (fun desk ↦ desk.storage.blobs) hdesk

/-- What stays under every action holds nothing under the key of its next catalog entry. -/
theorem AppendOnly.catalog_none (happendOnly : runtime.AppendOnly digest) :
    runtime.storage.blobs.get? (catalogKey (runtime.store.entries.length + 1)) = none := by
  obtain ⟨actions, hcommitted, hblobs, hstore, -⟩ := exists_committed digest runtime
  by_contra hsome
  obtain ⟨data, hdata⟩ := Option.ne_none_iff_exists'.mp hsome
  have hfact : ∀ fact : ActivationFact,
      (CatalogEntry.mk (runtime.store.entries.length + 1) (.activation fact)).toJson = data := by
    intro fact
    have hkept := happendOnly actions (.author (.activation fact)) _ _ mem_cons_self data
      (hblobs ▸ hdata)
    rw [blobs_activation hcommitted, hstore, OrderedDict.get?_insert, if_pos rfl] at hkept
    exact Option.some.inj hkept
  have hsame := (hfact ⟨none, 1⟩).trans (hfact ⟨none, 2⟩).symm
  simp [CatalogEntry.toJson, CatalogPayload.toJson] at hsame

/-- What stays under every action holds nothing under the key of its next ledger record. -/
theorem AppendOnly.ledger_none (happendOnly : runtime.AppendOnly digest) :
    runtime.storage.blobs.get? (ledgerKey (runtime.ledger.position + 1)) = none := by
  obtain ⟨actions, hcommitted, hblobs, -, hledger⟩ := exists_committed digest runtime
  by_contra hsome
  obtain ⟨data, hdata⟩ := Option.ne_none_iff_exists'.mp hsome
  have hgrant : ∀ signature, signature ≠ "" → (grantRecord (runtime.ledger.position + 1) signature
      ⟨.request, "r1"⟩ ⟨"alice", 1, 0, 1, "", ""⟩ none).toJson = data := by
    intro signature hsignature
    have hkept := happendOnly actions (.record (overwritingGrant signature))
      (runtime.ledger.position + 1) _ (mem_cons_of_mem _ mem_cons_self) data
      (hblobs ▸ hdata)
    rw [blobs_grant hcommitted hsignature, hledger, OrderedDict.get?_insert, if_pos rfl] at hkept
    exact Option.some.inj hkept
  have hsame := (hgrant "a" (by decide)).trans (hgrant "b" (by decide)).symm
  simp [LedgerRecord.toJson, grantRecord] at hsame

/-- Assumes: the vault has governance running. Governance that is booted again over its storage
survives exactly when storage holds the five entries of the canon and no grant, and commits the five
writes of the boot. -/
theorem Vault.survives_iff (digest : Json → String) (answers : List WriteAnswer)
    (actions : List VaultAction) {before : GovernanceRuntime}
    (hbefore : ((Vault.empty answers).run digest actions).system = some before) :
    (∃ rebooted, (bootGovernance digest).outcome before.storage = .ok rebooted ∧
        Survives digest before rebooted) ↔ before.storage.blobs.get? (catalogKey 6) = none ∧
        before.storage.blobs.get? (ledgerKey 1) = none ∧ before.storage.Commits 5 := by
  have hsound := (Sound.empty digest answers).run actions
  have hbooted := hsound.booted before hbefore
  have hcontiguous : before.storage.Contiguous := hbooted.storage_eq ▸ hsound.contiguous
  obtain ⟨first, booted, hboot, hstore⟩ := hbooted.boots
  have hfive := length_bootGovernance hboot
  have hagain := bootGovernance_again hboot before.storage
  constructor
  · rintro ⟨rebooted, hrebooted, hsurvives⟩
    obtain ⟨hcommits, heq⟩ := (hagain rebooted).mp hrebooted
    obtain ⟨-, hholds⟩ := holds_bootGovernance hrebooted
    have hlength := length_bootGovernance hrebooted
    have hcatalog := AppendOnly.catalog_none hsurvives.appendOnly
    have hledger := AppendOnly.ledger_none hsurvives.appendOnly
    rw [hholds.catalog.beyond _ (by simp), hlength] at hcatalog
    rw [heq] at hledger hholds
    rw [hholds.ledger.beyond _ (by simp)] at hledger
    exact ⟨hcatalog, hledger, hcommits⟩
  · rintro ⟨hcatalog, hledger, hcommits⟩
    obtain ⟨start, -, hholds⟩ := hbooted.holds
    -- nothing was appended since the boot
    have hshort : before.store.entries.length ≤ 5 := by
      simpa using hholds.catalog.length_le_of_none hcatalog
    have hbare : before.ledger.records.length = 0 := by
      simpa [GrantLedger.position] using hholds.ledger.length_le_of_none hledger
    have hstores : before.store = booted.store := hstore.resolve_right (by omega)
    have hledgers : before.ledger = .new :=
      congrArg GrantLedger.mk (length_eq_zero_iff.mp hbare)
    have hrebooted := (hagain _).mpr ⟨hcommits, rfl⟩
    refine ⟨_, hrebooted, ?_, ?_, ?_, ?_⟩
    · exact congrArg PolicyStore.exportLog hstores.symm
    · exact congrArg PolicyStore.activeSnapshotVersion hstores.symm
    · exact congrArg GrantLedger.exportLog hledgers.symm
    · obtain ⟨-, hnow⟩ := holds_bootGovernance hrebooted
      exact appendOnly_of_none hcontiguous hcatalog hledger hnow hfive.ge

/-- A vault that was booted and left alone. -/
theorem Vault.survives_sample :
    ∃ before, ((Vault.empty []).run Json.repr [.boot]).system = some before ∧
      ∃ rebooted, (bootGovernance Json.repr).outcome before.storage = .ok rebooted ∧
        Survives Json.repr before rebooted := by
  have hstored : ((Vault.empty []).run Json.repr [.boot]).system.map (fun before ↦
      (before.storage.blobs.get? (catalogKey 6), before.storage.blobs.get? (ledgerKey 1),
        before.storage.answers)) = some (none, none, []) := by
    decide +kernel
  obtain ⟨before, hbefore, hstored⟩ := Option.map_eq_some_iff.mp hstored
  simp only [Prod.mk.injEq] at hstored
  obtain ⟨hcatalog, hledger, hanswers⟩ := hstored
  have hcommits : before.storage.Commits 5 := by simp [Storage.Commits, hanswers]
  exact ⟨before, hbefore,
    (survives_iff Json.repr [] [.boot] hbefore).mpr ⟨hcatalog, hledger, hcommits⟩⟩

def livedVault : Vault :=
  (Vault.empty []).run Json.repr [.boot,
    .act (.author (.document (sampleDocument "team" allowRun) true)),
    .act (.record (overwritingGrant "ask"))]

/-- The number of catalog entries and of ledger records of the running governance. -/
def Vault.sizes (vault : Vault) : Option (Nat × Nat) :=
  vault.system.map fun runtime ↦ (runtime.store.entries.length, runtime.ledger.position)

/-- Booted again, the governance has neither the document nor the grant, and the next document is
written over the stored one. -/
theorem Vault.reboot_forgets :
    let rebooted := livedVault.performed Json.repr .boot
    let later := rebooted.performed Json.repr
      (.act (.author (.document (sampleDocument "other" allowRun) true)))
    livedVault.sizes = some (6, 1) ∧ rebooted.sizes = some (5, 0) ∧
      (rebooted.storage.blobs.get? (catalogKey 6)).isSome ∧
      later.storage.blobs.get? (catalogKey 6) ≠ rebooted.storage.blobs.get? (catalogKey 6) := by
  decide +kernel

end AbsoluteZero.Governance

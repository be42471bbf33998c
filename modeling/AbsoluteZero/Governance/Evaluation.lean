import AbsoluteZero.Governance.Retrieval

/-!
# What an evaluation returns

A well-formed question supplies every fact that the conditions of its operation mention, so no
lookup of a fact fails (`never_missing_decideQuestion`). Once the retrieval has a winner, the rest
of an evaluation never ends in a snapshot that cannot answer (`never_integrity_of_won`).
-/

namespace AbsoluteZero.Governance

open Foundations OrderedDict SortedSet List

/-- The snapshot is compiled from the policy set, which has passed the stages. -/
structure CompiledFrom (assembled : List Assembled) (snapshot : CompiledSnapshot) : Prop where
  entries : snapshot.entries = snapshotEntries assembled
  declared : snapshot.declaredFacts = declaredFacts assembled
  scopes : checkScopeAndModifier assembled = []
  conflicts : conflictErrors assembled = []
  distinct : DistinctCitations assembled

variable {snapshot : CompiledSnapshot}

theorem compiledFrom_assemble {digest : Json → String} {store : PolicyStore}
    {position rulesetVersion : Nat} {result : CompileResult}
    (hresult : compileSnapshot digest store position rulesetVersion = .ok result)
    (hsnapshot : result.snapshot = some snapshot) :
    CompiledFrom (assemble store position) snapshot := by
  obtain ⟨-, vocabulary, -, rfl⟩ := compileSnapshot_eq_ok digest hresult
  obtain ⟨-, hscopes, -, -, hconflicts, rfl⟩ := snapshot_compileAssembled digest hsnapshot
  exact ⟨rfl, rfl, hscopes, hconflicts, distinctCitations_assemble store position⟩

/-- A question about running on a resource, with some facts. -/
def runQuestion (resource : String) (facts : List (String × Scalar)) : Question where
  subsystem := "exec"
  requestId := "r1"
  principal := "alice"
  domain := "execution"
  operation := "run"
  resource := resource
  facts := facts

/-- The computation does not end in such an interruption. -/
def Never {Result : Type} (bad : Interruption → Prop) (result : Except Interruption Result) :
    Prop :=
  ∀ interruption, result = .error interruption → ¬ bad interruption

namespace Never

variable {Result Result' : Type} {bad : Interruption → Prop}

theorem ok (result : Result) : Never bad (.ok result) := nofun

theorem error {interruption : Interruption} (hgood : ¬ bad interruption) :
    Never bad (.error interruption : Except Interruption Result) := fun _ heq ↦ by
  cases heq
  exact hgood

theorem bind {result : Except Interruption Result}
    {next : Result → Except Interruption Result'} (hresult : Never bad result)
    (hnext : ∀ value, Never bad (next value)) : Never bad (result >>= next) := by
  cases result with
  | ok value => exact hnext value
  | error interruption => exact .error (hresult interruption rfl)

end Never

def Interruption.Missing (interruption : Interruption) : Prop :=
  ∃ fact, interruption = .keyError fact

def Supplied (bad : Interruption → Prop) (facts : FactMap) (names : List String) : Prop :=
  ∀ name ∈ names, (∃ value, facts.get? name = some value) ∨ ¬ bad (.keyError name)

variable {bad : Interruption → Prop} {facts : FactMap}

theorem Supplied.of_append
    {names names' : List String} (hsupplied : Supplied bad facts (names ++ names')) :
    Supplied bad facts names ∧ Supplied bad facts names' :=
  ⟨fun name hname ↦ hsupplied name (mem_append_left _ hname),
    fun name hname ↦ hsupplied name (mem_append_right _ hname)⟩

section Conditions

variable {bad : Interruption → Prop} {facts : FactMap}

theorem never_factOf {fact : String} (hsupplied : Supplied bad facts [fact]) :
    Never bad (factOf facts fact) := by
  unfold factOf
  cases hfact : facts.get? fact with
  | some value => exact .ok value
  | none =>
    refine .error ((hsupplied fact (mem_singleton_self fact)).resolve_left ?_)
    rintro ⟨value, hvalue⟩
    exact absurd (hfact.symm.trans hvalue) nofun

theorem never_comparison (hcomparing : ∀ text, ¬ bad (.incomparable text)) (fact : String)
    (op : ComparisonOp) (factValue value : Scalar) :
    Never bad (comparisonSatisfied fact op factValue value) := by
  cases op with
  | eq | ne => exact .ok _
  | _ =>
    unfold comparisonSatisfied
    simp only
    split
    · exact .ok _
    · exact .error (hcomparing _)

mutual

theorem never_condition (hcomparing : ∀ text, ¬ bad (.incomparable text)) :
    ∀ condition : Condition, Supplied bad facts condition.factNames →
      Never bad (conditionSatisfied facts condition)
  | .comparison fact op value, hsupplied => by
    exact (never_factOf hsupplied).bind fun factValue ↦
      never_comparison hcomparing fact op factValue value
  | .setMembership fact op values, hsupplied => by
    exact (never_factOf hsupplied).bind fun factValue ↦ .ok _
  | .composition op first second rest, hsupplied => by
    obtain ⟨hfirst, hothers⟩ := Supplied.of_append hsupplied
    obtain ⟨hsecond, hrest⟩ := Supplied.of_append hothers
    exact (never_condition hcomparing first hfirst).bind fun _ ↦
      (never_condition hcomparing second hsecond).bind fun _ ↦
        (never_conditions hcomparing rest hrest).bind fun _ ↦ .ok _
  | .negation operand, hsupplied => by
    exact (never_condition hcomparing operand hsupplied).bind fun _ ↦ .ok _

/-- Apart from facts that are not there, conditions only fail to compare. -/
theorem never_conditions (hcomparing : ∀ text, ¬ bad (.incomparable text)) :
    ∀ conditions : List Condition, Supplied bad facts (Condition.factNamesOf conditions) →
      Never bad (conditionsSatisfied facts conditions)
  | [], _ => .ok []
  | operand :: rest, hsupplied => by
    obtain ⟨hoperand, hrest⟩ := Supplied.of_append hsupplied
    exact (never_condition hcomparing operand hoperand).bind fun _ ↦
      (never_conditions hcomparing rest hrest).bind fun _ ↦ .ok _

end

theorem never_guard (hcomparing : ∀ text, ¬ bad (.incomparable text)) {condition : Option Condition}
    (hsupplied : Supplied bad facts ((condition.map Condition.factNames).getD [])) :
    Never bad (guardSatisfied facts condition) := by
  cases condition with
  | none => exact .ok true
  | some condition => exact never_condition hcomparing condition hsupplied

theorem never_satisfiedEntries (hcomparing : ∀ text, ¬ bad (.incomparable text))
    {entries : List IndexEntry} (hsupplied : ∀ entry ∈ entries,
      Supplied bad facts ((entry.condition.map Condition.factNames).getD [])) :
    Never bad (satisfiedEntries facts entries) := by
  induction entries with
  | nil => exact .ok []
  | cons entry rest ih =>
    exact (never_guard hcomparing (hsupplied entry mem_cons_self)).bind fun _ ↦
      (ih fun other hother ↦ hsupplied other (mem_cons_of_mem _ hother)).bind fun _ ↦ .ok _

end Conditions

/-- A name is declared for an action if it was before, or a rule of the action mentions it. -/
def DeclaredFor (declared : OrderedDict (String × String) TermSet) (key : String × String)
    (name : String) : Prop :=
  ∃ names, declared.get? key = some names ∧ name ∈ names

variable {name : String}

theorem DeclaredFor.declareFacts {declared : OrderedDict (String × String) TermSet}
    {key : String × String} (hdeclared : DeclaredFor declared key name)
    (entry : ScopedRule) : DeclaredFor (Governance.declareFacts declared entry) key name := by
  obtain ⟨names, hnames, hname⟩ := hdeclared
  unfold DeclaredFor Governance.declareFacts
  simp only [get?_insert]
  by_cases hkey : (entry.rule.target.domain, entry.rule.target.operation) = key
  · subst hkey
    refine ⟨_, if_pos rfl, mem_update.mpr (.inr ?_)⟩
    rw [hnames]
    exact hname
  · exact ⟨names, by rw [if_neg hkey, hnames], hname⟩

theorem declaredFor_declareFacts (declared : OrderedDict (String × String) TermSet)
    (entry : ScopedRule) (hname : name ∈ (entry.rule.condition.map Condition.factNames).getD []) :
    DeclaredFor (Governance.declareFacts declared entry)
      (entry.rule.target.domain, entry.rule.target.operation) name :=
  ⟨_, get?_insert_self _ _ _, mem_update.mpr (.inl hname)⟩

variable {entry : ScopedRule}

theorem declaredFor_foldl {entries : List ScopedRule}
    (declared : OrderedDict (String × String) TermSet) (hentry : entry ∈ entries)
    (hname : name ∈ (entry.rule.condition.map Condition.factNames).getD []) :
    DeclaredFor (entries.foldl Governance.declareFacts declared)
      (entry.rule.target.domain, entry.rule.target.operation) name := by
  have hkeeps : ∀ (entries : List ScopedRule) (declared : OrderedDict (String × String) TermSet)
      (key : String × String), DeclaredFor declared key name →
        DeclaredFor (entries.foldl Governance.declareFacts declared) key name := by
    intro entries
    induction entries with
    | nil => exact fun _ _ hdeclared ↦ hdeclared
    | cons other rest ih => exact fun _ key hdeclared ↦ ih _ key (hdeclared.declareFacts other)
  induction entries generalizing declared with
  | nil => cases hentry
  | cons other rest ih =>
    rcases mem_cons.mp hentry with rfl | hlater
    · exact hkeeps rest _ _ (declaredFor_declareFacts declared entry hname)
    · exact ih _ hlater

theorem mem_requiredFactNames {operation name : String} :
    name ∈ requiredFactNames snapshot operation ↔
      ∃ item ∈ snapshot.declaredFacts, item.1.2 = operation ∧ name ∈ item.2 := by
  have hfold : ∀ (items : List ((String × String) × List String)) (required : TermSet),
      name ∈ items.foldl (fun required item ↦ required.update item.2) required ↔
        name ∈ required ∨ ∃ item ∈ items, name ∈ item.2 := by
    intro items
    induction items with
    | nil => simp
    | cons item rest ih =>
      intro required
      rw [foldl_cons, ih, mem_update, or_comm (b := name ∈ required), or_assoc, exists_mem_cons_iff]
  rw [requiredFactNames, hfold]
  simp only [notMem_empty, false_or, mem_filter, decide_eq_true_eq, and_assoc]

theorem mem_requiredFactNames_of_rule {assembled : List Assembled}
    (hdeclared : snapshot.declaredFacts = declaredFacts assembled)
    (hentry : entry ∈ scopedRules assembled)
    (hname : name ∈ (entry.rule.condition.map Condition.factNames).getD []) :
    name ∈ requiredFactNames snapshot entry.rule.target.operation := by
  obtain ⟨names, hnames, hmem⟩ := declaredFor_foldl .empty hentry hname
  refine mem_requiredFactNames.mpr ⟨((entry.rule.target.domain, entry.rule.target.operation),
    names.elements), ?_, rfl, hmem⟩
  rw [hdeclared, declaredFacts, mem_map]
  exact ⟨_, mem_sortedBy.mpr ((get?_eq_some_iff _).mp hnames), rfl⟩

theorem get?_factDict {facts : List (String × Scalar)}
    (hname : name ∈ facts.map Prod.fst) : ∃ value, (factDict facts).get? name = some value := by
  have hkeeps : ∀ (facts : List (String × Scalar)) (dict : OrderedDict String Scalar),
      (∃ value, dict.get? name = some value) ∨ name ∈ facts.map Prod.fst →
      ∃ value, (facts.foldl (fun dict fact ↦ dict.insert fact.1 fact.2) dict).get? name =
        some value := by
    intro facts
    induction facts with
    | nil => exact fun dict hor ↦ hor.resolve_right (not_mem_nil)
    | cons fact rest ih =>
      intro dict hor
      refine ih _ ?_
      by_cases heq : fact.1 = name
      · exact .inl ⟨fact.2, by rw [get?_insert, if_pos heq]⟩
      · rcases hor with ⟨value, hvalue⟩ | hmem
        · exact .inl ⟨value, by rw [get?_insert, if_neg heq, hvalue]⟩
        · exact .inr ((mem_cons.mp hmem).resolve_left (Ne.symm heq))
  exact hkeeps facts .empty (.inr hname)

/-- What it takes for a question to be well formed. -/
theorem of_questionDefect_eq_none {question : Question}
    {stamps : Stamps} (hdefect : questionDefect snapshot question stamps = none) :
    (question.domain, question.operation) ∈ snapshot.declaredFacts.map Prod.fst ∧
      ∀ name ∈ requiredFactNames snapshot question.operation,
        name ∈ question.facts.map Prod.fst := by
  unfold questionDefect at hdefect
  split at hdefect
  · cases hdefect
  · simp only at hdefect
    split at hdefect
    · cases hdefect
    · split at hdefect
      · cases hdefect
      · next hdeclared =>
        split at hdefect
        · cases hdefect
        · next hsupplied =>
          refine ⟨not_not.mp hdeclared, fun name hname ↦ ?_⟩
          by_contra hmissing
          exact hsupplied ⟨name, hname, hmissing⟩

theorem supplied_of_wellFormed {assembled : List Assembled}
    (hdeclared : snapshot.declaredFacts = declaredFacts assembled) {question : Question}
    {stamps : Stamps} (hdefect : questionDefect snapshot question stamps = none)
    (hentry : entry ∈ scopedRules assembled)
    (hoperation : entry.rule.target.operation = question.operation) :
    Supplied Interruption.Missing (factDict question.facts)
      ((entry.rule.condition.map Condition.factNames).getD []) := fun _ hname ↦
  .inl (get?_factDict ((of_questionDefect_eq_none hdefect).2 _
    (hoperation ▸ mem_requiredFactNames_of_rule hdeclared hentry hname)))

section Steps

variable {assembled : List Assembled} {snapshot : CompiledSnapshot} {question : Question}
  {stamps : Stamps}

theorem never_missing_matchAndWin (hcompiled : CompiledFrom assembled snapshot)
    (hdefect : questionDefect snapshot question stamps = none) (domain : String) :
    Never Interruption.Missing (matchAndWin snapshot domain question.operation question.resource
      (factDict question.facts)) := by
  refine (never_satisfiedEntries (by rintro _ ⟨_, ⟨⟩⟩) fun entry hentry ↦ ?_).bind fun matched ↦ ?_
  · obtain ⟨hmem, htargets⟩ := mem_filter.mp hentry
    obtain ⟨rule, hrule, rfl⟩ := mem_snapshotEntries.mp (hcompiled.entries ▸ hmem)
    have haction := (action_of_targets htargets).1
    exact supplied_of_wellFormed hcompiled.declared hdefect hrule (Prod.mk.inj haction).2
  · split
    · exact .error nofun
    · split
      · exact .error nofun
      · split
        · exact .error nofun
        · exact .ok _

/-- If a condition of a rule that is about the question cannot be evaluated, the retrieval ends
there, and not for want of an answer. -/
theorem matchAndWin_of_undetermined (hcompiled : CompiledFrom assembled snapshot)
    {domain operation resource : String}
    (hundetermined : ¬ Determined assembled domain operation resource facts) :
    ∃ interruption, matchAndWin snapshot domain operation resource facts = .error interruption ∧
      interruption.snapshotIntegrity = false := by
  unfold matchAndWin
  cases hmatched : satisfiedEntries facts (snapshot.entries.filter fun entry ↦
      entry.targets domain operation resource) with
  | error interruption =>
    have hnever : Never (fun interruption ↦ interruption.snapshotIntegrity = true)
        (satisfiedEntries facts (snapshot.entries.filter fun entry ↦
          entry.targets domain operation resource)) :=
      never_satisfiedEntries nofun fun _ _ _ _ ↦ .inr nofun
    exact ⟨interruption, rfl, by simpa using hnever interruption hmatched⟩
  | ok matched =>
    refine absurd (fun rule hrule htargets ↦ ?_) hundetermined
    refine determined_of_satisfiedEntries hmatched (indexEntry (decisionsOf assembled) rule) ?_
    exact mem_filter.mpr ⟨hcompiled.entries ▸ mem_snapshotEntries.mpr ⟨rule, hrule, rfl⟩, htargets⟩

/-- A sibling domain that cannot answer binds nothing, so it does not end the evaluation; and no
other interruption comes up than in the retrievals. -/
theorem never_bindingConstraints
    (hintegrity : ∀ interruption, bad interruption → interruption.snapshotIntegrity = false →
      ∀ domain, matchAndWin snapshot domain question.operation question.resource facts ≠
        .error interruption) (domains : List String) :
    Never bad (bindingConstraints snapshot question facts domains) := by
  induction domains with
  | nil => exact .ok []
  | cons domain rest ih =>
    unfold bindingConstraints
    split
    · exact ih
    · split
      · next interruption heq =>
        split
        · exact ih
        · next hnot =>
          exact .error fun hbad ↦ hintegrity interruption hbad (by simpa using hnot) domain heq
      · split
        · exact ih.bind fun _ ↦ .ok _
        · exact ih

variable (digest : Json → String) (slice : List GrantRecord)

theorem never_attachConstraints
    (hintegrity : ∀ interruption, bad interruption → interruption.snapshotIntegrity = false →
      ∀ domain, matchAndWin snapshot domain question.operation question.resource
        (factDict question.facts) ≠ .error interruption) (effect : Effect) :
    Never bad (attachConstraints snapshot question effect) := by
  unfold attachConstraints
  split
  · exact never_bindingConstraints hintegrity _
  · exact .ok []

/-- For a well-formed question no step misses a fact. -/
theorem never_missing_decideQuestion (hcompiled : CompiledFrom assembled snapshot)
    (hdefect : questionDefect snapshot question stamps = none) :
    Never Interruption.Missing (decideQuestion digest snapshot slice question stamps) := by
  have hretrieval := never_missing_matchAndWin hcompiled hdefect
  refine (hretrieval question.domain).bind fun _ ↦ ?_
  refine (never_attachConstraints (fun interruption hmissing _ domain heq ↦ ?_) _).bind
    fun _ ↦ .ok _
  exact hretrieval domain interruption heq hmissing

/-- The steps after the retrieval of a winner, at any question. -/
theorem decideQuestion_of_won {winner : IndexEntry} {matched : List Citation} {fallback : Bool}
    (hwon : matchAndWin snapshot question.domain question.operation question.resource
      (factDict question.facts) = .ok (winner, matched, fallback)) :
    decideQuestion digest snapshot slice question stamps =
      (attachConstraints snapshot question (decidedEffect winner
        (grantOverlay digest slice question winner))).map
          (assembleDecision digest question stamps winner matched fallback
            (grantOverlay digest slice question winner)) := by
  rw [decideQuestion, hwon]
  rfl

/-- Once there is a winner, the snapshot can answer. -/
theorem never_integrity_of_won {won : IndexEntry × List Citation × Bool}
    (hwon : matchAndWin snapshot question.domain question.operation question.resource
      (factDict question.facts) = .ok won) :
    Never (fun interruption ↦ interruption.snapshotIntegrity = true)
      (decideQuestion digest snapshot slice question stamps) := by
  unfold decideQuestion
  rw [hwon]
  refine (never_attachConstraints (fun interruption hbad hnot _ _ ↦ ?_) _).bind fun _ ↦ .ok _
  rw [hbad] at hnot
  cases hnot

theorem evaluate_of_wellFormed (hinputs : checkInputs stamps = none)
    (hdefect : questionDefect snapshot question stamps = none) :
    (evaluate digest snapshot slice question stamps none).1 =
      conclude stamps (decideQuestion digest snapshot slice question stamps) := by
  simp only [evaluate, hinputs, hdefect, Option.bind_none]

/-- The evaluation raises for want of an answer exactly if a step ends so. -/
theorem refusalKind_conclude (result : Except Interruption Decision) :
    refusalKind (conclude stamps result) = some .snapshotIntegrity ↔
      ∃ interruption, result = .error interruption ∧ interruption.snapshotIntegrity = true := by
  cases result with
  | ok decision => simp [conclude, refusalKind]
  | error interruption =>
    cases interruption <;> simp [conclude, refusalKind, Interruption.snapshotIntegrity]

/-- An evaluation returns unless a step misses a fact or cannot answer. -/
theorem exists_outcome_iff (result : Except Interruption Decision) :
    (∃ outcome, conclude stamps result = .ok outcome) ↔ Never Interruption.Missing result ∧
        Never (fun interruption ↦ interruption.snapshotIntegrity = true) result := by
  cases result with
  | ok decision => exact ⟨fun _ ↦ ⟨.ok _, .ok _⟩, fun _ ↦ ⟨_, rfl⟩⟩
  | error interruption =>
    cases interruption <;>
      simp [conclude, Never, Interruption.Missing, Interruption.snapshotIntegrity]

end Steps

end AbsoluteZero.Governance

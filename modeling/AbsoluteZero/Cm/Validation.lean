import AbsoluteZero.Cm.Assembly

/-!
# Assembly and its own validation

Of the artifact that `assemble` builds from deduped and prioritized candidates everything but the
ids is valid by construction. Two contradicting variants that the fitter degrades to one text get
one id; `wellAssembled_iff` is the exact condition under which assembly passes its validation.
-/

namespace AbsoluteZero.Cm

open Foundations List

/-- An item with a provenance and a `stale` key. -/
def Item.Described (item : Item) : Prop := item.provenance.items ≠ [] ∧ item.stale ≠ none

theorem pairwise_option_append {previous : Option (WithBot Rat)} {score : WithBot Rat}
    {scores : List (WithBot Rat)} :
    (previous.toList ++ score :: scores).Pairwise (fun first second ↦ second ≤ first) ↔
      (previous.any fun other ↦ other < score) = false ∧
        ((some score).toList ++ scores).Pairwise fun first second ↦ second ≤ first := by
  cases previous with
  | none => simp
  | some other =>
    simp only [Option.toList_some, singleton_append, Option.any_some,
      decide_eq_false_iff_not, not_lt]
    rw [pairwise_cons]
    refine ⟨fun ⟨hother, hscores⟩ ↦ ⟨hother _ mem_cons_self, hscores⟩,
      fun ⟨hscore, hscores⟩ ↦ ⟨?_, hscores⟩⟩
    refine forall_mem_cons.mpr ⟨hscore, fun next hnext ↦ ?_⟩
    exact ((pairwise_cons.mp hscores).1 next hnext).trans hscore

theorem checkItems_eq_ok_iff {seen seen' : List String} {previous : Option (WithBot Rat)}
    {items : List Item} : checkItems seen previous items = .ok seen' ↔
      seen' = seen ++ items.map (·.id) ∧ (items.map (·.id)).Nodup ∧
        (∀ item ∈ items, item.id ∉ seen) ∧ (∀ item ∈ items, item.Described) ∧
        (previous.toList ++ items.map fun item ↦ scoreKey item.score).Pairwise
          fun first second ↦ second ≤ first := by
  induction items generalizing seen previous with
  | nil =>
    have hprevious : previous.toList.Pairwise fun first second ↦ second ≤ first := by
      cases previous <;> simp
    simp [checkItems, hprevious, eq_comm]
  | cons item rest ih =>
    rw [checkItems, map_cons, map_cons, pairwise_option_append, nodup_cons,
      forall_mem_cons, forall_mem_cons]
    by_cases hseen : item.id ∈ seen
    · rw [if_pos hseen]
      exact ⟨nofun, fun h ↦ absurd hseen h.2.2.1.1⟩
    rw [if_neg hseen]
    by_cases hprovenance : item.provenance.items = []
    · rw [if_pos hprovenance]
      exact ⟨nofun, fun h ↦ absurd hprovenance h.2.2.2.1.1.1⟩
    rw [if_neg hprovenance]
    by_cases hstale : item.stale = none
    · rw [if_pos hstale]
      exact ⟨nofun, fun h ↦ absurd hstale h.2.2.2.1.1.2⟩
    rw [if_neg hstale]
    by_cases horder : (previous.any fun score ↦ decide (score < scoreKey item.score)) = true
    · rw [if_pos horder]
      exact ⟨nofun, fun h ↦ absurd (horder.symm.trans h.2.2.2.2.1) nofun⟩
    rw [if_neg horder, ih, append_assoc, singleton_append]
    have hfresh : (∀ other ∈ rest, other.id ∉ seen ++ [item.id]) ↔
        item.id ∉ rest.map (·.id) ∧ ∀ other ∈ rest, other.id ∉ seen := by
      simp only [mem_append, mem_singleton, not_or, mem_map, not_exists, not_and]
      exact ⟨fun h ↦ ⟨fun other hother ↦ (h other hother).2, fun other hother ↦ (h other hother).1⟩,
        fun h other hother ↦ ⟨h.2 other hother, h.1 other hother⟩⟩
    have horder' := Bool.eq_false_iff.mpr horder
    tauto

/-- The loop over the sections runs to its end exactly when the ids are new and distinct across the
sections, every item is described, and the scores of a section never rise. -/
theorem exists_foldlM_checkItems_iff {itemsOf : String → List Item} {names seen : List String} :
    (∃ seen', names.foldlM (fun seen name ↦ checkItems seen none (itemsOf name)) seen = .ok seen') ↔
      ((names.flatMap itemsOf).map (·.id)).Nodup ∧
        (∀ item ∈ names.flatMap itemsOf, item.id ∉ seen) ∧
        (∀ item ∈ names.flatMap itemsOf, item.Described) ∧
        ∀ name ∈ names, ((itemsOf name).map fun item ↦ scoreKey item.score).Pairwise
          fun first second ↦ second ≤ first := by
  induction names generalizing seen with
  | nil => simp [pure, Except.pure]
  | cons name rest ih =>
    rw [foldlM_cons, flatMap_cons, map_append, forall_mem_append,
      forall_mem_append, forall_mem_cons]
    cases hcheck : checkItems seen none (itemsOf name) with
    | error reason =>
      refine ⟨fun ⟨_, herror⟩ ↦ (nomatch herror), fun ⟨hnodup, hseen, hdescribed, hscores⟩ ↦ ?_⟩
      have hok : checkItems seen none (itemsOf name) = .ok (seen ++ (itemsOf name).map (·.id)) :=
        checkItems_eq_ok_iff.mpr
          ⟨rfl, (List.nodup_append.mp hnodup).1, hseen.1, hdescribed.1, hscores.1⟩
      rw [hcheck] at hok
      cases hok
    | ok seen' =>
      obtain ⟨rfl, hnodup, hseen, hdescribed, hscores⟩ := checkItems_eq_ok_iff.mp hcheck
      change (∃ last, rest.foldlM (fun seen name ↦ checkItems seen none (itemsOf name))
        (seen ++ (itemsOf name).map (·.id)) = .ok last) ↔ _
      have hfresh : (∀ item ∈ rest.flatMap itemsOf,
          item.id ∉ seen ++ (itemsOf name).map (·.id)) ↔
          (∀ item ∈ rest.flatMap itemsOf, item.id ∉ seen) ∧
            ∀ first ∈ (itemsOf name).map (·.id), ∀ second ∈ (rest.flatMap itemsOf).map (·.id),
              first ≠ second := by
        simp only [mem_append, not_or, mem_map]
        constructor
        · refine fun h ↦ ⟨fun item hitem ↦ (h item hitem).1, ?_⟩
          rintro _ hfirst _ ⟨item, hitem, rfl⟩ rfl
          exact (h item hitem).2 hfirst
        · intro h item hitem
          exact ⟨h.1 item hitem, fun hmem ↦ h.2 _ hmem _ ⟨item, hitem, rfl⟩ rfl⟩
      rw [ih, hfresh, List.nodup_append]
      tauto

/-- What the validator accepts. -/
theorem RequestMemory.validate_eq_none_iff (memory : RequestMemory) : memory.validate = none ↔
      (∀ name, name ∈ memory.sections.keys ↔ name ∈ sectionNames) ∧
        (memory.tokensUsed : Int) ≤ memory.budgetTokens ∧ (memory.items.map (·.id)).Nodup ∧
        (∀ item ∈ memory.items, item.Described) ∧
        ∀ name ∈ sectionNames, ((memory.itemsOf name).map fun item ↦ scoreKey item.score).Pairwise
          fun first second ↦ second ≤ first := by
  have hloop := @exists_foldlM_checkItems_iff memory.itemsOf sectionNames []
  have hnone : (∀ item ∈ sectionNames.flatMap memory.itemsOf, item.id ∉ ([] : List String)) :=
    fun _ _ ↦ not_mem_nil
  unfold validate
  by_cases hsections : ∀ name, name ∈ memory.sections.keys ↔ name ∈ sectionNames
  · rw [if_neg (not_or.mpr ⟨not_not_intro fun name hname ↦ (hsections name).mp hname,
      not_not_intro fun name hname ↦ (hsections name).mpr hname⟩)]
    by_cases hceiling : (memory.tokensUsed : Int) ≤ memory.budgetTokens
    · rw [if_neg (not_lt.mpr hceiling)]
      cases hfold : sectionNames.foldlM
          (fun seen name ↦ checkItems seen none (memory.itemsOf name)) [] with
      | error reason =>
        rw [hfold] at hloop
        refine ⟨nofun, fun h ↦ ?_⟩
        obtain ⟨_, hcase⟩ := hloop.mpr ⟨h.2.2.1, hnone, h.2.2.2⟩
        cases hcase
      | ok seen =>
        have h := hloop.mp ⟨seen, hfold⟩
        exact ⟨fun _ ↦ ⟨hsections, hceiling, h.1, h.2.2⟩, fun _ ↦ rfl⟩
    · rw [if_pos (not_le.mp hceiling)]
      exact ⟨nofun, fun h ↦ absurd h.2.1 hceiling⟩
  · rw [if_pos ?_]
    · exact ⟨nofun, fun h ↦ absurd h.1 hsections⟩
    · by_contra hnot
      rw [not_or, not_not, not_not] at hnot
      exact hsections fun name ↦ ⟨hnot.1 name, hnot.2 name⟩

/-- Two items have one id only as contradicting variants. -/
def Flagged (first second : Candidate) : Prop :=
  first.id = second.id → first.contradiction = true ∧ second.contradiction = true

theorem pairwise_flagged_dedup (hashing : Hashing) (candidates : List Candidate) :
    (dedup hashing candidates).Pairwise Flagged := by
  unfold dedup
  rw [pairwise_map]
  have hnodup : ((fresh (dedupKey hashing) [] candidates).map (dedupKey hashing)).Nodup :=
    (nodup_fresh [] candidates).1
  refine (pairwise_map.mp hnodup).imp_of_mem ?_
  intro first second hfirst hsecond hne hid
  have hsub : (fresh (dedupKey hashing) [] candidates).Sublist candidates :=
    fresh_sublist [] candidates
  have hids : first.id = second.id := by
    split at hid <;> split at hid <;> exact hid
  have hcontradicted : Contradicted hashing candidates first.id :=
    ⟨first, hsub.mem hfirst, second, hsub.mem hsecond, rfl, hids.symm,
      fun hhash ↦ hne (Prod.ext hids hhash)⟩
  rw [if_pos hcontradicted, if_pos (hids ▸ hcontradicted)]
  exact ⟨rfl, rfl⟩

theorem pairwise_flagged_prioritize (config : ConfigView) {candidates : List Candidate}
    (hflagged : candidates.Pairwise Flagged) : (prioritize config candidates).Pairwise Flagged :=
  ((perm_sortedBy _ candidates).pairwise_iff fun hpair heq ↦ (hpair heq.symm).symm).mpr hflagged

/-- The texts that were placed tell the variants of an id apart, and no plain id reads as the id of
a variant with its digest. -/
structure Separated (hashing : Hashing) (items : List Item) : Prop where
  variants : items.Pairwise fun first second ↦
    first.contradiction = true → second.contradiction = true → first.id = second.id →
      hashing.variantDigest first.content ≠ hashing.variantDigest second.content
  plain : ∀ item ∈ items, ∀ variant ∈ items, item.contradiction = false →
    variant.contradiction = true →
      item.id ≠ variant.id ++ "#" ++ hashing.variantDigest variant.content

/-- A suffixed id determines the id and the digest. -/
theorem suffix_inj (hashing : Hashing) {first second : String} {content content' : Json}
    (heq : first ++ "#" ++ hashing.variantDigest content =
      second ++ "#" ++ hashing.variantDigest content') :
    first = second ∧ hashing.variantDigest content = hashing.variantDigest content' := by
  have hlists := congrArg String.toList heq
  rw [String.toList_append, String.toList_append, String.toList_append,
    String.toList_append] at hlists
  have hlength := hashing.length_variantDigest content
  rw [← hashing.length_variantDigest content'] at hlength
  obtain ⟨hid, hdigest⟩ := append_inj' hlists hlength
  exact ⟨String.toList_inj.mp (append_cancel_right hid), String.toList_inj.mp hdigest⟩

theorem nodup_disambiguate_iff (hashing : Hashing) {items : List Item}
    (hflagged : items.Pairwise fun first second ↦ Flagged first.header second.header) :
    ((items.map (disambiguate hashing)).map (·.id)).Nodup ↔ Separated hashing items := by
  have hvariant : ∀ {item : Item}, item.contradiction = true →
      (disambiguate hashing item).id = item.id ++ "#" ++ hashing.variantDigest item.content :=
    fun hitem ↦ by rw [disambiguate, if_pos hitem]
  have hplain : ∀ {item : Item}, item.contradiction = false →
      (disambiguate hashing item).id = item.id :=
    fun hitem ↦ by rw [disambiguate, if_neg (Bool.eq_false_iff.mp hitem)]
  rw [map_map]
  constructor
  · intro hnodup
    refine ⟨(pairwise_map.mp hnodup).imp fun {first second} hne hfirst hsecond hid hdigest ↦ ?_,
      fun item hitem variant hmem hitemPlain hmemVariant heq ↦ ?_⟩
    · refine hne ?_
      rw [Function.comp_apply, Function.comp_apply, hvariant hfirst, hvariant hsecond, hid, hdigest]
    · have hsame : item = variant := by
        refine inj_on_of_nodup_map hnodup hitem hmem ?_
        rw [Function.comp_apply, Function.comp_apply, hplain hitemPlain, hvariant hmemVariant, heq]
      rw [hsame, hmemVariant] at hitemPlain
      cases hitemPlain
  · intro hseparated
    refine pairwise_map.mpr ((hflagged.and hseparated.variants).imp_of_mem ?_)
    intro first second hfirst hsecond ⟨hpair, hdigests⟩ heq
    rw [Function.comp_apply, Function.comp_apply] at heq
    cases hfirstFlag : first.contradiction with
    | false =>
      cases hsecondFlag : second.contradiction with
      | false =>
        rw [hplain hfirstFlag, hplain hsecondFlag] at heq
        exact absurd ((hpair heq).1.symm.trans hfirstFlag) nofun
      | true =>
        rw [hplain hfirstFlag, hvariant hsecondFlag] at heq
        exact hseparated.plain first hfirst second hsecond hfirstFlag hsecondFlag heq
    | true =>
      cases hsecondFlag : second.contradiction with
      | false =>
        rw [hvariant hfirstFlag, hplain hsecondFlag] at heq
        exact hseparated.plain second hsecond first hfirst hsecondFlag hfirstFlag heq.symm
      | true =>
        rw [hvariant hfirstFlag, hvariant hsecondFlag] at heq
        obtain ⟨hid, hdigest⟩ := suffix_inj hashing heq
        exact hdigests hfirstFlag hsecondFlag hid hdigest

/-! ### What assembly builds -/

section Assembled

variable {hashing : Hashing} {floats : FloatShare} {config : ConfigView} {spec : Spec}
  {requestId : Option String} {candidates : List Candidate} {fitted : Fitted}

def Ordered (first second : Candidate) : Prop :=
  first.sectionName = second.sectionName → scoreKey second.score ≤ scoreKey first.score

theorem pairwise_ordered_prioritize (config : ConfigView) (candidates : List Candidate) :
    (prioritize config candidates).Pairwise Ordered := by
  refine (pairwise_sortedBy _ candidates).imp fun {first second} hle hsection ↦ ?_
  rw [Prod.Lex.le_iff] at hle
  rcases hle with hweight | ⟨-, hrest⟩
  · rw [hsection] at hweight
    exact absurd hweight (lt_irrefl _)
  · refine negScoreKey_le_iff.mp ?_
    rcases Prod.Lex.le_iff.mp hrest with hscore | ⟨hscore, -⟩
    · exact le_of_lt hscore
    · exact le_of_eq hscore

theorem described_disambiguate (item : Item) :
    (disambiguate hashing item).Described ↔ item.Described := by
  unfold Item.Described
  rw [provenance_disambiguate, stale_disambiguate]

theorem itemsOf_buildMemory {name : String} (hname : name ∈ sectionNames) {count : Nat} :
    (buildMemory hashing spec requestId count fitted).itemsOf name =
      stream Item.sectionName name (fitted.items.map (disambiguate hashing)) := by
  unfold RequestMemory.itemsOf buildMemory
  rw [get?_bySection _ hname, Option.getD_some]

theorem perm_items_buildMemory (hfit : fit floats config spec.budgetTokens candidates = .ok fitted)
    {count : Nat} : (buildMemory hashing spec requestId count fitted).items.Perm
      (fitted.items.map (disambiguate hashing)) := by
  have hitems : (buildMemory hashing spec requestId count fitted).items =
      sectionNames.flatMap fun name ↦
        stream Item.sectionName name (fitted.items.map (disambiguate hashing)) :=
    flatMap_congr fun name hname ↦ itemsOf_buildMemory hname
  rw [hitems]
  refine perm_flatMap_stream _ (by decide) fun item hitem ↦ ?_
  obtain ⟨source, hsource, rfl⟩ := mem_map.mp hitem
  rw [sectionName_disambiguate]
  exact ((accounts_of_fit hfit).offered source hsource).2.1

/-- Assumes: the candidates are in order of their scores, and only contradicting variants share an
id. The artifact passes the checks exactly when its items are described and their ids told apart. -/
theorem validate_buildMemory_iff (hflagged : candidates.Pairwise Flagged)
    (hordered : candidates.Pairwise Ordered)
    (hfit : fit floats config spec.budgetTokens candidates = .ok fitted) {count : Nat} :
    (buildMemory hashing spec requestId count fitted).validate = none ↔
      (∀ item ∈ fitted.items, item.Described) ∧ Separated hashing fitted.items := by
  have haccounts := accounts_of_fit hfit
  have hperm := @perm_items_buildMemory hashing floats config spec requestId candidates
    fitted hfit count
  have hpair : ∀ {R : Candidate → Candidate → Prop}, (∀ first second : Candidate,
      R first second ↔ R first.header second.header) → candidates.Pairwise R →
      fitted.items.Pairwise fun first second ↦ R first.header second.header := by
    intro R hheader hcandidates
    refine pairwise_map.mp (List.Pairwise.sublist haccounts.headers (pairwise_map.mpr ?_))
    exact hcandidates.imp fun hrel ↦ (hheader _ _).mp hrel
  have hscores : ∀ name ∈ sectionNames,
      (((buildMemory hashing spec requestId count fitted).itemsOf name).map
        fun item ↦ scoreKey item.score).Pairwise fun first second ↦ second ≤ first := by
    intro name hname
    rw [itemsOf_buildMemory hname, pairwise_map]
    unfold stream
    rw [filter_map, pairwise_map]
    refine ((hpair (fun _ _ ↦ Iff.rfl) hordered).filter _).imp_of_mem ?_
    intro first second hfirst hsecond hrel
    rw [score_disambiguate, score_disambiguate]
    refine hrel ?_
    have hfirst' := of_decide_eq_true (mem_filter.mp hfirst).2
    have hsecond' := of_decide_eq_true (mem_filter.mp hsecond).2
    rw [sectionName_disambiguate] at hfirst' hsecond'
    exact hfirst'.trans hsecond'.symm
  have hkeys : ∀ name, name ∈ (buildMemory hashing spec requestId count fitted).sections.keys ↔
      name ∈ sectionNames := fun name ↦ Iff.rfl
  rw [RequestMemory.validate_eq_none_iff, (hperm.map (·.id)).nodup_iff,
    nodup_disambiguate_iff hashing (hpair (fun _ _ ↦ Iff.rfl) hflagged)]
  have hdescribed : (∀ item ∈ (buildMemory hashing spec requestId count fitted).items,
      item.Described) ↔ ∀ item ∈ fitted.items, item.Described := by
    simp only [hperm.mem_iff, forall_mem_map, described_disambiguate]
  rw [hdescribed]
  exact ⟨fun h ↦ ⟨h.2.2.2.1, h.2.2.1⟩, fun h ↦ ⟨hkeys, haccounts.within, h.2, h.1, hscores⟩⟩

/-- A refusal, or an artifact that passes every check of the validator, whose items have distinct
ids and are all that the fitter selected, and which accounts for every candidate. -/
def WellAssembled : Except Failure RequestMemory → Prop
  | .ok memory => memory.validate = none ∧ (memory.items.map (·.id)).Nodup ∧
      memory.items.length = memory.selectedCount ∧
      memory.selectedCount + memory.dropped = memory.candidateCount
  | .error (.refused _) => True
  | .error _ => False

/-- The arithmetic of the envelopes succeeds, and the candidates that the budget has room for are
described and told apart by the digests of the texts that it has room for. -/
structure Admissible (hashing : Hashing) (floats : FloatShare) (config : ConfigView)
    (budgetTokens : Int) (candidates : List Candidate) : Prop where
  arithmetic : sectionEnvelopes floats config budgetTokens ≠ .error .arithmetic
  described : ∀ fitted, fit floats config budgetTokens candidates = .ok fitted →
    ∀ item ∈ fitted.items, item.Described
  separated : ∀ fitted, fit floats config budgetTokens candidates = .ok fitted →
    Separated hashing fitted.items

end Assembled

/-- `dedup`, `prioritize` and `assemble` refuse or build a valid artifact exactly when the
prioritized candidates are admissible for the budget. -/
theorem wellAssembled_iff (hashing : Hashing) (floats : FloatShare) (config : ConfigView)
    (spec : Spec) (requestId : Option String) (candidates : List Candidate) :
    WellAssembled (assemble hashing floats spec (prioritize config (dedup hashing candidates))
        config requestId) ↔ Admissible hashing floats config spec.budgetTokens
        (prioritize config (dedup hashing candidates)) := by
  have hflagged := pairwise_flagged_prioritize config (pairwise_flagged_dedup hashing candidates)
  have hordered := pairwise_ordered_prioritize config (dedup hashing candidates)
  generalize prioritize config (dedup hashing candidates) = prioritized at hflagged hordered ⊢
  unfold assemble
  cases hfit : fit floats config spec.budgetTokens prioritized with
  | error failure =>
    rcases fit_error_cases hfit with ⟨henvelopes, rfl⟩ | ⟨henvelopes, text, rfl⟩
    · exact ⟨False.elim, fun hadmissible ↦ hadmissible.arithmetic henvelopes⟩
    · refine ⟨fun _ ↦ ⟨henvelopes, fun fitted hok ↦ ?_, fun fitted hok ↦ ?_⟩, fun _ ↦ trivial⟩
      · rw [hfit] at hok
        cases hok
      · rw [hfit] at hok
        cases hok
  | ok fitted =>
    obtain ⟨henvelopes, -⟩ := exists_walk_of_fit hfit
    have hvalid := @validate_buildMemory_iff hashing floats config spec requestId prioritized fitted
      hflagged hordered hfit prioritized.length
    simp only [bind, Except.bind]
    constructor
    · intro hwell
      cases hcheck : (buildMemory hashing spec requestId prioritized.length fitted).validate with
      | some reason =>
        rw [hcheck] at hwell
        exact hwell.elim
      | none =>
        obtain ⟨hdescribed, hseparated⟩ := hvalid.mp hcheck
        refine ⟨fun herror ↦ ?_, fun other hok ↦ ?_, fun other hok ↦ ?_⟩
        · rw [henvelopes] at herror
          cases herror
        · rw [hfit] at hok
          cases hok
          exact hdescribed
        · rw [hfit] at hok
          cases hok
          exact hseparated
    · intro hadmissible
      have hcheck := hvalid.mpr ⟨hadmissible.described fitted hfit,
        hadmissible.separated fitted hfit⟩
      have haccounts := accounts_of_fit hfit
      have hperm := @perm_items_buildMemory hashing floats config spec requestId prioritized fitted
        hfit prioritized.length
      rw [hcheck]
      refine ⟨hcheck, ((RequestMemory.validate_eq_none_iff _).mp hcheck).2.2.1, ?_,
        haccounts.counted⟩
      rw [hperm.length_eq, length_map]
      rfl

/-- A symbol with its tiers, as a source hands it over. -/
def symbolCandidate (id full sectionText reference : String) : Candidate where
  id := id
  sectionName := "symbols"
  content := .obj [("full", .str full), ("section", .str sectionText),
    ("reference", .str reference)]
  score := .float 1 "1.0"
  stale := some (.bool false)
  provenance := OrderedDict.empty.insert "source" (.str "test")
  contradiction := false

def variantSpec : Spec := ⟨"r1", "x", 10, [], [], []⟩

/-- The digests of the two variants and of the text that they share. -/
def variantHashing : Hashing :=
  tableHashing
    [((symbolCandidate "x1" "f f f f " "s " "r ").content,
        "64299bbe533e48f7a3fb1ea6f8a204b36d39fffdc3f8ab135f2ddaeac0d44ea2"),
      ((symbolCandidate "x1" "g g g g " "s " "r ").content,
        "ed9d71fa526d7f7119a733682db428d339f77202c6a05572e12308e4f2faaa99")]
    [(.str "s ", "b5d4b62f")] "c7e5b72a910c1a3e5f31a0491d513f90e289bf87ee2b68b5bfdd505d5715396a"
    "dfa2e4903132d71a4be9aa08" (by decide) (by decide)

/-- Two variants of a symbol with one section text, and a budget that has no room for the full
texts: assembly fails its own validation. -/
theorem not_wellAssembled_degraded : assemble variantHashing exactShare variantSpec
        (prioritize defaultConfig (dedup variantHashing
          [symbolCandidate "x1" "f f f f " "s " "r ", symbolCandidate "x1" "g g g g " "s " "r "]))
        defaultConfig none = .error (.invalid "validator.duplicate_id:x1#b5d4b62f") ∧
      ¬ WellAssembled (assemble variantHashing exactShare variantSpec
        (prioritize defaultConfig (dedup variantHashing
          [symbolCandidate "x1" "f f f f " "s " "r ", symbolCandidate "x1" "g g g g " "s " "r "]))
        defaultConfig none) := by
  have hrun : assemble variantHashing exactShare variantSpec
      (prioritize defaultConfig (dedup variantHashing
        [symbolCandidate "x1" "f f f f " "s " "r ", symbolCandidate "x1" "g g g g " "s " "r "]))
      defaultConfig none = .error (.invalid "validator.duplicate_id:x1#b5d4b62f") := by
    decide +kernel
  refine ⟨hrun, ?_⟩
  rw [hrun]
  exact id

end AbsoluteZero.Cm

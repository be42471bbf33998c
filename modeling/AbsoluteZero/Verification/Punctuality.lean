import AbsoluteZero.Verification.Courses
import Mathlib.Data.Finset.Dedup
import Mathlib.Data.Finset.Order

/-!
# Punctual results

When every result arrives by its deadline, the fate of a delegation is settled by the script alone,
so all courses that complete a judgment agree (`agree_of_punctual`). A result that arrives after its
deadline splits the courses: who polls in between sees an expiry, who polls later a result
(`not_agree_of_late`).
-/

namespace AbsoluteZero.Verification

open Foundations OrderedDict List

namespace Setting

variable {setting : Setting} {opening judgment : Judgment}

/-- The fate of a delegation whose result comes in time or never. -/
def fate (setting : Setting) (key : String) : Option String :=
  (setting.script key).map fun answer ↦ ClosedVocabulary.text answer.2

variable {check : String}

theorem terminal_of_complete (hcomplete : judgment.Complete)
    {delegation : Delegation} (hfound : judgment.delegations.get? check = some delegation) :
    delegation.state.terminal = true := by
  refine hcomplete.2 delegation ?_
  exact mem_map_of_mem ((get?_eq_some_iff _).mp hfound)

section

variable (hreached : setting.Reached opening judgment)

include hreached

theorem Reached.settled_of_complete
    (hopened : opening.Opened) (hpunctual : setting.Punctual opening)
    (hcomplete : judgment.Complete) {planned : Delegation}
    (hplanned : opening.delegations.get? check = some planned) :
    judgment.delegations.get? check = some (planned.settled (setting.fate planned.key)) := by
  obtain ⟨delegation, hfound, hfate⟩ := hreached.fates check planned hplanned
  have hterminal := terminal_of_complete hcomplete hfound
  rw [hfound]
  cases hfate with
  | required =>
    rw [(hopened.required check _ hplanned).1] at hterminal
    cases hterminal
  | dispatched => cases hterminal
  | resulted arrival outcome hscript =>
    unfold fate
    rw [hscript]
    rfl
  | expired hlate =>
    unfold fate
    cases hscript : setting.script planned.key with
    | none => rfl
    | some answer =>
      obtain ⟨arrival, outcome⟩ := answer
      have hintime := hpunctual check planned hplanned arrival outcome hscript
      exact absurd hintime (not_le.mpr (hlate arrival outcome hscript))

theorem Reached.settledSince_iff
    (hcomplete : judgment.Complete) : opening.SettledSince judgment check ↔
      check ∈ opening.delegations.keys ∨ check ∈ opening.staticPending := by
  unfold Judgment.SettledSince
  rw [hcomplete.1, ← hreached.keys, ← exists_get?_iff]
  simp only [not_mem_nil, not_false_eq_true, and_true]
  refine or_congr ⟨fun ⟨delegation, hfound, _⟩ ↦ ⟨delegation, hfound⟩, ?_⟩ Iff.rfl
  rintro ⟨delegation, hfound⟩
  exact ⟨delegation, hfound, terminal_of_complete hcomplete hfound⟩

theorem Reached.separate :
    Separate judgment.record.items := by
  obtain ⟨checks, hnodup, -, hitems⟩ := hreached.items
  have hrule : ∀ check, (setting.evidence judgment check).rule = .str ("rule." ++ check) := by
    intro check
    unfold evidence
    cases judgment.delegations.get? check <;> rfl
  have hkind : ∀ check, (setting.evidence judgment check).contributionKind = .str
      "independent" := by
    intro check
    unfold evidence
    cases judgment.delegations.get? check <;> rfl
  rw [hitems]
  refine ⟨fun item hitem ↦ ?_, ?_, fun item hitem ↦ ?_⟩
  · obtain ⟨check, -, rfl⟩ := mem_map.mp hitem
    exact ⟨_, hrule check⟩
  · rw [map_map]
    refine hnodup.map fun first second hsame ↦ ?_
    change (setting.evidence judgment first).rule = (setting.evidence judgment second).rule at hsame
    rw [hrule, hrule] at hsame
    exact (String.append_right_inj "rule.").mp (Json.str.inj hsame)
  · obtain ⟨check, -, rfl⟩ := mem_map.mp hitem
    exact hkind check

end

/-- Assumes: every result comes in time or never. Two complete judgments reached from one opening
have the same delegations and the same findings. -/
theorem agree_of_punctual {quotient : Nat → Nat → Rat} {policy : DerivationPolicy}
    {one other : Judgment} (hopened : opening.Opened) (hpunctual : setting.Punctual opening)
    (hone : setting.Reached opening one) (hfirst : one.Complete)
    (hother : setting.Reached opening other) (hsecond : other.Complete) :
    (∀ check, one.delegations.get? check = other.delegations.get? check) ∧
      findings quotient policy one.record = findings quotient policy other.record := by
  have hsame : ∀ check, one.delegations.get? check = other.delegations.get? check := by
    intro check
    cases hplanned : opening.delegations.get? check with
    | some planned =>
      rw [hone.settled_of_complete hopened hpunctual hfirst hplanned,
        hother.settled_of_complete hopened hpunctual hsecond hplanned]
    | none =>
      have hnot := (get?_eq_none_iff _).mp hplanned
      rw [(get?_eq_none_iff _).mpr (hone.keys ▸ hnot),
        (get?_eq_none_iff _).mpr (hother.keys ▸ hnot)]
  refine ⟨hsame, findings_perm hone.separate ?_⟩
  obtain ⟨checks, hnodup, hmem, hitems⟩ := hone.items
  obtain ⟨others, hothers, hmemOthers, hitemsOthers⟩ := hother.items
  have hperm : checks.Perm others := by
    rw [perm_ext_iff_of_nodup hnodup hothers]
    intro check
    rw [hmem, hmemOthers, hone.settledSince_iff hfirst, hother.settledSince_iff hsecond]
  have hevidence : setting.evidence one = setting.evidence other := by
    funext check
    exact evidence_congr (hone.artifactRef.trans hother.artifactRef.symm)
      (hone.levels.trans hother.levels.symm) (hsame check)
  rw [hitems, hitemsOthers, hevidence]
  exact hperm.map _

theorem Reached.judgeable (hreached : setting.Reached opening judgment)
    (hcomplete : judgment.Complete) : setting.Judgeable opening := by
  refine ⟨fun check hcheck ↦ ?_, fun check hcheck ↦ ⟨?_, ?_⟩⟩
  · exact hreached.levelled check ((hreached.settledSince_iff hcomplete).mpr (Or.inl hcheck))
  · exact hreached.levelled check ((hreached.settledSince_iff hcomplete).mpr (Or.inr hcheck))
  · exact hreached.ran check hcheck (by rw [hcomplete.1]; exact not_mem_nil)

/-! ### Courses that complete -/

variable (setting) in
def advances (judgment : Judgment) (moves : List Move) : Judgment :=
  moves.foldl setting.advance judgment

theorem advances_append (judgment : Judgment) (first second : List Move) :
    setting.advances judgment (first ++ second) =
      setting.advances (setting.advances judgment first) second := foldl_append ..

variable {digest : String → String} {artifactRef : String}

theorem course_of_advances
    (hopening : setting.opening digest artifactRef = some opening) {moves : List Move}
    (hmoves : ∀ move ∈ moves, move ≠ .crash) :
    setting.course digest artifactRef moves = some (setting.advances opening moves) := by
  unfold course advances
  rw [hopening]
  clear hopening
  induction moves generalizing opening with
  | nil => rfl
  | cons move rest ih =>
    rw [foldl_cons, foldl_cons]
    unfold Setting.move
    rw [if_neg (hmoves move mem_cons_self)]
    exact ih fun other hother ↦ hmoves other (mem_cons_of_mem _ hother)

theorem Reached.advances (hreached : setting.Reached opening judgment) (hopened : opening.Opened)
    (moves : List Move) : setting.Reached opening (setting.advances judgment moves) := by
  induction moves generalizing judgment with
  | nil => exact hreached
  | cons move rest ih => exact ih (hreached.advance hopened move)

/-- A dispatch that is acknowledged sends a required delegation, and touches no other. -/
theorem get?_dispatch (judgment : Judgment) (check other : String) :
    (setting.advance judgment (.dispatch check true)).delegations.get? other =
      (judgment.delegations.get? other).map fun delegation ↦
        if other = check ∧ delegation.state = .required then
          { delegation with state := .dispatched } else delegation := by
  rcases advance_dispatch judgment check true with hsame | ⟨delegation, hfound, hstate, hnext⟩
  · rw [hsame]
    cases hfound : judgment.delegations.get? other with
    | none => rfl
    | some delegation =>
      rw [Option.map_some, if_neg]
      rintro ⟨rfl, hstate⟩
      have hsent : setting.advance judgment (.dispatch other true) =
          judgment.withDelegation other { delegation with state := .dispatched } := by
        rw [advance_dispatch_eq]
        unfold Judgment.dispatchDelegation Judgment.requireDelegation
        rw [hfound]
        change judgment.after (do
          let dispatched ← delegation.dispatch true
          return judgment.withDelegation other dispatched) = _
        unfold Delegation.dispatch
        rw [if_neg (not_not_intro hstate)]
        rfl
      rw [hsent] at hsame
      have hget := congrArg (fun judgment : Judgment ↦ judgment.delegations.get? other) hsame
      rw [get?_withDelegation, if_pos rfl, hfound, Option.some.injEq] at hget
      have hsent := congrArg Delegation.state hget
      rw [hstate] at hsent
      cases hsent
  · rw [hnext, get?_withDelegation]
    by_cases hsame : check = other
    · subst hsame
      rw [if_pos rfl, hfound, Option.map_some, if_pos ⟨rfl, hstate⟩]
    · rw [if_neg hsame]
      cases judgment.delegations.get? other with
      | none => rfl
      | some found => rw [Option.map_some, if_neg fun h ↦ hsame h.1.symm]

def sending (checks : List String) : List Move := checks.map fun check ↦ .dispatch check true

theorem get?_sending (judgment : Judgment) (checks : List String) (other : String) :
    (setting.advances judgment (sending checks)).delegations.get? other =
      (judgment.delegations.get? other).map fun delegation ↦
        if other ∈ checks ∧ delegation.state = .required then
          { delegation with state := .dispatched } else delegation := by
  induction checks generalizing judgment with
  | nil => simp [sending, advances]
  | cons check rest ih =>
    change (setting.advances (setting.advance judgment (.dispatch check true))
      (sending rest)).delegations.get? other = _
    rw [ih, get?_dispatch, Option.map_map]
    refine Option.map_congr fun delegation _ ↦ ?_
    by_cases hstate : delegation.state = .required
    · by_cases hsame : other = check
      · simp [hsame, hstate]
      · simp [hsame, hstate]
    · simp [hstate]

/-- The poll of a delegation at this time settles it: it is dispatched, and its result is there or
its deadline has passed. -/
def Due (setting : Setting) (delegation : Delegation) (now : Rat) : Prop :=
  delegation.state = .dispatched ∧
    (setting.script.poll delegation.key now = none → delegation.deadline ≤ now)

instance (delegation : Delegation) (now : Rat) : Decidable (setting.Due delegation now) :=
  inferInstanceAs (Decidable (_ ∧ _))

/-- Assumes: the levels of the delegated checks are not empty. A poll settles its delegation when it
is due, and touches no other. -/
theorem Reached.get?_poll (hreached : setting.Reached opening judgment) (hopened : opening.Opened)
    (hjudgeable : setting.Judgeable opening) (check other : String) (now : Rat) :
    (setting.advance judgment (.poll check now)).delegations.get? other =
      (judgment.delegations.get? other).map fun delegation ↦
        if other = check ∧ setting.Due delegation now then
          delegation.settled (setting.script.poll delegation.key now) else delegation := by
  have hartifact : judgment.artifactRef ≠ "" := hreached.artifactRef ▸ hopened.artifactRef
  have hsettling : ∀ (delegation : Delegation) (fate : Option String) (level : String),
      (judgment.settling check delegation fate level).delegations.get? other =
        if check = other then some (delegation.settled fate)
        else judgment.delegations.get? other := fun _ _ _ ↦ get?_withDelegation
  by_cases hdue : ∃ delegation, judgment.delegations.get? check = some delegation ∧
      setting.Due delegation now
  · obtain ⟨delegation, hfound, hdue⟩ := hdue
    obtain ⟨level, hlevel, hnonempty⟩ := hjudgeable.1 check (by
      rw [← hreached.keys]
      exact (exists_get?_iff _).mp ⟨delegation, hfound⟩)
    have hnext : setting.advance judgment (.poll check now) =
        judgment.settling check delegation (setting.script.poll delegation.key now) level := by
      rw [advance_poll_eq]
      unfold answer
      rw [hfound, Option.bind_some, (Judgment.resolveDelegation_of_due hfound hdue.1 hdue.2
        hartifact (setting.script.poll_ne_empty delegation.key now)).mpr
          ⟨level, hreached.levels ▸ hlevel, hnonempty, rfl⟩]
      rfl
    rw [hnext, hsettling]
    by_cases hsame : check = other
    · subst hsame
      rw [if_pos rfl, hfound, Option.map_some, if_pos ⟨rfl, hdue⟩]
    · rw [if_neg hsame]
      cases judgment.delegations.get? other with
      | none => rfl
      | some found => rw [Option.map_some, if_neg fun h ↦ hsame h.1.symm]
  · have hnext : setting.advance judgment (.poll check now) = judgment := by
      rcases advance_poll hartifact check now with hsame |
        ⟨delegation, level, hfound, hstate, -, -, hdeadline, -⟩
      · exact hsame
      · exact absurd ⟨delegation, hfound, hstate, hdeadline⟩ hdue
    rw [hnext]
    cases hfound : judgment.delegations.get? other with
    | none => rfl
    | some found =>
      rw [Option.map_some, if_neg]
      rintro ⟨rfl, hother⟩
      exact hdue ⟨found, hfound, hother⟩

def polling (checks : List String) (now : Rat) : List Move := checks.map fun check ↦ .poll check now

theorem not_due_settled (delegation : Delegation) (fate : Option String) (now : Rat) :
    ¬ setting.Due (delegation.settled fate) now := by
  rintro ⟨hstate, -⟩
  cases fate <;> cases hstate

theorem Reached.get?_polling (hreached : setting.Reached opening judgment)
    (hopened : opening.Opened) (hjudgeable : setting.Judgeable opening) (checks : List String)
    (other : String) (now : Rat) :
    (setting.advances judgment (polling checks now)).delegations.get? other =
      (judgment.delegations.get? other).map fun delegation ↦
        if other ∈ checks ∧ setting.Due delegation now then
          delegation.settled (setting.script.poll delegation.key now) else delegation := by
  induction checks generalizing judgment with
  | nil => simp [polling, Setting.advances]
  | cons check rest ih =>
    change (setting.advances (setting.advance judgment (.poll check now))
      (polling rest now)).delegations.get? other = _
    rw [ih (hreached.advance hopened _), hreached.get?_poll hopened hjudgeable, Option.map_map]
    refine Option.map_congr fun delegation _ ↦ ?_
    by_cases hdue : setting.Due delegation now
    · by_cases hsame : other = check
      · simp [hsame, hdue, not_due_settled]
      · simp [hsame, hdue]
    · simp [hdue]

def running (checks : List String) : List Move := checks.map Move.runStatic

section

variable (hreached : setting.Reached opening judgment)

include hreached

theorem Reached.delegations_running (hopened : opening.Opened) (checks : List String) :
    (setting.advances judgment (running checks)).delegations = judgment.delegations := by
  induction checks generalizing judgment with
  | nil => rfl
  | cons check rest ih =>
    refine (ih (hreached.advance hopened (.runStatic check))).trans ?_
    have hartifact : judgment.artifactRef ≠ "" := hreached.artifactRef ▸ hopened.artifactRef
    rcases advance_static hartifact check with hsame | ⟨outcome, level, -, -, -, -, hnext⟩
    · rw [hsame]
    · rw [hnext]
      rfl

/-- A static check that answers, at a level that is not empty, is pending no more once it was
run. -/
theorem Reached.pending_static
    (hopened : opening.Opened) (hjudgeable : setting.Judgeable opening) (check : String) :
    (setting.advance judgment (.runStatic check)).staticPending =
      judgment.staticPending.filter fun name ↦ name ≠ check := by
  have hartifact : judgment.artifactRef ≠ "" := hreached.artifactRef ▸ hopened.artifactRef
  by_cases hpending : check ∈ judgment.staticPending
  · obtain ⟨⟨level, hlevel, hnonempty⟩, outcome, hrun⟩ :=
      hjudgeable.2 check (hreached.pending check hpending)
    have hsource : "static:" ++ check ≠ "" := by
      intro hempty
      have hlist := congrArg String.toList hempty
      simp at hlist
    have houtcome : outcome ≠ "" := by
      rcases runRegistered_eq_ok hrun with rfl | rfl
      · decide
      · decide
    rw [← hreached.artifactRef] at hrun
    have hobserved := (@Judgment.observe_eq_ok_iff judgment _ check ("static:" ++ check) outcome
      "independent" (by decide) (by decide) hartifact hsource houtcome).mpr
        ⟨level, hreached.levels ▸ hlevel, hnonempty, rfl⟩
    rw [advance_static_eq]
    unfold Judgment.runStaticCheck
    rw [if_neg (not_not_intro hpending), hrun]
    change (judgment.after (do
      let observed ← judgment.observe check ("static:" ++ check) outcome "independent"
      return { observed with
        staticPending := judgment.staticPending.filter fun name ↦ name ≠ check })).staticPending = _
    rw [hobserved]
    rfl
  · have hfilter : judgment.staticPending.filter (fun name ↦ name ≠ check) =
        judgment.staticPending := by
      refine filter_eq_self.mpr fun name hname ↦ decide_eq_true fun hsame ↦ ?_
      exact hpending (hsame ▸ hname)
    rcases @advance_static setting _ hartifact check with hsame | ⟨outcome, level, hmem, -⟩
    · rw [hsame, hfilter]
    · exact absurd hmem hpending

theorem Reached.pending_running
    (hopened : opening.Opened) (hjudgeable : setting.Judgeable opening) (checks : List String) :
    (setting.advances judgment (running checks)).staticPending =
      judgment.staticPending.filter fun name ↦ name ∉ checks := by
  induction checks generalizing judgment with
  | nil => simp [running, Setting.advances]
  | cons check rest ih =>
    refine (ih (hreached.advance hopened (.runStatic check))).trans ?_
    rw [hreached.pending_static hopened hjudgeable, filter_filter]
    refine filter_congr fun name _ ↦ ?_
    by_cases hname : name = check <;> simp [hname]

end

/-- Poll every delegated check at one time, then run every static check. -/
def finishing (opening : Judgment) (now : Rat) : List Move :=
  polling opening.delegations.keys now ++ running opening.staticPending

theorem Reached.get?_finishing (hreached : setting.Reached opening judgment)
    (hopened : opening.Opened) (hjudgeable : setting.Judgeable opening) (now : Rat)
    {delegation : Delegation} (hfound : judgment.delegations.get? check = some delegation) :
    (setting.advances judgment (finishing opening now)).delegations.get? check =
      some (if setting.Due delegation now then
        delegation.settled (setting.script.poll delegation.key now) else delegation) := by
  have hmem : check ∈ opening.delegations.keys := by
    rw [← hreached.keys]
    exact (exists_get?_iff _).mp ⟨delegation, hfound⟩
  unfold finishing
  rw [advances_append, (hreached.advances hopened _).delegations_running hopened,
    hreached.get?_polling hopened hjudgeable, hfound, Option.map_some]
  simp only [hmem, true_and]

/-- Assumes: every delegation was sent, and the time is past all deadlines. Finishing completes the
judgment. -/
theorem Reached.complete_finishing (hreached : setting.Reached opening judgment)
    (hopened : opening.Opened) (hjudgeable : setting.Judgeable opening) {now : Rat}
    (hsent : ∀ check delegation, judgment.delegations.get? check = some delegation →
      delegation.state ≠ .required)
    (hpast : ∀ check planned, opening.delegations.get? check = some planned →
      planned.deadline ≤ now) : (setting.advances judgment (finishing opening now)).Complete := by
  have hfinished := hreached.advances hopened (finishing opening now)
  constructor
  · have hpolled := hreached.advances hopened (polling opening.delegations.keys now)
    unfold finishing
    rw [advances_append, hpolled.pending_running hopened hjudgeable, filter_eq_nil_iff]
    intro check hcheck
    simp [hpolled.pending check hcheck]
  · intro delegation hdelegation
    obtain ⟨⟨check, found⟩, hitem, rfl⟩ := mem_map.mp hdelegation
    have hafter := (get?_eq_some_iff _).mpr hitem
    obtain ⟨planned, hplanned, -⟩ := hfinished.exists_planned hafter
    obtain ⟨before, hbefore, hfate⟩ := hreached.fates check planned hplanned
    rw [hreached.get?_finishing hopened hjudgeable now hbefore, Option.some.injEq] at hafter
    rw [← hafter]
    by_cases hterminal : before.state.terminal = true
    · by_cases hdue : setting.Due before now
      · rw [if_pos hdue, Delegation.terminal_settled]
      · rw [if_neg hdue, hterminal]
    · have hdispatched : before.state = .dispatched := by
        have hrequired := hsent check before hbefore
        cases hstate : before.state with
        | required => exact absurd hstate hrequired
        | dispatched => rfl
        | resulted | expired => exact absurd (by rw [hstate]; rfl) hterminal
      have hdeadline : before.deadline ≤ now := by
        rw [(Fate.planned_of_transit hfate (Bool.eq_false_iff.mpr hterminal)).2.1]
        exact hpast check planned hplanned
      rw [if_pos ⟨hdispatched, fun _ ↦ hdeadline⟩, Delegation.terminal_settled]

/-! ### Late results -/

theorem exists_past (opening : Judgment) (time : Rat) :
    ∃ now, time ≤ now ∧ ∀ check planned, opening.delegations.get? check = some planned →
      planned.deadline ≤ now := by
  obtain ⟨now, hnow⟩ :=
    (time :: opening.delegations.values.map Delegation.deadline).toFinset.exists_le
  refine ⟨now, hnow time (by simp), fun check planned hplanned ↦ hnow _ ?_⟩
  rw [mem_toFinset]
  refine mem_cons_of_mem _ (mem_map_of_mem ?_)
  exact mem_map_of_mem ((get?_eq_some_iff _).mp hplanned)

theorem times_sending (checks : List String) : (sending checks).filterMap Move.time? = [] := by
  unfold sending
  rw [filterMap_map, filterMap_eq_nil_iff]
  exact fun _ _ ↦ rfl

theorem times_finishing (opening : Judgment) (now : Rat) :
    (finishing opening now).filterMap Move.time? = opening.delegations.keys.map fun _ ↦ now := by
  have hrunning : (running opening.staticPending).filterMap Move.time? = [] := by
    unfold running
    rw [filterMap_map, filterMap_eq_nil_iff]
    exact fun _ _ ↦ rfl
  unfold finishing polling
  rw [filterMap_append, hrunning, append_nil, filterMap_map]
  exact congrFun (@List.filterMap_eq_map _ _ fun _ ↦ now) _

theorem ordered_finishing (opening : Judgment) (checks : List String) (polls : List Move)
    {now : Rat} (hpolls : Ordered polls) (hnow : ∀ time ∈ polls.filterMap Move.time?, time ≤ now) :
    Ordered (sending checks ++ polls ++ finishing opening now) := by
  unfold Ordered at *
  rw [filterMap_append, filterMap_append, times_sending, times_finishing, nil_append]
  refine pairwise_append.mpr ⟨hpolls, ?_, fun time htime last hlast ↦ ?_⟩
  · rw [pairwise_map]
    exact pairwise_of_forall fun _ _ ↦ le_refl now
  · obtain ⟨-, -, rfl⟩ := mem_map.mp hlast
    exact hnow time htime

/-- Assumes: the judgment can be completed, and the result of one of its checks arrives after the
deadline. Two courses complete it, one with the expiry and one with the result. -/
theorem not_agree_of_late
    (hopening : setting.opening digest artifactRef = some opening) (hopened : opening.Opened)
    (hjudgeable : setting.Judgeable opening) {planned : Delegation}
    {arrival : Rat} {outcome : RunOutcome}
    (hplanned : opening.delegations.get? check = some planned)
    (hscript : setting.script planned.key = some (arrival, outcome))
    (hlate : planned.deadline < arrival) :
    ∃ first second : List Move, Ordered first ∧ Ordered second ∧ ∃ one other : Judgment,
      setting.course digest artifactRef first = some one ∧ one.Complete ∧
      setting.course digest artifactRef second = some other ∧ other.Complete ∧
      one.delegations.get? check ≠ other.delegations.get? check := by
  obtain ⟨now, harrival, hpast⟩ := exists_past opening arrival
  have hbetween : setting.script.poll planned.key planned.deadline = none := by
    unfold Script.poll
    rw [hscript]
    exact if_pos hlate
  have hafter : setting.script.poll planned.key now = some (ClosedVocabulary.text outcome) := by
    unfold Script.poll
    rw [hscript]
    exact if_neg (not_lt.mpr harrival)
  -- Everything is sent; then the check is polled at its deadline, or only when its result is there.
  let keys := opening.delegations.keys
  let sent := setting.advances opening (sending keys)
  have hreached : setting.Reached opening sent := (Reached.refl hopened).advances hopened _
  have hsent : ∀ other delegation, opening.delegations.get? other = some delegation →
      sent.delegations.get? other = some { delegation with state := .dispatched } := by
    intro other delegation hother
    have hmem : other ∈ keys := (exists_get?_iff _).mp ⟨delegation, hother⟩
    rw [get?_sending, hother, Option.map_some,
      if_pos ⟨hmem, (hopened.required other delegation hother).1⟩]
  have hstates : ∀ other delegation, sent.delegations.get? other = some delegation →
      delegation.state = .dispatched := by
    intro other delegation hother
    obtain ⟨plan, hplan, -⟩ := hreached.exists_planned hother
    rw [hsent other plan hplan, Option.some.injEq] at hother
    rw [← hother]
  let polled := setting.advance sent (.poll check planned.deadline)
  have hpolled : setting.Reached opening polled := hreached.advance hopened _
  have hget : ∀ other, polled.delegations.get? other = _ := fun other ↦
    hreached.get?_poll hopened hjudgeable check other planned.deadline
  have hexpired : polled.delegations.get? check =
      some (({ planned with state := .dispatched } : Delegation).settled none) := by
    rw [hget, hsent check planned hplanned, Option.map_some, if_pos]
    · exact congrArg (fun fate ↦ some (Delegation.settled _ fate)) hbetween
    · exact ⟨rfl, rfl, fun _ ↦ le_refl _⟩
  have hfirst : (setting.advances polled (finishing opening now)).delegations.get? check =
      some (({ planned with state := .dispatched } : Delegation).settled none) := by
    rw [hpolled.get?_finishing hopened hjudgeable now hexpired, if_neg (not_due_settled _ _ _)]
  have hsecond : (setting.advances sent (finishing opening now)).delegations.get? check =
      some (({ planned with state := .dispatched } : Delegation).settled
        (some (ClosedVocabulary.text outcome))) := by
    rw [hreached.get?_finishing hopened hjudgeable now (hsent check planned hplanned), if_pos]
    · exact congrArg (fun fate ↦ some (Delegation.settled _ fate)) hafter
    · exact ⟨rfl, fun _ ↦ hpast check planned hplanned⟩
  have hcrashless : ∀ polls : List Move, (∀ move ∈ polls, move ≠ .crash) →
      ∀ move ∈ sending keys ++ polls ++ finishing opening now, move ≠ .crash := by
    rintro polls hpolls move hmove rfl
    simp only [mem_append, sending, finishing, polling, running, mem_map, reduceCtorEq,
      and_false, exists_false, false_or, or_false] at hmove
    exact hpolls _ hmove rfl
  refine ⟨sending keys ++ [.poll check planned.deadline] ++ finishing opening now,
    sending keys ++ [] ++ finishing opening now, ?_, ?_,
    setting.advances polled (finishing opening now), setting.advances sent (finishing opening now),
    ?_, ?_, ?_, ?_, ?_⟩
  · refine ordered_finishing opening keys _ (pairwise_singleton _ _) fun time htime ↦ ?_
    rw [mem_singleton.mp htime]
    exact hpast check planned hplanned
  · exact ordered_finishing opening keys [] List.Pairwise.nil fun time htime ↦ by cases htime
  · rw [course_of_advances hopening (hcrashless _ fun move hmove ↦ by
      rw [mem_singleton.mp hmove]
      simp), advances_append, advances_append]
    rfl
  · refine hpolled.complete_finishing hopened hjudgeable (fun other delegation hother ↦ ?_) hpast
    rw [hget] at hother
    obtain ⟨before, hbefore, rfl⟩ := Option.map_eq_some_iff.mp hother
    have hdispatched := hstates other before hbefore
    split
    · intro hrequired
      have hterminal := Delegation.terminal_settled before
        (setting.script.poll before.key planned.deadline)
      rw [hrequired] at hterminal
      cases hterminal
    · rw [hdispatched]
      decide
  · rw [course_of_advances hopening (hcrashless [] fun move hmove ↦ by cases hmove),
      advances_append, append_nil]
  · refine hreached.complete_finishing hopened hjudgeable (fun other delegation hother ↦ ?_) hpast
    rw [hstates other delegation hother]
    decide
  · rw [hfirst, hsecond]
    intro hsame
    have hresult := congrArg (fun found : Option Delegation ↦ found.map Delegation.result) hsame
    simp at hresult

/-- A crash reopens the judgment exactly when the engine takes every demand event. -/
theorem rebuilt_iff (hopening : setting.opening digest artifactRef = some opening) :
    setting.rebuilt digest artifactRef = setting.opening digest artifactRef ↔
      (restarted digest setting.persisted setting.rulesStore).TakesAll setting.demandEvents := by
  have hrebuild := @rebuild_eq_ok_iff digest setting.demandEvents setting.persisted
    setting.rulesStore setting.monotonic
  constructor
  · intro hsame
    rw [hopening] at hsame
    obtain ⟨projection, hprojection, -⟩ := Option.bind_eq_some_iff.mp hsame
    cases hcase : rebuild digest setting.demandEvents setting.persisted setting.rulesStore with
    | error refusal =>
      rw [hcase] at hprojection
      cases hprojection
    | ok other => exact (hrebuild.mp hcase).1
  · intro htakes
    unfold rebuilt
    rw [hrebuild.mpr ⟨htakes, rfl⟩]
    rfl

/-- Assumes: the demand events opened the judgment. It does not depend on polls and crashes exactly
when every demand event is taken and, if it can be completed at all, no result of its delegated
checks arrives after the deadline. -/
theorem unaffected_iff (setting : Setting) (digest : String → String)
    (quotient : Nat → Nat → Rat) (policy : DerivationPolicy) (artifactRef : String)
    (opening : Judgment) (hopening : setting.opening digest artifactRef = some opening) :
    setting.Unaffected digest artifactRef quotient policy ↔
      (restarted digest setting.persisted setting.rulesStore).TakesAll setting.demandEvents ∧
        (setting.Judgeable opening → setting.Punctual opening) := by
  have hopened : opening.Opened := by
    refine Engine.opened_of_handling setting.demandEvents (fun other judgment hfound ↦ ?_)
      artifactRef opening hopening
    cases hfound
  unfold Unaffected
  rw [rebuilt_iff hopening]
  refine and_congr_right fun htakes ↦ ?_
  have hrebuilt := (rebuilt_iff hopening).mpr htakes
  rw [hopening] at hrebuilt
  constructor
  · intro hagree hjudgeable check planned hplanned arrival outcome hscript
    by_contra hlate
    obtain ⟨first, second, hfirst, hsecond, one, other, hone, hcomplete, hother,
        hcompleteOther, hne⟩ :=
      not_agree_of_late hopening hopened hjudgeable hplanned hscript (not_le.mp hlate)
    exact hne ((hagree first second hfirst hsecond one other hone hcomplete hother
      hcompleteOther).1 check)
  · intro hpunctual first second _ _ one other hone hcomplete hother hcompleteOther
    have hreached := reached_of_course hopened hopening hrebuilt hone
    exact agree_of_punctual hopened (hpunctual (hreached.judgeable hcomplete)) hreached hcomplete
      (reached_of_course hopened hopening hrebuilt hother) hcompleteOther

end Setting

/-- A demand for a delegated and a static check. -/
def fullDemand : Demand :=
  ⟨"verify.requested", "e1", "artifact:a1", "judgment:a1", "plugin_output", 1,
    OrderedDict.empty.insert "structural" "structural",
    OrderedDict.empty.insert "reference_wellformed" "system"⟩

/-- The deadline of the delegated check is at 10, its result arrives at 12. -/
def lateSetting : Setting where
  rulesStore := (plainRun [.ingest 1 pluginSpecs]).rulesStore
  monotonic := (sound_run [.ingest 1 pluginSpecs]).monotonic
  demandEvents := [fullDemand]
  persisted := .empty
  registry := builtInChecks
  metadata _ := .null
  script key := if key = "judgment:a1:structural" then some (12, .success) else none

/-- The check is sent, polled once at the time given, and the static check is run. -/
def polledAt (now : Rat) : List Move :=
  [.dispatch "structural" true, .poll "structural" now, .runStatic "reference_wellformed"]

theorem unaffected_iff_late :
    ∃ opening, lateSetting.opening plainDigest "artifact:a1" = some opening ∧
      (lateSetting.Unaffected plainDigest "artifact:a1" plainQuotient plainPolicy ↔
        (restarted plainDigest lateSetting.persisted lateSetting.rulesStore).TakesAll
            lateSetting.demandEvents ∧
          (lateSetting.Judgeable opening → lateSetting.Punctual opening)) := by
  obtain ⟨opening, hopening⟩ := Option.isSome_iff_exists.mp
    (show (lateSetting.opening plainDigest "artifact:a1").isSome = true by decide +kernel)
  exact ⟨opening, hopening, Setting.unaffected_iff lateSetting plainDigest plainQuotient plainPolicy
    "artifact:a1" opening hopening⟩

/-- A poll at the deadline expires the check and fails the artifact; a first poll at the arrival of
the result passes it. -/
theorem not_unaffected :
    ¬ ∀ (first second : List Move) (one other : Judgment), Ordered first → Ordered second →
      lateSetting.course plainDigest "artifact:a1" first = some one → one.Complete →
      lateSetting.course plainDigest "artifact:a1" second = some other → other.Complete →
      (findings plainQuotient plainPolicy one.record).map Findings.verdict =
        (findings plainQuotient plainPolicy other.record).map Findings.verdict := by
  intro hlaw
  have hview : ∀ now verdict, (lateSetting.course plainDigest "artifact:a1" (polledAt now)).map
      (fun judgment ↦ (decide judgment.Complete,
        (findings plainQuotient plainPolicy judgment.record).map Findings.verdict)) =
          some (true, some verdict) →
      ∃ judgment, lateSetting.course plainDigest "artifact:a1" (polledAt now) = some judgment ∧
        judgment.Complete ∧
        (findings plainQuotient plainPolicy judgment.record).map Findings.verdict =
          some verdict := by
    intro now verdict hview
    obtain ⟨judgment, hjudgment, hseen⟩ := Option.map_eq_some_iff.mp hview
    exact ⟨judgment, hjudgment, of_decide_eq_true (congrArg Prod.fst hseen), congrArg
      Prod.snd hseen⟩
  obtain ⟨one, hone, hcomplete, hfailed⟩ := hview 10 .failed (by decide +kernel)
  obtain ⟨other, hother, hcompleteOther, hpassed⟩ := hview 12 .passed (by decide +kernel)
  have hsame := hlaw (polledAt 10) (polledAt 12) one other (pairwise_singleton _ _)
    (pairwise_singleton _ _) hone hcomplete hother hcompleteOther
  rw [hfailed, hpassed] at hsame
  cases hsame

end AbsoluteZero.Verification

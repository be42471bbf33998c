import AbsoluteZero.Cm.Candidate
import AbsoluteZero.Foundations.Checked
import AbsoluteZero.Foundations.SortedSet
import Mathlib.Data.Prod.Lex

/-!
# The budget fitter

`sectionEnvelopes` carves the budget by the section weights, and `fit` places the candidates in
their order, each at the richest tier that fits what is left of its section's envelope and of the
budget, or nowhere. The invariant of the walk is `Accounts` (`Fitting.walk_induct`).
-/

namespace AbsoluteZero.Cm

open Foundations List

/-- What ends an assembly: a `ValueError` of a pass with its text, the `ValueError` that carries the
reason of the validator, the arithmetic of the envelopes, or an exception of an operator. -/
inductive Failure
  | refused (text : String)
  | invalid (reason : String)
  | arithmetic
  | raised (error : PyError)
  deriving DecidableEq

/-- A check that passes names the result that it passes on. -/
theorem exists_of_check {Result : Type} {outcome : Except Failure Result} {check : Result → Bool}
    (hcheck : outcome.toOption.any check = true) :
    ∃ result, outcome = .ok result ∧ check result = true := by
  cases outcome with
  | error failure => cases hcheck
  | ok result => exact ⟨result, rfl, hcheck⟩

def tokenCount : Json → Nat
  | .str text => wordCount text
  | _ => 0

/-- `int(value)`. -/
def truncate (value : Rat) : Int := value.num.tdiv value.den

theorem truncate_nonneg {value : Rat} (hvalue : 0 ≤ value) : 0 ≤ truncate value :=
  Int.tdiv_nonneg (Rat.num_nonneg.mpr hvalue) (Int.natCast_nonneg _)

/-- `items[:stop]`, where a negative stop counts from the end. -/
def sliceTo {Entry : Type} (items : List Entry) (stop : Int) : List Entry :=
  items.take (if 0 ≤ stop then stop else items.length + stop).toNat

/-- `raw[s]`. -/
def rawShare (floats : FloatShare) (config : ConfigView) (budgetTokens : Int) (name : String) :
    Option Rat :=
  floats.share (sectionNames.map config.weightOf) (config.weightOf name) budgetTokens.toNat

theorem rawShare_nonneg {floats : FloatShare} {config : ConfigView} {budgetTokens : Int}
    (name : String) : 0 ≤ (rawShare floats config budgetTokens name).getD 0 := by
  have hweights : ∀ weight ∈ sectionNames.map config.weightOf, 0 ≤ weight := by
    intro weight hweight
    obtain ⟨other, -, rfl⟩ := mem_map.mp hweight
    exact config.weightOf_nonneg other
  cases hshare : rawShare floats config budgetTokens name with
  | none => exact le_rfl
  | some raw => exact floats.nonneg hweights (config.weightOf_nonneg name) hshare

/-- The largest-remainder method: the floors of the shares, and one more for the sections with the
largest fractional parts. -/
def carve (budgetTokens : Int) (raw : String → Rat) : OrderedDict String Int :=
  let remainder := budgetTokens - (sectionNames.map fun name ↦ truncate (raw name)).sum
  let order := sortedBy (fun name ↦ toLex (-(raw name - truncate (raw name)), name)) sectionNames
  bySection fun name ↦ truncate (raw name) + if name ∈ sliceTo order remainder then 1 else 0

def sectionEnvelopes (floats : FloatShare) (config : ConfigView) (budgetTokens : Int) :
    Except Failure (OrderedDict String Int) :=
  if budgetTokens < 0 then .error (.refused "budgeter.bad_budget_tokens")
  else if (sectionNames.map config.weightOf).sum ≤ 0 ∨ budgetTokens = 0 then
    .ok (bySection fun _ ↦ 0)
  else if sectionNames.any fun name ↦ (rawShare floats config budgetTokens name).isNone then
    .error .arithmetic
  else .ok (carve budgetTokens fun name ↦ (rawShare floats config budgetTokens name).getD 0)

variable {floats : FloatShare} {config : ConfigView} {budgetTokens : Int}

variable {envelopes : OrderedDict String Int}

/-- No envelope is negative. -/
theorem sectionEnvelopes_nonneg
    (henvelopes : sectionEnvelopes floats config budgetTokens = .ok envelopes) {name : String}
    (hname : name ∈ sectionNames) : ∃ envelope, envelopes.get? name = some envelope ∧
      0 ≤ envelope := by
  unfold sectionEnvelopes at henvelopes
  split at henvelopes
  · cases henvelopes
  · split at henvelopes
    · cases henvelopes
      exact ⟨0, get?_bySection _ hname, le_rfl⟩
    · split at henvelopes
      · cases henvelopes
      · cases henvelopes
        refine ⟨_, get?_bySection _ hname, ?_⟩
        have hfloor := truncate_nonneg (@rawShare_nonneg floats config budgetTokens name)
        beta_reduce
        split <;> omega

theorem nonneg_of_sectionEnvelopes
    (henvelopes : sectionEnvelopes floats config budgetTokens = .ok envelopes) :
    0 ≤ budgetTokens := by
  unfold sectionEnvelopes at henvelopes
  split at henvelopes
  · cases henvelopes
  · omega

def tiers : List String := ["full", "section", "reference"]

/-- The first of the tiers whose text has room. A tier that is missing is refused when it is
reached. -/
def chooseTier (fields : List (String × Json)) (room : Nat → Bool) :
    List String → Except Failure (Option (String × Json))
  | [] => .ok none
  | tier :: rest =>
    match OrderedDict.find tier fields with
    | none => .error (.refused ("budgeter.malformed_candidate:missing_tier:" ++ tier))
    | some text => if room (tokenCount text) then .ok (some (tier, text)) else
      chooseTier fields room rest

/-- The loop over `_tier_options(content)`: content that is no dict is its own full tier. -/
def choose (room : Nat → Bool) : Json → Except Failure (Option (String × Json))
  | .obj fields => chooseTier fields room tiers
  | content => .ok (if room (tokenCount content) then some ("full", content) else none)

def Offers (content : Json) (tier : String) (text : Json) : Prop :=
  match content with
  | .obj fields => tier ∈ tiers ∧ OrderedDict.find tier fields = some text
  | other => tier = "full" ∧ text = other

/-- The text is offered at the tier and costs what there is room for, and no richer tier does. -/
structure Picks (content : Json) (room : Nat → Bool) (tier : String) (text : Json) : Prop where
  offers : Offers content tier text
  fits : room (tokenCount text) = true
  richest : ∀ richer poorer, tiers = richer ++ tier :: poorer → ∀ other ∈ richer, ∀ text',
    Offers content other text' → room (tokenCount text') = false

variable {content : Json} {tier : String}

theorem Picks.eq_full {room : Nat → Bool} {text full : Json}
    (hpicks : Picks content room tier text) (hfull : Offers content "full" full)
    (hroom : room (tokenCount full) = true) : text = full := by
  have hrich : ∀ {richer poorer : List String}, tiers = richer ++ tier :: poorer →
      "full" ∉ richer := by
    intro richer poorer htiers hmem
    have hnone := hpicks.richest richer poorer htiers _ hmem full hfull
    rw [hroom] at hnone
    cases hnone
  have hunique : ∀ fields, content = .obj fields → text = full := by
    rintro fields rfl
    obtain ⟨richer, poorer, htiers⟩ := append_of_mem hpicks.offers.1
    cases richer with
    | nil =>
      obtain rfl : "full" = tier := (List.cons.inj htiers).1
      exact Option.some.inj (hpicks.offers.2.symm.trans hfull.2)
    | cons first rest =>
      obtain rfl : "full" = first := (List.cons.inj htiers).1
      exact absurd mem_cons_self (hrich htiers)
  cases content with
  | obj fields => exact hunique fields rfl
  | null | bool value | int value | float value printed | str printed
  | arr elements => exact hpicks.offers.2.trans hfull.2.symm

theorem chooseTier_cases {fields : List (String × Json)} {room : Nat → Bool}
    {options : List String} {chosen : Option (String × Json)}
    (hchoice : chooseTier fields room options = .ok chosen) :
    (∃ richer poorer tier text, options = richer ++ tier :: poorer ∧ chosen = some (tier, text) ∧
        OrderedDict.find tier fields = some text ∧ room (tokenCount text) = true ∧
        ∀ other ∈ richer, ∀ text', OrderedDict.find other fields = some text' →
          room (tokenCount text') = false) ∨
      chosen = none ∧ ∀ other ∈ options, ∀ text', OrderedDict.find other fields = some text' →
        room (tokenCount text') = false := by
  induction options with
  | nil =>
    cases hchoice
    exact .inr ⟨rfl, nofun⟩
  | cons option rest ih =>
    unfold chooseTier at hchoice
    cases hfind : OrderedDict.find option fields with
    | none => rw [hfind] at hchoice; cases hchoice
    | some offered =>
      simp only [hfind] at hchoice
      by_cases hroom : room (tokenCount offered) = true
      · rw [if_pos hroom] at hchoice
        cases hchoice
        exact .inl ⟨[], rest, option, offered, rfl, rfl, hfind, hroom, nofun⟩
      · rw [if_neg hroom] at hchoice
        have hfirst : ∀ text', OrderedDict.find option fields = some text' →
            room (tokenCount text') = false := by
          intro text' htext
          rw [hfind] at htext
          cases htext
          exact Bool.eq_false_iff.mpr hroom
        rcases ih hchoice with ⟨richer, poorer, tier, text, rfl, rfl, hoffer, hcost, hricher⟩ |
          ⟨rfl, hnone⟩
        · exact .inl ⟨option :: richer, poorer, tier, text, rfl, rfl, hoffer, hcost,
            forall_mem_cons.mpr ⟨hfirst, hricher⟩⟩
        · exact .inr ⟨rfl, forall_mem_cons.mpr ⟨hfirst, hnone⟩⟩

/-- No tier comes twice. -/
theorem richer_unique {richer richer' poorer poorer' : List String}
    (hfirst : tiers = richer ++ tier :: poorer) (hsecond : tiers = richer' ++ tier :: poorer') :
    richer' = richer := by
  have hnodup : (tier :: (richer ++ poorer)).Nodup :=
    nodup_middle.mp (hfirst ▸ (by decide : tiers.Nodup))
  have hnot := (nodup_cons.mp hnodup).1
  rw [mem_append, not_or] at hnot
  exact ((append_cons_inj_of_notMem hnot.1 hnot.2).mp (hfirst.symm.trans hsecond)).1.symm

theorem choose_cases {room : Nat → Bool} {chosen : Option (String × Json)}
    (hchoice : choose room content = .ok chosen) :
    (∃ tier text, chosen = some (tier, text) ∧ Picks content room tier text) ∨
      chosen = none ∧ ∀ tier text, Offers content tier text → room (tokenCount text) = false := by
  have hplain : ∀ other : Json, (∀ tier text, Offers other tier text ↔ tier = "full" ∧ text = other)
      → (.ok (if room (tokenCount other) then some ("full", other) else none) :
        Except Failure (Option (String × Json))) = .ok chosen →
      (∃ tier text, chosen = some (tier, text) ∧ Picks other room tier text) ∨
        chosen = none ∧ ∀ tier text, Offers other tier text → room (tokenCount text) = false := by
    intro other hoffers hother
    by_cases hroom : room (tokenCount other) = true
    · rw [if_pos hroom] at hother
      cases hother
      refine .inl ⟨"full", other, rfl, (hoffers _ _).mpr ⟨rfl, rfl⟩, hroom, ?_⟩
      intro richer poorer htiers name hname text' htext
      have hrich : richer = [] := richer_unique (rfl : tiers = [] ++ "full" :: _) htiers
      rw [hrich] at hname
      cases hname
    · rw [if_neg hroom] at hother
      cases hother
      refine .inr ⟨rfl, fun tier text htext ↦ ?_⟩
      obtain ⟨-, rfl⟩ := (hoffers _ _).mp htext
      exact Bool.eq_false_iff.mpr hroom
  cases content with
  | obj fields =>
    rcases chooseTier_cases hchoice with
      ⟨richer, poorer, tier, text, htiers, rfl, hfind, hroom, hricher⟩ | ⟨rfl, hnone⟩
    · have hmem : tier ∈ tiers := htiers ▸ mem_append_right _ mem_cons_self
      refine .inl ⟨tier, text, rfl, ⟨hmem, hfind⟩, hroom, ?_⟩
      intro richer' poorer' htiers' other hother text' hoffer
      rw [richer_unique htiers htiers'] at hother
      exact hricher other hother text' hoffer.2
    · exact .inr ⟨rfl, fun tier text hoffer ↦ hnone tier hoffer.1 text hoffer.2⟩
  | null | bool value | int value | float value text | str text
  | arr elements => exact hplain _ (fun _ _ ↦ Iff.rfl) hchoice

/-! ### The walk -/

def Candidate.header (candidate : Candidate) : Candidate := { candidate with content := .null }

def Item.header (item : Item) : Candidate where
  id := item.id
  sectionName := item.sectionName
  content := .null
  score := item.score
  stale := item.stale
  provenance := item.provenance
  contradiction := item.contradiction

/-- The accounts of the walk. -/
structure Fitting where
  items : List Item
  tokensUsed : Nat
  sectionUsed : OrderedDict String Nat
  dropped : Nat
  degraded : List String

def Fitting.place (fitting : Fitting) (candidate : Candidate) (tier : String) (text : Json) :
    Fitting where
  items := fitting.items ++ [{
    id := candidate.id
    originalId := none
    sectionName := candidate.sectionName
    content := text
    fidelity := tier
    score := candidate.score
    stale := candidate.stale
    provenance := candidate.provenance
    contradiction := candidate.contradiction }]
  tokensUsed := fitting.tokensUsed + tokenCount text
  sectionUsed := fitting.sectionUsed.insert candidate.sectionName
    ((fitting.sectionUsed.get? candidate.sectionName).getD 0 + tokenCount text)
  dropped := fitting.dropped
  degraded := if tier = "full" then fitting.degraded else fitting.degraded ++ [candidate.id]

/-- `dropped += 1`. -/
def Fitting.drop (fitting : Fitting) : Fitting := { fitting with dropped := fitting.dropped + 1 }

/-- Whether a cost fits what the section and the budget have left. -/
def Fitting.room (envelopes : OrderedDict String Int) (budgetTokens : Int) (fitting : Fitting)
    (name : String) (cost : Nat) : Bool :=
  (cost : Int) ≤ (envelopes.get? name).getD 0 - (fitting.sectionUsed.get? name).getD 0 ∧
    (cost : Int) ≤ budgetTokens - fitting.tokensUsed

/-- The body of the loop over the candidates. -/
def Fitting.step (envelopes : OrderedDict String Int) (budgetTokens : Int) (fitting : Fitting)
    (candidate : Candidate) : Except Failure Fitting :=
  if candidate.sectionName ∉ sectionNames then
    .error (.refused ("budgeter.unknown_section:" ++ candidate.sectionName))
  else
    (choose (fitting.room envelopes budgetTokens candidate.sectionName) candidate.content).map
      fun chosen ↦
        match chosen with
        | none => fitting.drop
        | some (tier, text) => fitting.place candidate tier text

/-- The accounts before the first candidate. -/
def Fitting.start : Fitting where
  items := []
  tokensUsed := 0
  sectionUsed := bySection fun _ ↦ 0
  dropped := 0
  degraded := []

/-- What `fit` returns. -/
structure Fitted extends Fitting where
  sectionBudgets : OrderedDict String Int

def Fitted.truncated (fitted : Fitted) : Bool :=
  0 < fitted.dropped ∨ 0 < fitted.degraded.length

def fit (floats : FloatShare) (config : ConfigView) (budgetTokens : Int)
    (candidates : List Candidate) : Except Failure Fitted := do
  let envelopes ← sectionEnvelopes floats config budgetTokens
  let fitting ← candidates.foldlM (Fitting.step envelopes budgetTokens) .start
  return { fitting with sectionBudgets := envelopes }

namespace Fitting

variable {envelopes : OrderedDict String Int} {budgetTokens : Int}

theorem step_cases {fitting next : Fitting} {candidate : Candidate}
    (hstep : fitting.step envelopes budgetTokens candidate = .ok next) :
    candidate.sectionName ∈ sectionNames ∧ ((∃ tier text, Picks candidate.content
          (fitting.room envelopes budgetTokens candidate.sectionName) tier text ∧
          next = fitting.place candidate tier text) ∨
        (∀ tier text, Offers candidate.content tier text →
          fitting.room envelopes budgetTokens candidate.sectionName (tokenCount text) = false) ∧
          next = fitting.drop) := by
  unfold step at hstep
  by_cases hsection : candidate.sectionName ∈ sectionNames
  · rw [if_neg (not_not_intro hsection)] at hstep
    refine ⟨hsection, ?_⟩
    obtain ⟨chosen, hchoice, hnext⟩ := Checked.bind_eq_ok_iff.mp hstep
    rcases choose_cases hchoice with ⟨tier, text, rfl, hpicks⟩ | ⟨rfl, hnone⟩
    · cases hnext
      exact .inl ⟨tier, text, hpicks, rfl⟩
    · cases hnext
      exact .inr ⟨hnone, rfl⟩
  · rw [if_pos hsection] at hstep
    cases hstep

theorem walk_induct {Holds : List Candidate → Fitting → Prop}
    (hplace : ∀ walked fitting candidate tier text, Holds walked fitting →
      candidate.sectionName ∈ sectionNames →
      Picks candidate.content (fitting.room envelopes budgetTokens
        candidate.sectionName) tier text →
      Holds (walked ++ [candidate]) (fitting.place candidate tier text))
    (hdrop : ∀ walked fitting candidate, Holds walked fitting →
      candidate.sectionName ∈ sectionNames → (∀ tier text, Offers candidate.content tier text →
        fitting.room envelopes budgetTokens candidate.sectionName (tokenCount text) = false) →
      Holds (walked ++ [candidate]) fitting.drop)
    {candidates : List Candidate} : ∀ {walked fitting last}, Holds walked fitting →
      candidates.foldlM (Fitting.step envelopes budgetTokens) fitting = .ok last →
      Holds (walked ++ candidates) last := by
  induction candidates with
  | nil =>
    intro walked fitting last hstart hwalk
    cases hwalk
    rwa [append_nil]
  | cons candidate rest ih =>
    intro walked fitting last hstart hwalk
    rw [foldlM_cons] at hwalk
    obtain ⟨next, hstep, hrest⟩ := Checked.bind_eq_ok_iff.mp hwalk
    rw [append_cons]
    refine ih ?_ hrest
    obtain ⟨hsection, ⟨tier, text, hpicks, rfl⟩ | ⟨hnone, rfl⟩⟩ := step_cases hstep
    · exact hplace walked fitting candidate tier text hstart hsection hpicks
    · exact hdrop walked fitting candidate hstart hsection hnone

variable {fitting : Fitting}

theorem room_eq_true_iff {name : String} {cost : Nat} :
    fitting.room envelopes budgetTokens name cost = true ↔
      (cost : Int) ≤ (envelopes.get? name).getD 0 - (fitting.sectionUsed.get? name).getD 0 ∧
        (cost : Int) ≤ budgetTokens - fitting.tokensUsed :=
  decide_eq_true_iff

structure Accounts (envelopes : OrderedDict String Int) (budgetTokens : Int)
    (walked : List Candidate) (fitting : Fitting) : Prop where
  headers : (fitting.items.map Item.header).Sublist (walked.map Candidate.header)
  offered : ∀ item ∈ fitting.items, item.originalId = none ∧ item.sectionName ∈ sectionNames ∧
    ∃ candidate ∈ walked, item.header = candidate.header ∧
      Offers candidate.content item.fidelity item.content
  used : fitting.tokensUsed = (fitting.items.map fun item ↦ tokenCount item.content).sum
  within : fitting.tokensUsed ≤ budgetTokens
  withinSection : ∀ name ∈ sectionNames,
    ((fitting.sectionUsed.get? name).getD 0 : Int) ≤ (envelopes.get? name).getD 0
  counted : fitting.items.length + fitting.dropped = walked.length

theorem Accounts.place {walked : List Candidate} {candidate : Candidate}
    {text : Json} (haccounts : Accounts envelopes budgetTokens walked fitting)
    (hsection : candidate.sectionName ∈ sectionNames)
    (hpicks : Picks candidate.content (fitting.room envelopes budgetTokens candidate.sectionName)
      tier text) :
    Accounts envelopes budgetTokens (walked ++ [candidate])
      (fitting.place candidate tier text) where
  headers := by
    rw [map_append]
    change ((fitting.items ++ [_]).map Item.header).Sublist _
    rw [map_append]
    exact haccounts.headers.append (List.Sublist.refl _)
  offered := by
    intro item hitem
    rcases mem_append.mp hitem with hitem | hitem
    · obtain ⟨horiginal, hname, source, hsource, hoffer⟩ := haccounts.offered item hitem
      exact ⟨horiginal, hname, source, mem_append_left _ hsource, hoffer⟩
    · obtain rfl := mem_singleton.mp hitem
      exact ⟨rfl, hsection, candidate, mem_append_right _ mem_cons_self, rfl,
        hpicks.offers⟩
  used := by
    change fitting.tokensUsed + _ = ((fitting.items ++ [_]).map _).sum
    rw [map_append, sum_append, haccounts.used]
    rfl
  within := by
    have hroom := (room_eq_true_iff.mp hpicks.fits).2
    change ((fitting.tokensUsed + tokenCount text : Nat) : Int) ≤ budgetTokens
    omega
  withinSection := by
    intro name hmem
    change (((fitting.sectionUsed.insert _ _).get? name).getD 0 : Int) ≤ _
    rw [OrderedDict.get?_insert]
    by_cases hname : candidate.sectionName = name
    · have hroom := (room_eq_true_iff.mp hpicks.fits).1
      rw [if_pos hname, ← hname, Option.getD_some]
      omega
    · rw [if_neg hname]
      exact haccounts.withinSection name hmem
  counted := by
    have hcounted := haccounts.counted
    change (fitting.items ++ [_]).length + fitting.dropped = _
    rw [length_append, length_append, length_singleton, length_singleton]
    omega

theorem Accounts.drop {walked : List Candidate} (candidate : Candidate)
    (haccounts : Accounts envelopes budgetTokens walked fitting) :
    Accounts envelopes budgetTokens (walked ++ [candidate]) fitting.drop :=
  { haccounts with
    headers := by
      rw [map_append]
      exact haccounts.headers.trans (sublist_append_left _ _)
    offered := by
      intro item hitem
      obtain ⟨horiginal, hname, source, hsource, hoffer⟩ := haccounts.offered item hitem
      exact ⟨horiginal, hname, source, mem_append_left _ hsource, hoffer⟩
    counted := by
      have hcounted := haccounts.counted
      change fitting.items.length + (fitting.dropped + 1) = _
      rw [length_append, length_singleton]
      omega }

end Fitting

variable {candidates : List Candidate} {fitted : Fitted}

/-- The envelopes and the walk behind what `fit` returns. -/
theorem exists_walk_of_fit (hfit : fit floats config budgetTokens candidates = .ok fitted) :
    sectionEnvelopes floats config budgetTokens = .ok fitted.sectionBudgets ∧
      candidates.foldlM (Fitting.step fitted.sectionBudgets budgetTokens) .start =
        .ok fitted.toFitting := by
  obtain ⟨envelopes, henvelopes, hrest⟩ := Checked.bind_eq_ok_iff.mp hfit
  obtain ⟨fitting, hwalk, hfitted⟩ := Checked.bind_eq_ok_iff.mp hrest
  cases hfitted
  exact ⟨henvelopes, hwalk⟩

variable {failure : Failure}

theorem exists_refused_of_choose {room : Nat → Bool}
    (hchoice : choose room content = .error failure) : ∃ text, failure = .refused text := by
  have htiers : ∀ (fields : List (String × Json)) (options : List String),
      chooseTier fields room options = .error failure → ∃ text, failure = .refused text := by
    intro fields options htier
    induction options with
    | nil => cases htier
    | cons option rest ih =>
      unfold chooseTier at htier
      cases hfind : OrderedDict.find option fields with
      | none =>
        simp only [hfind] at htier
        cases htier
        exact ⟨_, rfl⟩
      | some offered =>
        simp only [hfind] at htier
        split at htier
        · cases htier
        · exact ih htier
  cases content with
  | obj fields => exact htiers fields tiers hchoice
  | null | bool value | int value | float value text | str text | arr elements => cases hchoice

theorem exists_refused_of_walk {fitting : Fitting}
    (hwalk : candidates.foldlM (Fitting.step envelopes budgetTokens) fitting = .error failure) :
    ∃ text, failure = .refused text := by
  induction candidates generalizing fitting with
  | nil => cases hwalk
  | cons candidate rest ih =>
    rw [foldlM_cons] at hwalk
    cases hstep : fitting.step envelopes budgetTokens candidate with
    | ok next =>
      rw [hstep] at hwalk
      exact ih hwalk
    | error raised =>
      rw [hstep] at hwalk
      cases hwalk
      unfold Fitting.step at hstep
      split at hstep
      · cases hstep
        exact ⟨_, rfl⟩
      · cases hchoice : choose (fitting.room envelopes budgetTokens candidate.sectionName)
            candidate.content with
        | ok chosen => rw [hchoice] at hstep; cases hstep
        | error raised =>
          rw [hchoice] at hstep
          cases hstep
          exact exists_refused_of_choose hchoice

/-- What `fit` raises is a refusal, or the arithmetic of the envelopes. -/
theorem fit_error_cases (hfit : fit floats config budgetTokens candidates = .error failure) :
    sectionEnvelopes floats config budgetTokens = .error .arithmetic ∧ failure = .arithmetic ∨
      sectionEnvelopes floats config budgetTokens ≠ .error .arithmetic ∧
        ∃ text, failure = .refused text := by
  unfold fit at hfit
  cases henvelopes : sectionEnvelopes floats config budgetTokens with
  | error raised =>
    rw [henvelopes] at hfit
    cases hfit
    unfold sectionEnvelopes at henvelopes
    split at henvelopes
    · cases henvelopes
      exact .inr ⟨nofun, _, rfl⟩
    · split at henvelopes
      · cases henvelopes
      · split at henvelopes
        · cases henvelopes
          exact .inl ⟨rfl, rfl⟩
        · cases henvelopes
  | ok envelopes =>
    rw [henvelopes] at hfit
    refine .inr ⟨nofun, ?_⟩
    cases hwalk : candidates.foldlM (Fitting.step envelopes budgetTokens) .start with
    | ok fitting =>
      simp only [bind, Except.bind, hwalk] at hfit
      cases hfit
    | error raised =>
      simp only [bind, Except.bind, hwalk] at hfit
      cases hfit
      exact exists_refused_of_walk hwalk

theorem accounts_start (henvelopes : sectionEnvelopes floats config budgetTokens = .ok envelopes) :
    Fitting.Accounts envelopes budgetTokens [] .start where
  headers := List.Sublist.refl _
  offered := nofun
  used := rfl
  within := nonneg_of_sectionEnvelopes henvelopes
  withinSection := by
    intro name hname
    obtain ⟨envelope, henvelope, hnonneg⟩ := sectionEnvelopes_nonneg henvelopes hname
    have hstart : Fitting.start.sectionUsed.get? name = some 0 := get?_bySection _ hname
    rw [henvelope, hstart]
    exact hnonneg
  counted := rfl

/-- The accounts of everything that `fit` returns. -/
theorem accounts_of_fit (hfit : fit floats config budgetTokens candidates = .ok fitted) :
    Fitting.Accounts fitted.sectionBudgets budgetTokens candidates fitted.toFitting := by
  obtain ⟨henvelopes, hwalk⟩ := exists_walk_of_fit hfit
  refine Fitting.walk_induct (fun walked fitting candidate tier text haccounts hsection hpicks ↦ ?_)
    (fun walked fitting candidate haccounts _ _ ↦ ?_) (accounts_start henvelopes) hwalk
  · exact haccounts.place hsection hpicks
  · exact haccounts.drop candidate

/-- A candidate whose full text costs nothing is placed with it. -/
theorem exists_item_of_free
    (hfit : fit floats config budgetTokens candidates = .ok fitted) {candidate : Candidate}
    (hcandidate : candidate ∈ candidates) {text : Json}
    (hfull : Offers candidate.content "full" text)
    (hfree : tokenCount text = 0) :
    ∃ item ∈ fitted.items, item.header = candidate.header ∧ item.content = text := by
  obtain ⟨henvelopes, hwalk⟩ := exists_walk_of_fit hfit
  have hroom : ∀ {walked fitting}, Fitting.Accounts fitted.sectionBudgets budgetTokens walked
      fitting → candidate.sectionName ∈ sectionNames →
      fitting.room fitted.sectionBudgets budgetTokens candidate.sectionName
        (tokenCount text) = true := by
    intro walked fitting haccounts hsection
    have hwithin := haccounts.within
    have hsectionWithin := haccounts.withinSection _ hsection
    rw [hfree, Fitting.room_eq_true_iff]
    constructor <;> omega
  suffices hplaced : Fitting.Accounts fitted.sectionBudgets budgetTokens candidates fitted.toFitting
      ∧ (candidate ∈ candidates → ∃ item ∈ fitted.items, item.header = candidate.header ∧
        item.content = text) from hplaced.2 hcandidate
  refine @Fitting.walk_induct _ _ (fun walked fitting ↦
    Fitting.Accounts fitted.sectionBudgets budgetTokens walked fitting ∧
      (candidate ∈ walked → ∃ item ∈ fitting.items, item.header = candidate.header ∧
        item.content = text)) (fun walked fitting next tier chosen hholds hsection hpicks ↦ ?_)
    (fun walked fitting next hholds hsection hnone ↦ ?_) candidates [] .start fitted.toFitting
    ⟨accounts_start henvelopes, nofun⟩ hwalk
  · refine ⟨hholds.1.place hsection hpicks, fun hmem ↦ ?_⟩
    rcases mem_append.mp hmem with hmem | hmem
    · obtain ⟨item, hitem, hplaced⟩ := hholds.2 hmem
      exact ⟨item, mem_append_left _ hitem, hplaced⟩
    · obtain rfl := mem_singleton.mp hmem
      refine ⟨_, mem_append_right _ mem_cons_self, rfl, ?_⟩
      exact hpicks.eq_full hfull (hroom hholds.1 hsection)
  · refine ⟨hholds.1.drop next, fun hmem ↦ ?_⟩
    rcases mem_append.mp hmem with hmem | hmem
    · exact hholds.2 hmem
    · obtain rfl := mem_singleton.mp hmem
      have hfalse := hnone _ _ hfull
      rw [hroom hholds.1 hsection] at hfalse
      cases hfalse

end AbsoluteZero.Cm

import AbsoluteZero.Foundations.OrderedDict

/-!
# Computations that may be refused

How a computation in `Except` is taken apart when it ends well: a bind (`bind_eq_ok_iff`), a guard
(`unless_eq_ok_iff`, `when_eq_ok_iff`), a fold by what every step keeps (`foldlM_invariant`), a map
by what it makes of each item (`mapM_eq_ok_iff`), and a dictionary comprehension
(`OrderedDict.get?_of_comprehend`).
-/

namespace AbsoluteZero.Foundations

open List

namespace Checked

variable {Refusal First Second State Item : Type}

/-- A bind ends well exactly when both of its parts do. -/
theorem bind_eq_ok_iff {computation : Except Refusal First} {next : First → Except Refusal Second}
    {result : Second} : computation >>= next = .ok result ↔
      ∃ value, computation = .ok value ∧ next value = .ok result := by
  cases computation with
  | error refusal =>
    constructor
    · intro hnext
      cases hnext
    · rintro ⟨value, hvalue, -⟩
      cases hvalue
  | ok value =>
    constructor
    · exact fun hnext ↦ ⟨value, rfl, hnext⟩
    · rintro ⟨other, hother, hnext⟩
      cases hother
      exact hnext

variable {computation : Except Refusal First}

theorem map_eq_ok_iff {view : First → Second} {result : Second} :
    computation.map view = .ok result ↔ ∃ value, computation = .ok value ∧ view value = result := by
  cases computation with
  | error refusal =>
    constructor
    · intro hresult
      cases hresult
    · rintro ⟨value, hvalue, -⟩
      cases hvalue
  | ok value =>
    constructor
    · intro hresult
      exact ⟨value, rfl, Except.ok.inj hresult⟩
    · rintro ⟨other, hother, hresult⟩
      cases hother
      exact congrArg Except.ok hresult

theorem guarded_eq_ok_iff {check : First → Prop} [DecidablePred check] {refusal : Refusal}
    {result : First} :
    (do let value ← computation; if check value then .ok value else .error refusal) =
      (.ok result : Except Refusal First) ↔ computation = .ok result ∧ check result := by
  rw [bind_eq_ok_iff]
  constructor
  · rintro ⟨value, hvalue, hresult⟩
    split at hresult
    · next hcheck =>
      cases hresult
      exact ⟨hvalue, hcheck⟩
    · cases hresult
  · rintro ⟨hresult, hcheck⟩
    exact ⟨result, hresult, if_pos hcheck⟩

/-- A guard that refuses is passed when its condition fails. -/
theorem unless_eq_ok_iff {check : Prop} [Decidable check] {refusal : Refusal} {result : First} :
    (if check then .error refusal else computation) = .ok result ↔
      ¬ check ∧ computation = .ok result := by
  split <;> simp [*]

/-- A guard that admits is passed when its condition holds. -/
theorem when_eq_ok_iff {check : Prop} [Decidable check] {refusal : Refusal} {result : First} :
    (if check then computation else .error refusal) = .ok result ↔
      check ∧ computation = .ok result := by
  split <;> simp [*]

theorem mapError_eq_ok_iff {Refusal' : Type} {wrap : Refusal → Refusal'} {result : First} :
    computation.mapError wrap = .ok result ↔ computation = .ok result := by
  cases computation <;> simp [Except.mapError]

theorem toOption_eq_some_iff {value : First} :
    computation.toOption = some value ↔ computation = .ok value := by
  cases computation <;> simp [Except.toOption]

/-- A computation of which something is seen ended well. -/
theorem exists_of_toOption_map {view : First → Second}
    {seen : Second} (hseen : computation.toOption.map view = some seen) :
    ∃ value, computation = .ok value ∧ view value = seen := by
  obtain ⟨value, hvalue, hview⟩ := Option.map_eq_some_iff.mp hseen
  exact ⟨value, toOption_eq_some_iff.mp hvalue, hview⟩

variable {items : List Item}

/-- Assumes: a step that ends well on one of the items keeps the property. So does a fold over
them that ends well. -/
theorem foldlM_invariant (property : State → Prop) {step : State → Item → Except Refusal State}
    {state last : State}
    (hstep : ∀ state item next, item ∈ items → property state → step state item = .ok next →
      property next)
    (hstate : property state) (hlast : items.foldlM step state = .ok last) : property last := by
  induction items generalizing state with
  | nil =>
    cases hlast
    exact hstate
  | cons item rest ih =>
    rw [foldlM_cons] at hlast
    obtain ⟨next, hnext, hrest⟩ := bind_eq_ok_iff.mp hlast
    refine ih (fun state other after hother ↦ ?_) ?_ hrest
    · exact hstep state other after (mem_cons_of_mem _ hother)
    · exact hstep state item next mem_cons_self hstate hnext

/-- Assumes: the item is one of the list. A fold that ends well ran the step on it, with folds
that ended well before and after. -/
theorem exists_step_of_mem {step : State → Item → Except Refusal State}
    {state last : State} {item : Item} (hitem : item ∈ items)
    (hlast : items.foldlM step state = .ok last) :
    ∃ before after earlier later, items = earlier ++ item :: later ∧
      earlier.foldlM step state = .ok before ∧ step before item = .ok after ∧
      later.foldlM step after = .ok last := by
  obtain ⟨earlier, later, rfl⟩ := append_of_mem hitem
  rw [foldlM_append] at hlast
  obtain ⟨before, hbefore, hlast⟩ := bind_eq_ok_iff.mp hlast
  rw [foldlM_cons] at hlast
  obtain ⟨after, hafter, hlast⟩ := bind_eq_ok_iff.mp hlast
  exact ⟨before, after, earlier, later, rfl, hbefore, hafter, hlast⟩

variable {results : List First} {body : Item → Except Refusal First}

/-- A map ends well exactly when every item is mapped well. -/
theorem mapM_eq_ok_iff : items.mapM body = .ok results ↔
      List.Forall₂ (fun item result ↦ body item = .ok result) items results := by
  induction items generalizing results with
  | nil =>
    rw [mapM_nil, forall₂_nil_left_iff]
    constructor
    · intro hresults
      cases hresults
      rfl
    · rintro rfl
      rfl
  | cons item rest ih =>
    rw [mapM_cons, bind_eq_ok_iff, forall₂_cons_left_iff]
    constructor
    · rintro ⟨result, hresult, hrest⟩
      obtain ⟨others, hothers, hall⟩ := bind_eq_ok_iff.mp hrest
      cases hall
      exact ⟨result, others, hresult, ih.mp hothers, rfl⟩
    · rintro ⟨result, others, hresult, hothers, rfl⟩
      exact ⟨result, hresult, bind_eq_ok_iff.mpr ⟨others, ih.mpr hothers, rfl⟩⟩

/-- What a map that ends well answers for the items keeps what each answer says of its item. -/
theorem map_eq_of_mapM {Value : Type} {read : Item → Value} {written : First → Value}
    (hbody : ∀ item result, body item = .ok result → written result = read item)
    (hresults : items.mapM body = .ok results) : results.map written = items.map read := by
  have hall := mapM_eq_ok_iff.mp hresults
  clear hresults
  induction hall with
  | nil => rfl
  | cons hitem _ ih => rw [map_cons, map_cons, hbody _ _ hitem, ih]

/-- Every answer of a map that ends well is the answer for an item. -/
theorem exists_of_mem_mapM {result : First} (hresults : items.mapM body = .ok results)
    (hresult : result ∈ results) : ∃ item ∈ items, body item = .ok result := by
  have hall := mapM_eq_ok_iff.mp hresults
  clear hresults
  induction hall with
  | nil => cases hresult
  | cons hitem _ ih =>
    rcases mem_cons.mp hresult with rfl | hrest
    · exact ⟨_, mem_cons_self, hitem⟩
    · obtain ⟨item, hmem, hbody⟩ := ih hrest
      exact ⟨item, mem_cons_of_mem _ hmem, hbody⟩

/-- Every item of a map that ends well has its answer. -/
theorem exists_mem_of_mapM {item : Item} (hresults : items.mapM body = .ok results)
    (hitem : item ∈ items) : ∃ result ∈ results, body item = .ok result := by
  have hall := mapM_eq_ok_iff.mp hresults
  clear hresults
  induction hall with
  | nil => cases hitem
  | cons hbody _ ih =>
    rcases mem_cons.mp hitem with rfl | hrest
    · exact ⟨_, mem_cons_self, hbody⟩
    · obtain ⟨result, hmem, hresult⟩ := ih hrest
      exact ⟨result, mem_cons_of_mem _ hmem, hresult⟩

/-- Assumes: every item is mapped well. So is the list. -/
theorem exists_mapM_eq_ok (hbody : ∀ item ∈ items, ∃ result, body item = .ok result) :
    ∃ results, items.mapM body = .ok results := by
  induction items with
  | nil => exact ⟨[], rfl⟩
  | cons item rest ih =>
    obtain ⟨result, hresult⟩ := hbody item mem_cons_self
    obtain ⟨results, hresults⟩ := ih fun other hother ↦ hbody other (mem_cons_of_mem _ hother)
    exact ⟨result :: results, by rw [mapM_cons, hresult, hresults]; rfl⟩

theorem mapM_congr {body other : Item → Except Refusal First}
    (hagree : ∀ item ∈ items, body item = other item) : items.mapM body = items.mapM other := by
  induction items with
  | nil => rfl
  | cons item rest ih =>
    rw [mapM_cons, mapM_cons, hagree item mem_cons_self,
      ih fun later hlater ↦ hagree later (mem_cons_of_mem _ hlater)]

theorem mapM_eq_ok_map {value : Item → First}
    (hbody : ∀ item ∈ items, body item = .ok (value item)) :
    items.mapM body = .ok (items.map value) := by
  induction items with
  | nil => rfl
  | cons item rest ih =>
    rw [mapM_cons, hbody item mem_cons_self,
      ih fun other hother ↦ hbody other (mem_cons_of_mem _ hother)]
    rfl

end Checked

namespace OrderedDict

/-! ### Comprehensions -/

variable {Key Value Value' Refusal : Type} [DecidableEq Key]
  {body : Key → Value → Except Refusal Value'} {dict : OrderedDict Key Value}
  {built : OrderedDict Key Value'}

/-- A dictionary comprehension over a dictionary, whose body may raise. -/
def comprehend (body : Key → Value → Except Refusal Value') (dict : OrderedDict Key Value) :
    Except Refusal (OrderedDict Key Value') :=
  (dict.items.mapM fun entry ↦ (body entry.1 entry.2).map fun made ↦ (entry.1, made)).map
    fun made ↦ made.foldl (fun built entry ↦ built.insert entry.1 entry.2) .empty

section

variable (hbuilt : dict.comprehend body = .ok built)

include hbuilt

theorem forall₂_of_comprehend :
    List.Forall₂ (fun entry made ↦ made.1 = entry.1 ∧ body entry.1 entry.2 = .ok made.2)
      dict.items built.items := by
  obtain ⟨made, hmade, rfl⟩ := Checked.map_eq_ok_iff.mp hbuilt
  have hall : List.Forall₂ (fun entry made ↦ made.1 = entry.1 ∧ body entry.1 entry.2 = .ok made.2)
      dict.items made := by
    refine (Checked.mapM_eq_ok_iff.mp hmade).imp fun entry result hresult ↦ ?_
    obtain ⟨value, hvalue, rfl⟩ := Checked.map_eq_ok_iff.mp hresult
    exact ⟨rfl, hvalue⟩
  have hkeys : made.map Prod.fst = dict.keys := by
    unfold keys
    clear hbuilt hmade
    generalize dict.items = items at hall
    induction hall with
    | nil => rfl
    | cons hentry _ ih => rw [map_cons, map_cons, hentry.1, ih]
  have hitems := @items_foldl_insert _ Value' _ _ Prod.fst Prod.snd .empty made (by
    rw [hkeys]
    exact dict.nodup)
  rw [hitems]
  simpa [empty] using hall

theorem keys_of_comprehend : built.keys = dict.keys := by
  have hall := forall₂_of_comprehend hbuilt
  unfold keys
  generalize dict.items = items at hall
  generalize built.items = made at hall
  induction hall with
  | nil => rfl
  | cons hentry _ ih => rw [map_cons, map_cons, hentry.1, ih]

theorem get?_of_comprehend {key : Key} {value : Value} (hvalue : dict.get? key = some value) :
    ∃ made, body key value = .ok made ∧ built.get? key = some made := by
  have hall := forall₂_of_comprehend hbuilt
  unfold get? at hvalue ⊢
  generalize dict.items = items at hall hvalue
  generalize built.items = made at hall ⊢
  induction hall with
  | nil => cases hvalue
  | @cons entry made entries rest hentry _ ih =>
    rw [find_cons] at hvalue
    rw [find_cons, hentry.1]
    split at hvalue
    · next hkey =>
      cases hvalue
      exact ⟨made.2, hkey ▸ hentry.2, if_pos hkey⟩
    · next hkey =>
      rw [if_neg hkey]
      exact ih hvalue

end

theorem exists_comprehend_iff : (∃ built, dict.comprehend body = .ok built) ↔
    ∀ key value, dict.get? key = some value → ∃ made, body key value = .ok made := by
  constructor
  · rintro ⟨built, hbuilt⟩ key value hvalue
    obtain ⟨made, hmade, -⟩ := get?_of_comprehend hbuilt hvalue
    exact ⟨made, hmade⟩
  · intro hbody
    have hmade : ∃ made, (dict.items.mapM fun entry ↦
        (body entry.1 entry.2).map fun made ↦ (entry.1, made)) = .ok made := by
      have hitems : ∀ entry ∈ dict.items, ∃ made, body entry.1 entry.2 = .ok made :=
        fun entry hentry ↦ hbody _ _ ((dict.get?_eq_some_iff).mpr hentry)
      generalize dict.items = items at hitems
      induction items with
      | nil => exact ⟨[], rfl⟩
      | cons entry rest ih =>
        obtain ⟨made, hmade⟩ := hitems entry mem_cons_self
        obtain ⟨others, hothers⟩ := ih fun other hother ↦
          hitems other (mem_cons_of_mem _ hother)
        exact ⟨(entry.1, made) :: others, by rw [mapM_cons, hmade, hothers]; rfl⟩
    obtain ⟨made, hmade⟩ := hmade
    exact ⟨_, Checked.map_eq_ok_iff.mpr ⟨made, hmade, rfl⟩⟩

end OrderedDict

end AbsoluteZero.Foundations

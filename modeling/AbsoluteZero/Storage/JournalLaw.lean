import AbsoluteZero.Storage.ListedKeys

/-!
# The law of journals

Journals whose names are separate keep to themselves: their directories hold exactly what was
appended (`Archive.Kept`), and the law of each journal follows (`Archive.lawful_run`). Below a
nested name the keys of another journal are counted too (`Archive.nested_names_break`).
-/

namespace AbsoluteZero.Storage

open Foundations SeparatedText OrderedDict Call List

/-- No name's path is on the way to the path of another name. -/
def Separate (used : List String) : Prop :=
  ∀ first ∈ used, ∀ second ∈ used, first ≠ second →
    ¬ names (components first) <+: names (components second)

instance (used : List String) : Decidable (Separate used) :=
  inferInstanceAs (Decidable (∀ first ∈ used, ∀ second ∈ used, _))

variable {host : Host} {handle : String}

/-- The directories of separate names, and those of entries and checkpoints, are apart. -/
theorem apart_shelfPath {used : List String} (hseparate : Separate used) {first second : String}
    (hfirst : first ∈ used) (hsecond : second ∈ used) {shelf shelf' : Shelf}
    (hne : shelf ≠ shelf' ∨ first ≠ second) :
    Apart (shelfPath handle shelf first) (shelfPath handle shelf' second) := by
  have hshelf : ∀ {shelf shelf' : Shelf} {name name' : String},
      shelfPath handle shelf name <+: shelfPath handle shelf' name' →
        shelf = shelf' ∧ names (components name) <+: names (components name') := by
    intro shelf shelf' name name' hextends
    unfold shelfPath at hextends
    rw [cons_prefix_cons, cons_prefix_cons] at hextends
    obtain ⟨-, htext, hnames⟩ := hextends
    refine ⟨?_, hnames⟩
    cases shelf <;> cases shelf' <;> first | rfl | exact absurd htext (by decide)
  constructor
  · intro hextends
    obtain ⟨hsame, hnames⟩ := hshelf hextends
    rcases hne with hdiffer | hdiffer
    · exact hdiffer hsame
    · exact hseparate first hfirst second hsecond hdiffer hnames
  · intro hextends
    obtain ⟨hsame, hnames⟩ := hshelf hextends
    rcases hne with hdiffer | hdiffer
    · exact hdiffer hsame.symm
    · exact hseparate second hsecond first hfirst (Ne.symm hdiffer) hnames

namespace Archive

/-- What is stored under the numbers of a directory. -/
def content (archive : Archive) (name : String) : Shelf → Nat → Option Bytes
  | .journal => fun seq ↦ ((archive.appended name).map Prod.snd)[seq]?
  | .checkpoint => fun seq ↦ OrderedDict.find seq (archive.checkpoints name)

/-- The directories of every name that is used hold what was appended and checkpointed, and every
open journal knows how much was appended. -/
structure Kept (host : Host) (handle : String) (used : List String) (archive : Archive) : Prop where
  shelved : ∀ name ∈ used, ∀ shelf,
    Shelved host archive.disk (shelfPath handle shelf name) (archive.content name shelf)
  numbers : ∀ name, (archive.appended name).map Prod.fst =
    List.range (archive.appended name).length
  bound : ∀ name seq data, (seq, data) ∈ archive.checkpoints name →
    seq < (archive.appended name).length
  once : ∀ name, ((archive.checkpoints name).map Prod.fst).Nodup
  opened : ∀ name journal, archive.journals.get? name = some journal →
    name ∈ used ∧ Plain host name ∧ journal = ⟨name, (archive.appended name).length⟩

/-- A disk with nothing below the two directories of the handle. -/
def Vacant (handle : String) (disk : Disk) : Prop :=
  ∀ (shelf : Shelf) rest, disk.lookup (handle :: shelf.text :: rest) = none

theorem kept_start {disk : Disk} (hvacant : Vacant handle disk) (used : List String) :
    Kept host handle used (start disk) where
  shelved := by
    intro name _ shelf
    have hcontent : (start disk).content name shelf = fun _ ↦ none := by
      cases shelf <;> rfl
    rw [hcontent]
    exact .of_vacant fun rest ↦ hvacant shelf _
  numbers := fun _ ↦ rfl
  bound := nofun
  once := fun _ ↦ nodup_nil
  opened := nofun

/-! ### What the calls change -/

section Calls

variable {archive : Archive} {used : List String}

section

variable (archive : Archive)

section

variable (disk : Disk)

variable (journals : OrderedDict String Journal) (other : String) (seq : Nat) (data : Bytes)
  (name : String)

theorem appended_appended :
    (Archive.mk disk journals (archive.events ++ [.appended other seq data])).appended name =
      archive.appended name ++ if other = name then [(seq, data)] else [] := by
  unfold appended
  by_cases hname : other = name <;> simp [hname]

theorem appended_checkpointed :
    (Archive.mk disk journals (archive.events ++ [.checkpointed other seq data])).appended name =
      archive.appended name := by
  unfold appended
  rw [filterMap_append]
  exact append_nil _

theorem checkpoints_checkpointed :
    (Archive.mk disk journals (archive.events ++ [.checkpointed other seq data])).checkpoints name =
      archive.checkpoints name ++ if other = name then [(seq, data)] else [] := by
  unfold checkpoints
  by_cases hname : other = name <;> simp [hname]

theorem checkpoints_appended :
    (Archive.mk disk journals (archive.events ++ [.appended other seq data])).checkpoints name =
      archive.checkpoints name := by
  unfold checkpoints
  rw [filterMap_append]
  exact append_nil _

/-- What is stored after an append: the data, under the number that comes next. -/
theorem content_appended (journals : OrderedDict String Journal)
    (name : String) (data : Bytes) (other : String) (shelf : Shelf) :
    (Archive.mk disk journals (archive.events ++
      [.appended name (archive.appended name).length data])).content other shelf =
      if shelf = .journal ∧ other = name then
        fun number ↦ if number = (archive.appended name).length then some data
          else archive.content other shelf number else archive.content other shelf := by
  cases shelf with
  | checkpoint =>
    rw [if_neg fun hboth ↦ absurd hboth.1 nofun]
    unfold content
    rw [checkpoints_appended]
  | journal =>
    unfold content
    rw [appended_appended]
    simp only [true_and]
    by_cases hname : other = name
    · subst hname
      rw [if_pos rfl, if_pos rfl]
      funext number
      rw [map_append, getElem?_append, length_map, map_singleton]
      by_cases hbefore : number < (archive.appended other).length
      · rw [if_pos hbefore, if_neg (Nat.ne_of_lt hbefore)]
      · rw [if_neg hbefore, getElem?_singleton]
        by_cases hhere : number = (archive.appended other).length
        · rw [if_pos hhere, if_pos (by omega)]
        · have hnone : ((archive.appended other).map Prod.snd)[number]? = none := by
            rw [List.getElem?_eq_none_iff, length_map]
            omega
          rw [if_neg hhere, if_neg (by omega), hnone]
    · rw [if_neg hname, if_neg (Ne.symm hname), append_nil]

theorem content_checkpointed
    (journals : OrderedDict String Journal) (name : String) {seq : Nat} (data : Bytes)
    (hmissing : archive.content name .checkpoint seq = none) (other : String) (shelf : Shelf) :
    (Archive.mk disk journals (archive.events ++ [.checkpointed name seq data])).content other shelf
      = if shelf = .checkpoint ∧ other = name then
        fun number ↦ if number = seq then some data else archive.content other shelf number
      else archive.content other shelf := by
  cases shelf with
  | journal =>
    rw [if_neg fun hboth ↦ absurd hboth.1 nofun]
    unfold content
    rw [appended_checkpointed]
  | checkpoint =>
    have hnone : OrderedDict.find seq (archive.checkpoints name) = none := hmissing
    unfold content
    rw [checkpoints_checkpointed]
    simp only [true_and]
    by_cases hname : other = name
    · subst hname
      rw [if_pos rfl, if_pos rfl]
      funext number
      rw [find_append]
      by_cases hhere : number = seq
      · rw [if_pos hhere, hhere, hnone, find_cons, if_pos rfl]
        rfl
      · rw [if_neg hhere, find_cons, if_neg (Ne.symm hhere), find_nil, Option.or_none]
    · rw [if_neg hname, if_neg (Ne.symm hname), append_nil]

end

end

variable {next : Disk} {name : String}

/-- A write to one directory of a used name leaves the others as they are. -/
theorem Kept.others (hkept : Kept host handle used archive) (hseparate : Separate used)
    (hname : name ∈ used) (shelf : Shelf) {last : String}
    (hframe : Frame ⟨shelfPath handle shelf name, last⟩ archive.disk next) {other : String}
    (hother : other ∈ used) {shelf' : Shelf} (hne : shelf' ≠ shelf ∨ other ≠ name) :
    Shelved host next (shelfPath handle shelf' other) (archive.content other shelf') :=
  (hkept.shelved other hother shelf').apart hframe (apart_shelfPath hseparate hother hname hne)

/-- A number is written or not; in both cases the other directories are as they were. -/
theorem Kept.writeNumber (hkept : Kept host handle used archive) (hseparate : Separate used)
    (hhandle : host.AcceptsName handle) (hdot : handle ≠ ".") (journal : Journal)
    (hname : journal.name ∈ used) (faults : Faults) (shelf : Shelf) (seq : Nat) (data : Bytes) :
    (∃ error, (journal.writeNumber host handle faults shelf seq data).outcome archive.disk =
        .error error ∧ ∀ other ∈ used, ∀ shelf',
        Shelved host ((journal.writeNumber host handle faults shelf seq data).after archive.disk)
          (shelfPath handle shelf' other) (archive.content other shelf')) ∨
    ((journal.writeNumber host handle faults shelf seq data).outcome archive.disk = .ok ⟨⟩ ∧
      archive.content journal.name shelf seq = none ∧ ∀ other ∈ used, ∀ shelf',
        Shelved host ((journal.writeNumber host handle faults shelf seq data).after archive.disk)
          (shelfPath handle shelf' other) (if shelf' = shelf ∧ other = journal.name then
            fun number ↦ if number = seq then some data else archive.content other shelf' number
          else archive.content other shelf')) := by
  obtain ⟨hframe, hresult⟩ := writeNumber_cases hhandle hdot journal faults seq data
    (hkept.shelved journal.name hname shelf)
  have hothers : ∀ other ∈ used, ∀ shelf', ¬ (shelf' = shelf ∧ other = journal.name) →
      Shelved host ((journal.writeNumber host handle faults shelf seq data).after archive.disk)
        (shelfPath handle shelf' other) (archive.content other shelf') := by
    intro other hother shelf' hdiffer
    exact hkept.others hseparate hname shelf hframe hother (by
      by_cases hshelf : shelf' = shelf
      · exact .inr fun heq ↦ hdiffer ⟨hshelf, heq⟩
      · exact .inl hshelf)
  rcases hresult with ⟨error, herror, hsame⟩ | ⟨hok, hmissing, hwritten⟩
  · refine .inl ⟨error, herror, fun other hother shelf' ↦ ?_⟩
    by_cases hhere : shelf' = shelf ∧ other = journal.name
    · obtain ⟨rfl, rfl⟩ := hhere
      exact hsame
    · exact hothers other hother shelf' hhere
  · refine .inr ⟨hok, hmissing, fun other hother shelf' ↦ ?_⟩
    by_cases hhere : shelf' = shelf ∧ other = journal.name
    · rw [if_pos hhere]
      obtain ⟨rfl, rfl⟩ := hhere
      exact hwritten
    · rw [if_neg hhere]
      exact hothers other hother shelf' hhere

/-- What happened stays on record. -/
theorem events_prefix_perform (host : Host) (handle : String) (archive : Archive)
    (operation : JournalOperation) :
    archive.events <+: (archive.perform host handle operation).events := by
  unfold Archive.perform
  cases operation with
  | reopen name =>
    simp only [call]
    split <;> exact prefix_rfl
  | append faults name data | checkpoint faults name seq data =>
    simp only [call]
    split
    · exact prefix_rfl
    · split
      · exact prefix_append _ _
      · exact prefix_rfl

theorem events_prefix_run (host : Host) (handle : String) (operations : List JournalOperation)
    (archive : Archive) : archive.events <+: (archive.run host handle operations).events := by
  induction operations generalizing archive with
  | nil => exact prefix_rfl
  | cons operation rest ih =>
    exact (events_prefix_perform host handle archive operation).trans (ih _)

section

variable (hkept : Kept host handle used archive)

include hkept

/-- Only the disk changed, and the directories hold what they held. -/
theorem Kept.onDisk (hshelved : ∀ name ∈ used, ∀ shelf,
      Shelved host next (shelfPath handle shelf name) (archive.content name shelf)) :
    Kept host handle used { archive with disk := next } :=
  { hkept with
    shelved := hshelved }

theorem Kept.recordAppend {data : Bytes} (hname : name ∈ used) (hplain : Plain host name)
    (hshelved : ∀ other ∈ used, ∀ shelf, Shelved host next (shelfPath handle shelf other)
      (if shelf = .journal ∧ other = name then
        fun number ↦ if number = (archive.appended name).length then some data
          else archive.content other shelf number else archive.content other shelf)) :
    Kept host handle used ⟨next,
      archive.journals.insert name ⟨name, (archive.appended name).length + 1⟩,
      archive.events ++ [.appended name (archive.appended name).length data]⟩ where
  shelved := by
    intro other hother shelf
    rw [content_appended]
    exact hshelved other hother shelf
  numbers := by
    intro other
    rw [appended_appended]
    by_cases hsame : name = other
    · subst hsame
      rw [if_pos rfl, map_append, hkept.numbers, length_append]
      exact range_succ.symm
    · rw [if_neg hsame, append_nil]
      exact hkept.numbers other
  bound := by
    intro other seq bytes hmem
    rw [checkpoints_appended] at hmem
    rw [appended_appended, length_append]
    exact Nat.lt_add_right _ (hkept.bound other seq bytes hmem)
  once := by
    intro other
    rw [checkpoints_appended]
    exact hkept.once other
  opened := by
    intro other journal hjournal
    rw [get?_insert] at hjournal
    rw [appended_appended]
    by_cases hsame : name = other
    · subst hsame
      rw [if_pos rfl] at hjournal
      rw [if_pos rfl, length_append, ← Option.some.inj hjournal]
      exact ⟨hname, hplain, rfl⟩
    · rw [if_neg hsame] at hjournal
      rw [if_neg hsame, append_nil]
      exact hkept.opened other journal hjournal

theorem Kept.recordCheckpoint
    {seq : Nat} {data : Bytes} (hseq : seq < (archive.appended name).length)
    (hmissing : archive.content name .checkpoint seq = none)
    (hshelved : ∀ other ∈ used, ∀ shelf, Shelved host next (shelfPath handle shelf other)
      (if shelf = .checkpoint ∧ other = name then
        fun number ↦ if number = seq then some data else archive.content other shelf number
      else archive.content other shelf)) : Kept host handle used ⟨next, archive.journals,
      archive.events ++ [.checkpointed name seq data]⟩ where
  shelved := by
    intro other hother shelf
    rw [content_checkpointed archive next archive.journals name data hmissing]
    exact hshelved other hother shelf
  numbers := by
    intro other
    rw [appended_checkpointed]
    exact hkept.numbers other
  bound := by
    intro other number bytes hmem
    rw [appended_checkpointed]
    rw [checkpoints_checkpointed] at hmem
    rcases mem_append.mp hmem with hbefore | hnew
    · exact hkept.bound other number bytes hbefore
    · by_cases hsame : name = other
      · subst hsame
        rw [if_pos rfl, mem_singleton] at hnew
        obtain ⟨rfl, -⟩ := Prod.mk.inj hnew
        exact hseq
      · rw [if_neg hsame] at hnew
        cases hnew
  once := by
    intro other
    rw [checkpoints_checkpointed]
    by_cases hsame : name = other
    · subst hsame
      rw [if_pos rfl, map_append, map_singleton]
      rw [← concat_eq_append]
      refine (hkept.once name).concat fun hmem ↦ ?_
      obtain ⟨⟨number, bytes⟩, hitem, heq⟩ := mem_map.mp hmem
      have hfound := (find_eq_some_iff (hkept.once name)).mpr hitem
      have hnone : OrderedDict.find seq (archive.checkpoints name) = none := hmissing
      have hsame : number = seq := heq
      rw [hsame, hnone] at hfound
      cases hfound
    · rw [if_neg hsame, append_nil]
      exact hkept.once other
  opened := by
    intro other journal hjournal
    rw [appended_checkpointed]
    exact hkept.opened other journal hjournal

end

theorem isSome_content_journal_iff {seq : Nat} :
    (archive.content name .journal seq).isSome ↔
      seq ∈ List.range (archive.appended name).length := by
  unfold content
  rw [List.mem_range, Option.isSome_iff_ne_none, Ne, List.getElem?_eq_none_iff, length_map,
    Nat.not_le]

theorem Kept.outcome_open (hkept : Kept host handle used archive)
    (hhandle : host.AcceptsName handle) (hdot : handle ≠ ".") (hname : name ∈ used)
    (hplain : Plain host name) :
    (Journal.open host handle name).outcome archive.disk =
      .ok ⟨name, (archive.appended name).length⟩ := by
  have hcontent : ∀ seq, seq ∈ List.range (archive.appended name).length ↔
      (archive.content name .journal seq).isSome := fun seq ↦ isSome_content_journal_iff.symm
  unfold Journal.open
  rw [outcome_bind, outcome_raising, outcome_listing hhandle hdot hplain
    (hkept.shelved name hname .journal) nodup_range hcontent]
  show Except.ok (Journal.mk name _) = _
  rw [(perm_sortedBy id _).length_eq, length_map, length_range]

theorem Kept.open_returns (hkept : Kept host handle used archive)
    (hhandle : host.AcceptsName handle) (hdot : handle ≠ ".") (hname : name ∈ used)
    {journal : Journal}
    (hreturns : (Journal.open host handle name).outcome archive.disk = .ok journal) :
    Plain host name ∧ journal = ⟨name, (archive.appended name).length⟩ := by
  have hplain : Plain host name := by
    by_contra hnot
    obtain ⟨listed, hlisted, -⟩ := bind_returns hreturns
    rw [outcome_raising, outcome_listing_of_not_plain hhandle hnot] at hlisted
    cases hlisted
  rw [hkept.outcome_open hhandle hdot hname hplain] at hreturns
  exact ⟨hplain, (Except.ok.inj hreturns).symm⟩

theorem after_open (host : Host) (handle name : String) (disk : Disk) :
    (Journal.open host handle name).after disk = disk := by
  unfold Journal.open
  rw [after_bind, outcome_raising, after_raising, after_handleKeys]
  cases (handleKeys host handle (some (shelfKey handle .journal name))).outcome disk <;> rfl

section

variable (hkept : Kept host handle used archive)

include hkept

theorem Kept.reopen (hhandle : host.AcceptsName handle) (hdot : handle ≠ ".")
    (hname : name ∈ used) : Kept host handle used (archive.perform host handle (.reopen name)) := by
  unfold perform
  simp only
  unfold call
  rw [after_open]
  cases hreturns : (Journal.open host handle name).outcome archive.disk with
  | error error => exact hkept
  | ok journal =>
    obtain ⟨hplain, rfl⟩ := hkept.open_returns hhandle hdot hname hreturns
    exact {
      shelved := hkept.shelved
      numbers := hkept.numbers
      bound := hkept.bound
      once := hkept.once
      opened := by
        intro other journal hjournal
        rw [get?_insert] at hjournal
        by_cases hsame : name = other
        · subst hsame
          rw [if_pos rfl] at hjournal
          exact ⟨hname, hplain, (Option.some.inj hjournal).symm⟩
        · rw [if_neg hsame] at hjournal
          exact hkept.opened other journal hjournal }

theorem Kept.append (hseparate : Separate used)
    (hhandle : host.AcceptsName handle) (hdot : handle ≠ ".") (faults : Faults) (name : String)
    (data : Bytes) :
    Kept host handle used (archive.perform host handle (.append faults name data)) := by
  unfold perform
  simp only
  cases hjournal : archive.journals.get? name with
  | none => exact hkept
  | some journal =>
    obtain ⟨hname, hplain, rfl⟩ := hkept.opened name journal hjournal
    simp only
    unfold call Journal.append
    rw [outcome_bind, after_bind_pure]
    rcases hkept.writeNumber hseparate hhandle hdot
        ⟨name, (archive.appended name).length⟩ hname faults .journal
        (archive.appended name).length data with
      ⟨error, herror, hshelved⟩ | ⟨hok, -, hshelved⟩
    · rw [herror]
      exact hkept.onDisk hshelved
    · rw [hok]
      exact hkept.recordAppend hname hplain hshelved

theorem Kept.checkpoint (hseparate : Separate used)
    (hhandle : host.AcceptsName handle) (hdot : handle ≠ ".") (faults : Faults) (name : String)
    (seq : Nat) (data : Bytes) :
    Kept host handle used (archive.perform host handle (.checkpoint faults name seq data)) := by
  unfold perform
  simp only
  cases hjournal : archive.journals.get? name with
  | none => exact hkept
  | some journal =>
    obtain ⟨hname, hplain, rfl⟩ := hkept.opened name journal hjournal
    simp only
    unfold call Journal.checkpoint
    by_cases hseq : (archive.appended name).length ≤ seq
    · rw [if_pos hseq]
      exact hkept
    · rw [if_neg hseq]
      rcases hkept.writeNumber hseparate hhandle hdot ⟨name, (archive.appended name).length⟩ hname
          faults .checkpoint seq data with
        ⟨error, herror, hshelved⟩ | ⟨hok, hmissing, hshelved⟩
      · rw [herror]
        exact hkept.onDisk hshelved
      · rw [hok]
        exact hkept.recordCheckpoint (Nat.lt_of_not_le hseq) hmissing hshelved

theorem Kept.perform (hseparate : Separate used)
    (hhandle : host.AcceptsName handle) (hdot : handle ≠ ".") (operation : JournalOperation)
    (hname : operation.name ∈ used) :
    Kept host handle used (archive.perform host handle operation) := by
  cases operation with
  | reopen name => exact hkept.reopen hhandle hdot hname
  | append faults name data => exact hkept.append hseparate hhandle hdot faults name data
  | checkpoint faults name seq data =>
    exact hkept.checkpoint hseparate hhandle hdot faults name seq data

end

theorem Kept.run (hseparate : Separate used) (hhandle : host.AcceptsName handle)
    (hdot : handle ≠ ".") (operations : List JournalOperation)
    (hnames : ∀ operation ∈ operations, operation.name ∈ used)
    (hkept : Kept host handle used archive) :
    Kept host handle used (archive.run host handle operations) := by
  induction operations generalizing archive with
  | nil => exact hkept
  | cons operation rest ih =>
    obtain ⟨hfirst, hrest⟩ := forall_mem_cons.mp hnames
    exact ih hrest (hkept.perform hseparate hhandle hdot operation hfirst)

end Calls

section Law

variable {archive : Archive} {used : List String} {disk : Disk} {name : String}

theorem after_readKey (host : Host) (handle key : String) (disk : Disk) :
    (Journal.readKey host handle key).after disk = disk := by
  unfold Journal.readKey guarded
  rw [after_raising, after_ite, after_ite, after_read, after_throw, after_throw, ite_self, ite_self]

theorem outcome_readKey {key : String} (hguards : host.Guards handle key) {directory : List String}
    {seq : Nat} (hlocation : Location.ofKey key = ⟨directory, padded 12 seq⟩)
    {content : Nat → Option Bytes} (hshelved : Shelved host disk directory content) {data : Bytes}
    (hdata : content seq = some data) :
    (Journal.readKey host handle key).outcome disk = .ok data := by
  have hnamed := named_number directory seq
  have hpath : (⟨directory, padded 12 seq⟩ : Location).path = directory ++ [padded 12 seq] :=
    if_pos hnamed
  unfold Journal.readKey guarded
  rw [if_neg (not_not_intro hguards.1), if_neg (not_not_intro hguards.2), outcome_raising,
    outcome_read hguards.1, hlocation, stat_named hnamed, hpath, hshelved.at_number, hdata]
  show (host.verify key (host.envelope data)).mapError _ = _
  rw [verify_envelope]
  rfl

section

variable (hkept : Kept host handle used archive)

include hkept

section

variable (hhandle : host.AcceptsName handle)

include hhandle

section

variable (hdot : handle ≠ ".")

include hdot

theorem Kept.outcome_entries (hname : name ∈ used) (hplain : Plain host name) (first : Nat) :
    ((Journal.mk name (archive.appended name).length).entries host handle first).outcome
      archive.disk = .ok (((archive.appended name).map Prod.snd).drop first) := by
  obtain ⟨values, hvalues⟩ : ∃ values, values = (archive.appended name).map Prod.snd := ⟨_, rfl⟩
  have hlength : (archive.appended name).length = values.length := by
    rw [hvalues, length_map]
  have hreads : ∀ seq ∈ (List.range values.length).drop first,
      (Journal.readKey host handle (numberKey handle .journal name seq)).outcome archive.disk =
          .ok (values[seq]?.getD []) ∧
        (Journal.readKey host handle (numberKey handle .journal name seq)).after archive.disk =
          archive.disk := by
    intro seq hseq
    have hbefore := List.mem_range.mp (mem_of_mem_drop hseq)
    refine ⟨?_, after_readKey host handle _ archive.disk⟩
    refine outcome_readKey ((guards_numberKey_iff hhandle .journal name seq).mpr hplain)
      (ofKey_numberKey hhandle hdot .journal name seq) (hkept.shelved name hname .journal) ?_
    show ((archive.appended name).map Prod.snd)[seq]? = _
    rw [← hvalues, getElem?_eq_getElem hbefore, Option.getD_some]
  have hrange : (List.range values.length).map (fun seq ↦ values[seq]?.getD []) = values := by
    apply ext_getElem
    · rw [length_map, length_range]
    · intro seq _ hseq
      rw [getElem_map, getElem_range, getElem?_eq_getElem hseq, Option.getD_some]
  unfold Journal.entries
  rw [← hvalues, hlength, (outcome_mapM_of_reads hreads).1, map_drop, hrange]

/-- The checkpoint that is found is one that was made. -/
theorem Kept.outcome_latestCheckpoint (hname : name ∈ used)
    (hplain : Plain host name) (nextSeq : Nat) :
    ∃ latest, ((Journal.mk name nextSeq).latestCheckpoint host handle).outcome archive.disk =
        .ok latest ∧
      ((Journal.mk name nextSeq).latestCheckpoint host handle).after archive.disk = archive.disk ∧
      ∀ seq data, latest = some (seq, data) → (seq, data) ∈ archive.checkpoints name := by
  obtain ⟨numbers, hnumbers⟩ :
    ∃ numbers, numbers = (archive.checkpoints name).map Prod.fst := ⟨_, rfl⟩
  have hcontent : ∀ seq, seq ∈ numbers ↔ (archive.content name .checkpoint seq).isSome := by
    intro seq
    have hfind : ∀ data, archive.content name .checkpoint seq = some data ↔
        (seq, data) ∈ archive.checkpoints name := fun data ↦
      find_eq_some_iff (hkept.once name)
    rw [hnumbers, mem_map, Option.isSome_iff_exists]
    constructor
    · rintro ⟨⟨number, data⟩, hmem, rfl⟩
      exact ⟨data, (hfind data).mpr hmem⟩
    · rintro ⟨data, hdata⟩
      exact ⟨(seq, data), (hfind data).mp hdata, rfl⟩
  have hlisted := outcome_listing hhandle hdot hplain (hkept.shelved name hname .checkpoint)
    (hnumbers ▸ hkept.once name) hcontent
  unfold Journal.latestCheckpoint
  rw [outcome_bind, after_bind, outcome_raising, after_raising, hlisted, after_handleKeys]
  simp only [Except.mapError]
  cases hlast : (sortedBy id (numbers.map (listedKey handle .checkpoint name))).getLast? with
  | none => exact ⟨none, rfl, rfl, nofun⟩
  | some newest =>
    have hmem := mem_sortedBy.mp (mem_of_getLast? hlast)
    obtain ⟨seq, hseq, rfl⟩ := mem_map.mp hmem
    obtain ⟨data, hdata⟩ := Option.isSome_iff_exists.mp ((hcontent seq).mp hseq)
    have hread := outcome_readKey (guards_listedKey hhandle .checkpoint hplain seq)
      (ofKey_listedKey hhandle hdot .checkpoint name seq)
      (hkept.shelved name hname .checkpoint) hdata
    simp only
    rw [lastPart_listedKey hhandle, number?_padded]
    rw [outcome_bind, after_bind, hread, after_readKey]
    refine ⟨some (seq, data), rfl, rfl, ?_⟩
    intro seq' data' hsome
    obtain ⟨rfl, rfl⟩ := Prod.mk.inj (Option.some.inj hsome)
    exact (find_eq_some_iff (hkept.once name)).mp hdata

/-- Folding the rest over a checkpoint is folding everything. -/
theorem Kept.outcome_reconstruct (hname : name ∈ used)
    (hplain : Plain host name) {State : Type} (step : State → Bytes → State) (initial : State)
    (restore : Bytes → State)
    (hfolds : ∀ seq data, (seq, data) ∈ archive.checkpoints name → restore data =
      (((archive.appended name).map Prod.snd).take (seq + 1)).foldl step initial) :
    ∃ snap tail, ((Journal.mk name (archive.appended name).length).reconstruct host handle).outcome
        archive.disk = .ok (snap, tail) ∧ tail.foldl step (snap.elim initial restore) =
        ((archive.appended name).map Prod.snd).foldl step initial := by
  have hentries := hkept.outcome_entries hhandle hdot hname hplain
  obtain ⟨latest, hlatest, hafter, hmade⟩ := hkept.outcome_latestCheckpoint hhandle hdot hname
    hplain (archive.appended name).length
  unfold Journal.reconstruct
  rw [outcome_bind, hlatest, hafter]
  cases latest with
  | none =>
    simp only
    rw [outcome_bind, hentries]
    exact ⟨none, _, rfl, rfl⟩
  | some found =>
    obtain ⟨seq, data⟩ := found
    simp only
    rw [outcome_bind, hentries]
    refine ⟨some data, _, rfl, ?_⟩
    rw [Option.elim_some, hfolds seq data (hmade seq data rfl), ← foldl_append, take_append_drop]

theorem Kept.outcomes_lawful {journal : Journal} (hopen : archive.journals.get? name = some journal)
    : Lawful host handle archive name journal := by
  obtain ⟨hname, hplain, rfl⟩ := hkept.opened name journal hopen
  exact {
    numbers := hkept.numbers name
    entries := hkept.outcome_entries hhandle hdot hname hplain 0
    checkpoints := by
      intro seq data hmem
      exact outcome_readKey ((guards_numberKey_iff hhandle .checkpoint name seq).mpr hplain)
        (ofKey_numberKey hhandle hdot .checkpoint name seq) (hkept.shelved name hname .checkpoint)
        ((find_eq_some_iff (hkept.once name)).mpr hmem)
    reconstruct := fun State step initial restore hfolds ↦
      hkept.outcome_reconstruct hhandle hdot hname hplain step initial restore hfolds }

end

end

end

/-- Assumes: nothing is stored below the two directories of the handle, the handle is not named `.`,
and the names of the journals are separate. After every run the law holds of every open journal, and
what was appended or checkpointed before is the beginning of what is appended or checkpointed
now. -/
theorem lawful_run (host : Host) {handle : String} (hhandle : host.AcceptsName handle)
    (hdot : handle ≠ ".") {disk : Disk} (hvacant : Vacant handle disk)
    (operations : List JournalOperation) (hseparate : Separate (operations.map (·.name))) :
    (∀ name journal, ((start disk).run host handle operations).journals.get? name = some journal →
      Lawful host handle ((start disk).run host handle operations) name journal) ∧
    ∀ earlier later, operations = earlier ++ later → ∀ name,
      ((start disk).run host handle earlier).appended name <+:
          ((start disk).run host handle operations).appended name ∧
        ((start disk).run host handle earlier).checkpoints name <+:
          ((start disk).run host handle operations).checkpoints name := by
  constructor
  · intro name journal hopen
    have hkept := (kept_start hvacant (operations.map (·.name))).run hseparate hhandle hdot
      operations fun operation hmem ↦ mem_map_of_mem hmem
    exact hkept.outcomes_lawful hhandle hdot hopen
  · rintro earlier later rfl name
    unfold Archive.run
    rw [foldl_append]
    obtain ⟨events, hevents⟩ := events_prefix_run host handle later
      ((start disk).run host handle earlier)
    unfold Archive.run at hevents
    unfold appended checkpoints
    rw [← hevents, filterMap_append, filterMap_append]
    exact ⟨prefix_append _ _, prefix_append _ _⟩

theorem vacant_empty (handle : String) : Vacant handle .empty :=
  fun _ _ ↦ lookup_empty (cons_ne_nil _ _)

/-- Two journals with an entry each, and a checkpoint of the first one, which is opened again. -/
theorem lawful_run_sample :
    Lawful sampleHost "rsm" ((start .empty).run sampleHost "rsm" [.reopen "r1", .reopen "r2",
      .append .none "r1" [], .append .none "r2" [], .checkpoint .none "r1" 0 [],
      .reopen "r1"]) "r1" ⟨"r1", 1⟩ :=
  (lawful_run sampleHost (by decide) (by decide) (vacant_empty "rsm") _ (by decide)).1 "r1"
    ⟨"r1", 1⟩ (by decide +kernel)

/-- The journals `r1` and `r1/a` have one entry each. When `r1` is opened again, the entry of the
other one is counted too: the next number is two, and `entries` looks for a number that is
missing. -/
theorem nested_names_break :
    let archive := (start .empty).run sampleHost "rsm" [.reopen "r1", .reopen "r1/a",
      .append .none "r1" [], .append .none "r1/a" [], .reopen "r1"]
    archive.appended "r1" = [(0, [])] ∧ archive.journals.get? "r1" = some ⟨"r1", 2⟩ ∧
      ((Journal.mk "r1" 2).entries sampleHost "rsm" 0).outcome archive.disk =
        .error (.storage (.missingKey "storage.missing_key:rsm/journal/r1/000000000001")) ∧
      ¬ Lawful sampleHost "rsm" archive "r1" ⟨"r1", 2⟩ := by
  refine ⟨by decide +kernel, by decide +kernel, by decide +kernel, fun hlawful ↦ ?_⟩
  have hentries := hlawful.entries
  have hraises : ((Journal.mk "r1" 2).entries sampleHost "rsm" 0).outcome
      ((start .empty).run sampleHost "rsm" [.reopen "r1", .reopen "r1/a",
        .append .none "r1" [], .append .none "r1/a" [], .reopen "r1"]).disk =
      .error (.storage (.missingKey "storage.missing_key:rsm/journal/r1/000000000001")) := by
    decide +kernel
  rw [hraises] at hentries
  cases hentries

end Law

end Archive

end AbsoluteZero.Storage

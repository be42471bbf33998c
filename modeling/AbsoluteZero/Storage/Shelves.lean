import AbsoluteZero.Storage.Journal
import AbsoluteZero.Foundations.NumberedLog

/-!
# Directories of numbered files

A journal keeps its entries in a directory with one file for each number (`Shelved`), which is
listed exactly (`Shelved.walk_perm`). A write to one that lies apart leaves it alone
(`Shelved.apart`), and a write under one of its own numbers changes that number or nothing.
-/

namespace AbsoluteZero.Storage

open Foundations Location SeparatedText List

/-! ### Paths of keys -/

theorem components_join (first second : String) :
    components (first ++ "/" ++ second) = components first ++ components second := by
  have htext : (first ++ "/" ++ second).toList = first.toList ++ '/' :: second.toList := by
    rw [String.toList_append, String.toList_append, append_assoc]
    rfl
  unfold components
  rw [htext, splitOn_append_cons_self, map_append]

theorem components_single {text : String} (hslash : '/' ∉ text.toList) :
    components text = [text] := by
  unfold components
  rw [splitOn_eq_singleton hslash, map_singleton, String.ofList_toList]

theorem components_ne_nil (text : String) : components text ≠ [] := by
  unfold components
  rw [Ne, map_eq_nil_iff]
  exact splitOn_ne_nil _ _

theorem names_append (first second : List String) :
    names (first ++ second) = names first ++ names second :=
  filter_append ..

theorem names_concat (parts : List String) (last : String) : names (parts ++ [last]) =
    if last ≠ "" ∧ last ≠ "." then names parts ++ [last] else names parts := by
  rw [names_append]
  by_cases hkept : last ≠ "" ∧ last ≠ "."
  · have hsingle : names [last] = [last] := by
      simp [names, hkept.1, hkept.2]
    rw [if_pos hkept, hsingle]
  · have hnothing : names [last] = [] := by
      unfold names
      rw [filter_eq_nil_iff]
      simpa using hkept
    rw [if_neg hkept, hnothing, append_nil]

theorem path_ofKey (key : String) : (ofKey key).path = names (components key) := by
  have hlast : components key = (components key).dropLast ++ [(components key).getLastD ""] := by
    rw [getLastD_eq_getLast?, getLast?_eq_some_getLast (components_ne_nil key),
      Option.getD_some, dropLast_append_getLast]
  have hpath := names_concat (components key).dropLast ((components key).getLastD "")
  rw [← hlast] at hpath
  rw [hpath]
  rfl

theorem stat_directory_iff (location : Location) (disk : Disk) :
    location.stat disk = some .directory ↔ disk.lookup location.path = some .directory := by
  by_cases hnamed : location.Named
  · rw [stat_named hnamed]
  · unfold stat path
    rw [if_neg hnamed, if_neg hnamed]
    by_cases hthere : disk.lookup location.directory = some .directory
    · rw [if_pos hthere, hthere]
    · rw [if_neg hthere]
      exact iff_of_false nofun hthere

/-- The directory of a journal, or of its checkpoints, below a handle. -/
def shelfPath (handle : String) (shelf : Shelf) (name : String) : List String :=
  handle :: shelf.text :: names (components name)

section Keys

variable {host : Host} {handle : String}

theorem components_shelfKey (hhandle : host.AcceptsName handle) (shelf : Shelf) (name : String) :
    components (shelfKey handle shelf name) = handle :: shelf.text :: components name := by
  have hshelf : '/' ∉ shelf.text.toList := by
    cases shelf <;> decide
  unfold shelfKey
  rw [components_join, components_join, components_single hhandle.2, components_single hshelf]
  rfl

theorem path_shelfKey (hhandle : host.AcceptsName handle) (hdot : handle ≠ ".") (shelf : Shelf)
    (name : String) : (ofKey (shelfKey handle shelf name)).path =
      shelfPath handle shelf name := by
  have hshelf : shelf.text ≠ "" ∧ shelf.text ≠ "." := by
    cases shelf <;> decide
  rw [path_ofKey, components_shelfKey hhandle]
  unfold names
  rw [filter_cons_of_pos (by simpa using ⟨hhandle.1.1, hdot⟩),
    filter_cons_of_pos (by simpa using hshelf)]
  rfl

theorem slash_notMem_padded (seq : Nat) : '/' ∉ (padded 12 seq).toList := by
  intro hmem
  have hdigit := isDigit_of_mem_padded hmem
  exact absurd hdigit (by decide)

theorem padded_ne_dot (seq : Nat) : padded 12 seq ≠ "." := by
  intro hdot
  have hmem : '.' ∈ (padded 12 seq).toList := by
    rw [hdot]
    decide
  exact absurd (isDigit_of_mem_padded hmem) (by decide)

theorem ofKey_numberKey (hhandle : host.AcceptsName handle) (hdot : handle ≠ ".") (shelf : Shelf)
    (name : String) (seq : Nat) : ofKey (numberKey handle shelf name seq) =
      ⟨shelfPath handle shelf name, padded 12 seq⟩ := by
  have hparts : components (numberKey handle shelf name seq) =
      components (shelfKey handle shelf name) ++ [padded 12 seq] := by
    unfold numberKey
    rw [components_join, components_single (slash_notMem_padded seq)]
  unfold ofKey
  rw [hparts, dropLast_concat, ← path_ofKey, path_shelfKey hhandle hdot, getLastD_concat]

theorem named_number (directory : List String) (seq : Nat) :
    (⟨directory, padded 12 seq⟩ : Location).Named :=
  ⟨padded_ne_empty 12 seq, padded_ne_dot seq⟩

end Keys

/-- A directory has a file for each number with content, and nothing else but temporary files of
numbers. -/
structure Shelved (host : Host) (disk : Disk) (directory : List String)
    (content : Nat → Option Bytes) : Prop where
  at_number : ∀ seq, disk.lookup (directory ++ [padded 12 seq]) =
    (content seq).map fun data ↦ .file (host.envelope data)
  below : ∀ rest ≠ [], (disk.lookup (directory ++ rest)).isSome →
    ∃ seq, rest = [padded 12 seq] ∨ rest = [padded 12 seq ++ tmpSuffix]

/-- Neither directory is on the way to the other. -/
def Apart (directory other : List String) : Prop := ¬ directory <+: other ∧ ¬ other <+: directory

theorem tmp_ne_padded (seq other : Nat) : padded 12 seq ++ tmpSuffix ≠ padded 12 other := by
  intro heq
  have hmem : '.' ∈ (padded 12 other).toList := by
    rw [← heq, String.toList_append]
    exact mem_append_right _ (by decide)
  exact absurd (isDigit_of_mem_padded hmem) (by decide)

namespace Shelved

variable {host : Host} {disk next : Disk} {directory : List String}
  {content : Nat → Option Bytes}

/-- Nothing is below a directory of the store that was never written. -/
theorem of_vacant (hvacant : ∀ rest, disk.lookup (directory ++ rest) = none) :
    Shelved host disk directory fun _ ↦ none where
  at_number := fun _ ↦ hvacant _
  below := by
    intro rest _ hsome
    rw [hvacant] at hsome
    cases hsome

/-- What a write elsewhere changes is not below a directory apart from its own. -/
theorem lookup_apart {location : Location} (hframe : Frame location disk next)
    (hapart : Apart directory location.directory) (rest : List String) :
    next.lookup (directory ++ rest) = disk.lookup (directory ++ rest) := by
  have hchild : ∀ last, directory ++ rest ≠ location.directory ++ [last] := by
    intro last heq
    have hfirst : directory <+: location.directory ++ [last] := ⟨rest, heq⟩
    rcases prefix_or_prefix_of_prefix hfirst (prefix_append location.directory [last])
      with hextends | hextends
    · exact hapart.1 hextends
    · exact hapart.2 hextends
  rcases hframe (directory ++ rest) with hsame | ⟨-, hextends, -⟩ | ⟨hplace, -⟩
  · exact hsame
  · exact absurd ((prefix_append directory rest).trans hextends) hapart.1
  · rcases hplace with htmp | ⟨hnamed, htarget⟩
    · exact absurd htmp (hchild _)
    · rw [path, if_pos hnamed] at htarget
      exact absurd htarget (hchild _)

section

variable (hshelved : Shelved host disk directory content)

include hshelved

/-- A write to a directory apart leaves a directory of numbered files alone. -/
theorem apart {location : Location}
    (hframe : Frame location disk next) (hapart : Apart directory location.directory) :
    Shelved host next directory content where
  at_number := fun seq ↦ by rw [lookup_apart hframe hapart, hshelved.at_number]
  below := by
    intro rest hrest hsome
    rw [lookup_apart hframe hapart] at hsome
    exact hshelved.below rest hrest hsome

theorem number_written {seq : Nat}
    (hframe : Frame ⟨directory, padded 12 seq⟩ disk next) {data : Option Bytes}
    (hnumber : next.lookup (directory ++ [padded 12 seq]) =
      data.map fun bytes ↦ .file (host.envelope bytes)) :
    Shelved host next directory fun other ↦ if other = seq then data else content other where
  at_number := by
    intro other
    by_cases hother : other = seq
    · rw [if_pos hother, hother, hnumber]
    · rw [if_neg hother, ← hshelved.at_number]
      have hne : directory ++ [padded 12 other] ≠ directory ++ [padded 12 seq] := by
        intro heq
        exact hother (padded_inj (List.cons.inj (append_cancel_left heq)).1)
      rcases hframe (directory ++ [padded 12 other]) with hsame | ⟨-, hextends, -⟩ | ⟨hplace, -⟩
      · exact hsame
      · have hlength := hextends.length_le
        simp at hlength
      · rcases hplace with htmp | ⟨hnamed, htarget⟩
        · exact absurd (List.cons.inj (append_cancel_left htmp)).1.symm (tmp_ne_padded seq other)
        · rw [path, if_pos hnamed] at htarget
          exact absurd htarget hne
  below := by
    intro rest hrest hsome
    rcases hframe (directory ++ rest) with hsame | ⟨-, hextends, -⟩ | ⟨hplace, -⟩
    · rw [hsame] at hsome
      exact hshelved.below rest hrest hsome
    · have hlength : (directory ++ rest).length ≤ directory.length := hextends.length_le
      have hpositive := length_pos_of_ne_nil hrest
      rw [length_append] at hlength
      omega
    · rcases hplace with htmp | ⟨hnamed, htarget⟩
      · exact ⟨seq, .inr (append_cancel_left htmp)⟩
      · rw [path, if_pos hnamed] at htarget
        exact ⟨seq, .inl (append_cancel_left htarget)⟩

theorem missing_iff (seq : Nat) :
    disk.lookup (directory ++ [padded 12 seq]) = none ↔ content seq = none := by
  rw [hshelved.at_number, Option.map_eq_none_iff]

end

end Shelved

section Numbers

variable {host : Host} {disk : Disk} {faults : Faults} {handle key : String} {data : Bytes}

/-- A guarded `write_once` raises before it writes, or it is a write under a key that does not
exist. -/
theorem writeOnce_cases (host : Host) (handle : String) (faults : Faults) (key : String)
    (data : Bytes) (disk : Disk) :
    (∃ error, (guarded host handle key (writeOnce host faults key data)).outcome disk =
        .error error ∧
      (guarded host handle key (writeOnce host faults key data)).after disk = disk) ∨
    (host.Guards handle key ∧ (ofKey key).stat disk = none ∧
      (guarded host handle key (writeOnce host faults key data)).outcome disk =
        (write host faults key data).outcome disk ∧
      (guarded host handle key (writeOnce host faults key data)).after disk =
        (write host faults key data).after disk) := by
  unfold guarded
  by_cases haccepts : host.AcceptsKey key
  · rw [if_neg (not_not_intro haccepts)]
    by_cases hextends : (handle ++ "/").toList <+: key.toList
    · rw [if_neg (not_not_intro hextends)]
      unfold writeOnce
      rw [Call.outcome_bind, Call.after_bind, outcome_existsKey haccepts, after_existsKey]
      simp only
      cases hstat : (ofKey key).stat disk with
      | some node =>
        rw [Option.isSome_some, if_pos rfl]
        exact .inl ⟨_, rfl, rfl⟩
      | none =>
        rw [Option.isSome_none, if_neg Bool.false_ne_true]
        exact .inr ⟨⟨haccepts, hextends⟩, rfl, rfl, rfl⟩
    · rw [if_pos hextends]
      exact .inl ⟨_, rfl, rfl⟩
  · rw [if_pos haccepts]
    exact .inl ⟨_, rfl, rfl⟩

/-- What `writeNumber` leaves of a directory of numbered files: a number that had no content has the
data when it returns, and nothing changes when it raises. Elsewhere it is a write. -/
theorem writeNumber_cases (hhandle : host.AcceptsName handle) (hdot : handle ≠ ".")
    (journal : Journal) (faults : Faults) {shelf : Shelf} (seq : Nat) (data : Bytes)
    {content : Nat → Option Bytes}
    (hshelved : Shelved host disk (shelfPath handle shelf journal.name) content) :
    Frame ⟨shelfPath handle shelf journal.name, padded 12 seq⟩ disk
        ((journal.writeNumber host handle faults shelf seq data).after disk) ∧
      ((∃ error, (journal.writeNumber host handle faults shelf seq data).outcome disk =
          .error error ∧
        Shelved host ((journal.writeNumber host handle faults shelf seq data).after disk)
          (shelfPath handle shelf journal.name) content) ∨
      ((journal.writeNumber host handle faults shelf seq data).outcome disk = .ok ⟨⟩ ∧
        content seq = none ∧
        Shelved host ((journal.writeNumber host handle faults shelf seq data).after disk)
          (shelfPath handle shelf journal.name)
          fun other ↦ if other = seq then some data else content other)) := by
  have hlocation := ofKey_numberKey hhandle hdot shelf journal.name seq
  have hnamed := named_number (shelfPath handle shelf journal.name) seq
  have hpath : (ofKey (numberKey handle shelf journal.name seq)).path =
      shelfPath handle shelf journal.name ++ [padded 12 seq] := by
    rw [hlocation, path, if_pos hnamed]
  have hframe := frame_write host faults (numberKey handle shelf journal.name seq) data disk
  rw [hlocation] at hframe
  unfold Journal.writeNumber
  rw [Call.after_bind_pure, Call.after_raising, Call.outcome_bind, Call.outcome_raising]
  rcases writeOnce_cases host handle faults (numberKey handle shelf journal.name seq) data disk with
    ⟨error, herror, hafter⟩ | ⟨hguards, hstat, houtcome, hafter⟩
  · rw [herror, hafter]
    exact ⟨Frame.refl _ disk, .inl ⟨_, rfl, hshelved⟩⟩
  · rw [houtcome, hafter]
    refine ⟨hframe, ?_⟩
    have hmissing : content seq = none := by
      rw [← hshelved.missing_iff, ← hpath, ← stat_named (hlocation ▸ hnamed)]
      exact hstat
    cases hwrite : (write host faults (numberKey handle shelf journal.name seq) data).outcome
        disk with
    | error error =>
      left
      refine ⟨_, rfl, ?_⟩
      have hsame := write_raises (hlocation ▸ hnamed) hwrite
      rw [hpath, hshelved.at_number, hmissing] at hsame
      have hwritten := hshelved.number_written hframe hsame
      have hcontent : (fun other ↦ if other = seq then none else content other) = content := by
        funext other
        split
        · next heq => rw [heq, hmissing]
        · rfl
      rwa [hcontent] at hwritten
    | ok text =>
      right
      obtain ⟨-, -, hfile⟩ := write_returns hwrite
      rw [hpath] at hfile
      exact ⟨rfl, hmissing, hshelved.number_written hframe hfile⟩

end Numbers

end AbsoluteZero.Storage

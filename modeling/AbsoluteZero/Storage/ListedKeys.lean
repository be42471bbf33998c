import AbsoluteZero.Storage.Shelves

/-!
# The keys of a directory of numbered files

What `keys` lists below the directory of a journal is one key for each number (`outcome_listing`).
The listed keys are normalised, and the handle lets them through again, with the number as their
last part (`guards_listedKey`, `ofKey_listedKey`), as long as the handle is not named `.`.
-/

namespace AbsoluteZero.Storage

open Foundations SeparatedText List

/-! ### What the check asks of the parts of a key -/

/-- No two dots in a row, no backslash, and only characters that a key may have. -/
def Plain (host : Host) (text : String) : Prop :=
  ¬ ['.', '.'] <:+: text.toList ∧ '\\' ∉ text.toList ∧
    ∀ character ∈ text.toList, host.isalnum character ∨ character ∈ ['/', '.', '_', '-']

variable {host : Host} {handle name : String}

theorem acceptsKey_iff (key : String) : host.AcceptsKey key ↔
    key ≠ "" ∧ key.toList.head? ≠ some '/' ∧ Plain host key := Iff.rfl

/-- Two dots in a row do not span a slash. -/
theorem dots_infix_iff (first second : List Char) : ['.', '.'] <:+: first ++ '/' :: second ↔
      ['.', '.'] <:+: first ∨ ['.', '.'] <:+: second := by
  induction first with
  | nil =>
    rw [nil_append, infix_cons_iff]
    have hno : ¬ ['.', '.'] <+: '/' :: second := by
      rw [cons_prefix_cons]
      exact fun hboth ↦ absurd hboth.1 (by decide)
    have hnil : ¬ ['.', '.'] <:+: ([] : List Char) := by
      decide
    simp only [hno, hnil, false_or]
  | cons head rest ih =>
    rw [cons_append, infix_cons_iff, ih, infix_cons_iff, or_assoc]
    refine or_congr_left ?_
    cases rest with
    | nil => simp [cons_prefix_cons]
    | cons next others => rw [cons_append, cons_prefix_cons, cons_prefix_cons]; simp

theorem plain_join (first second : String) :
    Plain host (first ++ "/" ++ second) ↔ Plain host first ∧ Plain host second := by
  have htext : (first ++ "/" ++ second).toList = first.toList ++ '/' :: second.toList := by
    rw [String.toList_append, String.toList_append, append_assoc]
    rfl
  unfold Plain
  rw [htext, dots_infix_iff]
  constructor
  · rintro ⟨hdots, hslash, hall⟩
    rw [not_or] at hdots
    refine ⟨⟨hdots.1, fun hmem ↦ hslash (mem_append_left _ hmem), fun character hmem ↦
      hall character (mem_append_left _ hmem)⟩, hdots.2, fun hmem ↦
        hslash (mem_append_right _ (mem_cons_of_mem _ hmem)), fun character hmem ↦
          hall character (mem_append_right _ (mem_cons_of_mem _ hmem))⟩
  · rintro ⟨⟨hdots, hslash, hall⟩, hdots', hslash', hall'⟩
    refine ⟨fun hinside ↦ hinside.elim hdots hdots', fun hmem ↦ ?_, fun character hmem ↦ ?_⟩
    · rcases mem_append.mp hmem with hleft | hright
      · exact hslash hleft
      · rcases mem_cons.mp hright with heq | hlater
        · exact absurd heq (by decide)
        · exact hslash' hlater
    · rcases mem_append.mp hmem with hleft | hright
      · exact hall character hleft
      · rcases mem_cons.mp hright with rfl | hlater
        · exact .inr mem_cons_self
        · exact hall' character hlater

theorem plain_intercalate {parts : List String} (hparts : parts ≠ []) :
    Plain host ("/".intercalate parts) ↔ ∀ part ∈ parts, Plain host part := by
  induction parts with
  | nil => exact absurd rfl hparts
  | cons part rest ih =>
    by_cases hrest : rest = []
    · subst hrest
      rw [String.intercalate_singleton]
      simp
    · rw [String.intercalate_cons_of_ne_nil hrest, plain_join, ih hrest, forall_mem_cons]

theorem intercalate_components (key : String) : "/".intercalate (components key) = key := by
  apply String.toList_inj.mp
  have hparts : (components key).map String.toList = key.toList.splitOn '/' := by
    unfold components
    rw [map_map]
    exact map_id'' (fun _ ↦ String.toList_ofList) _
  rw [String.toList_intercalate, hparts]
  exact intercalate_splitOn '/'

theorem plain_of_mem_components {key part : String} (hkey : Plain host key)
    (hmem : part ∈ components key) : Plain host part := by
  rw [← intercalate_components key, plain_intercalate (components_ne_nil key)] at hkey
  exact hkey part hmem

theorem slash_notMem_components {key part : String} (hmem : part ∈ components key) :
    '/' ∉ part.toList := by
  have hlists : ∀ chars : List Char, ∀ piece ∈ chars.splitOn '/', '/' ∉ piece := by
    intro chars
    induction chars with
    | nil =>
      intro piece hpiece
      rw [splitOn_nil, mem_singleton] at hpiece
      rw [hpiece]
      exact not_mem_nil
    | cons head rest ih =>
      intro piece hpiece
      rw [splitOn_cons_eq_if_modifyHead] at hpiece
      by_cases hslash : head = '/'
      · rw [if_pos (beq_iff_eq.mpr hslash)] at hpiece
        rcases mem_cons.mp hpiece with rfl | hlater
        · exact not_mem_nil
        · exact ih piece hlater
      · rw [if_neg (by simpa using hslash)] at hpiece
        obtain ⟨first, others, hsplit⟩ :=
          exists_cons_of_ne_nil (splitOn_ne_nil '/' rest)
        rw [hsplit] at hpiece ih
        rcases mem_cons.mp hpiece with rfl | hlater
        · intro hin
          rcases mem_cons.mp hin with heq | hfirst
          · exact hslash heq.symm
          · exact ih first mem_cons_self hfirst
        · exact ih piece (mem_cons_of_mem _ hlater)
  obtain ⟨piece, hpiece, rfl⟩ := mem_map.mp hmem
  rw [String.toList_ofList]
  exact hlists _ piece hpiece

theorem plain_of_isAlphanum {text : String}
    (htext : ∀ character ∈ text.toList, character.isAlphanum = true) : Plain host text := by
  refine ⟨fun hinside ↦ ?_, fun hmem ↦ ?_, fun character hmem ↦
    .inl (host.ascii character (htext character hmem))⟩
  · have hdot := htext '.' (hinside.subset mem_cons_self)
    exact absurd hdot (by decide)
  · exact absurd (htext _ hmem) (by decide)

theorem plain_padded (host : Host) (seq : Nat) : Plain host (padded 12 seq) := by
  apply plain_of_isAlphanum
  intro character hmem
  unfold Char.isAlphanum
  rw [isDigit_of_mem_padded hmem, Bool.or_true]

theorem plain_shelf (host : Host) (shelf : Shelf) : Plain host shelf.text := by
  apply plain_of_isAlphanum
  cases shelf <;> decide

theorem prefix_join (first rest : String) :
    (first ++ "/").toList <+: (first ++ "/" ++ rest).toList := by
  have htext : (first ++ "/" ++ rest).toList = (first ++ "/").toList ++ rest.toList :=
    String.toList_append
  rw [htext]
  exact prefix_append _ _

theorem guards_join_iff (hhandle : host.AcceptsName handle) (rest : String) :
    host.Guards handle (handle ++ "/" ++ rest) ↔ Plain host rest := by
  have hplain : Plain host handle := ((acceptsKey_iff handle).mp hhandle.1).2.2
  obtain ⟨head, others, hhead⟩ : ∃ head others, handle.toList = head :: others := by
    cases hlist : handle.toList with
    | nil => exact absurd (String.toList_inj.mp hlist) hhandle.1.1
    | cons head others => exact ⟨head, others, rfl⟩
  unfold Host.Guards
  rw [acceptsKey_iff, plain_join]
  constructor
  · exact fun hboth ↦ hboth.1.2.2.2
  · intro hrest
    refine ⟨⟨fun hempty ↦ ?_, fun hslash ↦ ?_, hplain, hrest⟩, prefix_join handle rest⟩
    · have hlist := congrArg String.toList hempty
      rw [String.toList_append, String.toList_append, hhead] at hlist
      cases hlist
    · rw [String.toList_append, String.toList_append, hhead] at hslash
      refine hhandle.2 ?_
      rw [hhead, Option.some.inj hslash]
      exact mem_cons_self

theorem shelfKey_eq (handle : String) (shelf : Shelf) (name : String) :
    shelfKey handle shelf name = handle ++ "/" ++ (shelf.text ++ "/" ++ name) := by
  unfold shelfKey
  simp only [String.append_assoc]

theorem guards_shelfKey_iff (hhandle : host.AcceptsName handle) (shelf : Shelf) (name : String) :
    host.Guards handle (shelfKey handle shelf name) ↔ Plain host name := by
  rw [shelfKey_eq, guards_join_iff hhandle, plain_join]
  exact and_iff_right (plain_shelf host shelf)

theorem guards_numberKey_iff (hhandle : host.AcceptsName handle) (shelf : Shelf) (name : String)
    (seq : Nat) : host.Guards handle (numberKey handle shelf name seq) ↔ Plain host name := by
  have hkey : numberKey handle shelf name seq =
      handle ++ "/" ++ (shelf.text ++ "/" ++ name ++ "/" ++ padded 12 seq) := by
    unfold numberKey shelfKey
    simp only [String.append_assoc]
  rw [hkey, guards_join_iff hhandle, plain_join, plain_join]
  exact ⟨fun hboth ↦ hboth.1.2, fun hname ↦ ⟨⟨plain_shelf host shelf, hname⟩,
    plain_padded host seq⟩⟩

/-! ### Listed keys -/

/-- The key that `keys` lists for a number. -/
def listedKey (handle : String) (shelf : Shelf) (name : String) (seq : Nat) : String :=
  "/".intercalate (shelfPath handle shelf name ++ [padded 12 seq])

theorem components_intercalate {parts : List String} (hparts : parts ≠ [])
    (hslash : ∀ part ∈ parts, '/' ∉ part.toList) : components ("/".intercalate parts) = parts := by
  induction parts with
  | nil => exact absurd rfl hparts
  | cons part rest ih =>
    obtain ⟨hpart, hothers⟩ := forall_mem_cons.mp hslash
    by_cases hrest : rest = []
    · subst hrest
      rw [String.intercalate_singleton, components_single hpart]
    · rw [String.intercalate_cons_of_ne_nil hrest, components_join, components_single hpart,
        ih hrest hothers]
      rfl

section

variable (hhandle : host.AcceptsName handle)

include hhandle

theorem slash_notMem_shelfPath (shelf : Shelf) (name : String) :
    ∀ part ∈ shelfPath handle shelf name, '/' ∉ part.toList := by
  intro part hpart
  rcases mem_cons.mp hpart with rfl | hpart
  · exact hhandle.2
  · rcases mem_cons.mp hpart with rfl | hpart
    · cases shelf <;> decide
    · exact slash_notMem_components (mem_of_mem_filter hpart)

theorem components_listedKey (shelf : Shelf) (name : String)
    (seq : Nat) : components (listedKey handle shelf name seq) =
      shelfPath handle shelf name ++ [padded 12 seq] := by
  apply components_intercalate
  · exact child_ne_root _ _
  · intro part hpart
    rcases mem_append.mp hpart with hpath | hlast
    · exact slash_notMem_shelfPath hhandle shelf name part hpath
    · rw [mem_singleton.mp hlast]
      exact slash_notMem_padded seq

theorem lastPart_listedKey (shelf : Shelf) (name : String)
    (seq : Nat) : Journal.lastPart (listedKey handle shelf name seq) = padded 12 seq := by
  unfold Journal.lastPart
  rw [components_listedKey hhandle, getLastD_concat]

theorem ofKey_listedKey (hdot : handle ≠ ".") (shelf : Shelf)
    (name : String) (seq : Nat) : Location.ofKey (listedKey handle shelf name seq) =
      ⟨shelfPath handle shelf name, padded 12 seq⟩ := by
  have hnormal : names (shelfPath handle shelf name) = shelfPath handle shelf name := by
    have hshelf : shelf.text ≠ "" ∧ shelf.text ≠ "." := by
      cases shelf <;> decide
    unfold shelfPath names
    rw [filter_cons_of_pos (by simpa using ⟨hhandle.1.1, hdot⟩),
      filter_cons_of_pos (by simpa using hshelf), filter_filter]
    simp
  unfold Location.ofKey
  rw [components_listedKey hhandle, dropLast_concat, hnormal, getLastD_concat]

/-- A handle that is not named `.` lets a key through that it listed. -/
theorem guards_listedKey (shelf : Shelf) (hname : Plain host name) (seq : Nat) :
    host.Guards handle (listedKey handle shelf name seq) := by
  have hkey : listedKey handle shelf name seq = handle ++ "/" ++
      "/".intercalate (shelf.text :: names (components name) ++ [padded 12 seq]) := by
    exact String.intercalate_cons_of_ne_nil (child_ne_root _ _)
  rw [hkey, guards_join_iff hhandle, plain_intercalate (child_ne_root _ _)]
  intro part hpart
  rcases mem_append.mp hpart with hpath | hlast
  · rcases mem_cons.mp hpath with rfl | hpart
    · exact plain_shelf host shelf
    · exact plain_of_mem_components hname (mem_of_mem_filter hpart)
  · rw [mem_singleton.mp hlast]
    exact plain_padded host seq

end

theorem listed_number (directory : List String) (seq : Nat) :
    Listed (directory ++ [padded 12 seq]) := by
  unfold Listed
  rw [getLastD_concat]
  constructor
  · rintro ⟨front, hsuffix⟩
    have hmem : '.' ∈ (padded 12 seq).toList := by
      rw [← hsuffix]
      exact mem_append_right _ (by decide)
    exact absurd (isDigit_of_mem_padded hmem) (by decide)
  · intro hlock
    have hmem : '.' ∈ (padded 12 seq).toList := by
      rw [hlock]
      decide
    exact absurd (isDigit_of_mem_padded hmem) (by decide)

theorem not_listed_tmp (directory : List String) (seq : Nat) :
    ¬ Listed (directory ++ [padded 12 seq ++ tmpSuffix]) := by
  unfold Listed
  rw [getLastD_concat, String.toList_append]
  exact fun hlisted ↦ hlisted.1 (suffix_append _ _)

theorem Shelved.walk_perm {disk : Disk} {directory : List String} {content : Nat → Option Bytes}
    (hshelved : Shelved host disk directory content) {location : Location}
    (hpath : location.path = directory) {numbers : List Nat} (hnodup : numbers.Nodup)
    (hnumbers : ∀ seq, seq ∈ numbers ↔ (content seq).isSome) :
    (location.walk disk).Perm (numbers.map fun seq ↦ directory ++ [padded 12 seq]) := by
  have hthere : ∀ seq ∈ numbers, disk.lookup directory = some .directory := by
    intro seq hseq
    have hsome : (disk.lookup (directory ++ [padded 12 seq])).isSome := by
      rw [hshelved.at_number, Option.isSome_map]
      exact (hnumbers seq).mp hseq
    exact FileTree.parent_eq hsome
  unfold Location.walk
  by_cases hdirectory : location.stat disk = some .directory
  · rw [if_pos hdirectory]
    have hroot : disk.lookup directory = some .directory := by
      rw [← hpath]
      exact (stat_directory_iff location disk).mp hdirectory
    have hinjective : Function.Injective fun seq ↦ directory ++ [padded 12 seq] := by
      intro first second heq
      exact padded_inj (List.cons.inj (append_cancel_left heq)).1
    refine (perm_ext_iff_of_nodup (disk.nodup_files.filter _)
      (hnodup.map hinjective)).mpr fun path ↦ ?_
    rw [mem_filter, mem_map, mem_map, decide_eq_true_eq, hpath]
    constructor
    · rintro ⟨⟨⟨place, blob⟩, hfile, rfl⟩, ⟨rest, hrest⟩, hlisted⟩
      simp only at hrest hlisted ⊢
      have hlookup := FileTree.mem_files_iff.mp hfile
      have hproper : rest ≠ [] := by
        rintro rfl
        rw [append_nil] at hrest
        rw [← hrest, hroot] at hlookup
        cases hlookup
      obtain ⟨seq, rfl | rfl⟩ := hshelved.below rest hproper (by rw [hrest, hlookup]; rfl)
      · refine ⟨seq, (hnumbers seq).mpr ?_, hrest⟩
        rw [← Option.isSome_map (f := fun data ↦ Node.file (host.envelope data)),
          ← hshelved.at_number, hrest, hlookup]
        rfl
      · rw [← hrest] at hlisted
        exact absurd hlisted (not_listed_tmp directory seq)
    · rintro ⟨seq, hseq, rfl⟩
      obtain ⟨data, hdata⟩ := Option.isSome_iff_exists.mp ((hnumbers seq).mp hseq)
      have hlookup : disk.lookup (directory ++ [padded 12 seq]) =
          some (.file (host.envelope data)) := by
        rw [hshelved.at_number, hdata]
        rfl
      exact ⟨⟨(_, host.envelope data), FileTree.mem_files_iff.mpr hlookup, rfl⟩,
        prefix_append _ _, listed_number directory seq⟩
  · rw [if_neg hdirectory]
    cases numbers with
    | nil => exact List.Perm.nil
    | cons seq rest =>
      refine absurd ((stat_directory_iff location disk).mpr ?_) hdirectory
      rw [hpath]
      exact hthere seq mem_cons_self

/-- The keys that a handle lists below the directory of a journal. -/
theorem outcome_listing (hhandle : host.AcceptsName handle) (hdot : handle ≠ ".") {shelf : Shelf}
    (hname : Plain host name) {disk : Disk} {content : Nat → Option Bytes}
    (hshelved : Shelved host disk (shelfPath handle shelf name) content) {numbers : List Nat}
    (hnodup : numbers.Nodup) (hnumbers : ∀ seq, seq ∈ numbers ↔ (content seq).isSome) :
    (handleKeys host handle (some (shelfKey handle shelf name))).outcome disk =
      .ok (sortedBy id (numbers.map (listedKey handle shelf name))) := by
  obtain ⟨haccepts, hextends⟩ := (guards_shelfKey_iff hhandle shelf name).mpr hname
  have hcall : handleKeys host handle (some (shelfKey handle shelf name)) =
      keys host (shelfKey handle shelf name) := by
    unfold handleKeys guarded
    split
    · next hnone => cases hnone
    · next hempty => exact absurd (Option.some.inj hempty) haccepts.1
    · next hkey =>
      obtain rfl := Option.some.inj hkey
      rw [if_neg (not_not_intro haccepts), if_neg (not_not_intro hextends)]
  rw [hcall]
  unfold keys locate
  rw [if_pos haccepts, pure_bind]
  have hwalk := hshelved.walk_perm (path_shelfKey hhandle hdot shelf name) hnodup hnumbers
  have hkeys := hwalk.map ("/".intercalate ·)
  rw [map_map] at hkeys
  exact congrArg Except.ok (sortedBy_eq_of_perm hkeys)

/-- The keys below the directory of a name that is not plain are refused. -/
theorem outcome_listing_of_not_plain (hhandle : host.AcceptsName handle) {shelf : Shelf}
    (hname : ¬ Plain host name) (disk : Disk) :
    (handleKeys host handle (some (shelfKey handle shelf name))).outcome disk =
      .error (.badKey ("storage.bad_key:" ++ Json.quoted (shelfKey handle shelf name))) := by
  have hextends : (handle ++ "/").toList <+: (shelfKey handle shelf name).toList := by
    rw [shelfKey_eq]
    exact prefix_join handle _
  have hrefused : ¬ host.AcceptsKey (shelfKey handle shelf name) := by
    intro haccepts
    exact hname ((guards_shelfKey_iff hhandle shelf name).mp ⟨haccepts, hextends⟩)
  have hnonempty : shelfKey handle shelf name ≠ "" := by
    intro hempty
    rw [hempty] at hextends
    exact absurd (prefix_nil.mp hextends) (by simp)
  unfold handleKeys guarded
  split
  · next hnone => cases hnone
  · next hempty => exact absurd (Option.some.inj hempty) hnonempty
  · next hsome =>
    obtain rfl := Option.some.inj hsome
    rw [if_pos hrefused]
    rfl

theorem after_handleKeys (host : Host) (handle : String) (key : Option String) (disk : Disk) :
    (handleKeys host handle key).after disk = disk := by
  unfold handleKeys guarded
  split
  · exact after_keys host handle disk
  · exact after_keys host handle disk
  · rw [Call.after_ite, Call.after_ite, after_keys, Call.after_throw, Call.after_throw, ite_self,
      ite_self]

end AbsoluteZero.Storage

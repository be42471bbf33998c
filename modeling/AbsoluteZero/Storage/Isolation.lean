import AbsoluteZero.Storage.KeyIndependence

/-!
# When namespace handles are isolated

A handle lets a key through when it starts with the handle's name and a slash. Two handles of one
store are isolated exactly when neither is named `.` (`isolated_iff`): the path does not keep a
leading `./`. For any other name a write stays below the name (`Frame.off_namespace`,
`respects_run`).
-/

namespace AbsoluteZero.Storage

open Foundations FileTree List

inductive HandleCall
  | write (faults : Faults) (key : String) (data : Bytes)
  | writeOnce (faults : Faults) (key : String) (data : Bytes)
  | read (key : String)
  | existsKey (key : String)
  | keys (key : Option String)

/-- What a call through a handle returns. -/
inductive Answer
  | text (text : String)
  | bytes (data : Bytes)
  | found (present : Bool)
  | listed (keys : List String)
  deriving DecidableEq

def HandleCall.run (host : Host) (name : String) : HandleCall → StoreCall Answer
  | .write faults key data => do
    let text ← guarded host name key (Storage.write host faults key data)
    pure (.text text)
  | .writeOnce faults key data => do
    let text ← guarded host name key (Storage.writeOnce host faults key data)
    pure (.text text)
  | .read key => do
    let data ← guarded host name key (Storage.read host key)
    pure (.bytes data)
  | .existsKey key => do
    let present ← guarded host name key (Storage.existsKey host key)
    pure (.found present)
  | .keys key => do
    let listed ← handleKeys host name key
    pure (.listed listed)

abbrev HandleName (host : Host) := {name : String // host.AcceptsName name}

def Reaches (host : Host) (name : String) (path : List String) : Prop :=
  ∃ key, host.Guards name key ∧ (Location.ofKey key).path = path

def Held (disk : Disk) : Prop := ∃ blob, disk.lookup [lockName] = some (.file blob)

/-- No call through the first handle of an open store changes what the other one reaches or the lock
file, and none tells apart stores that differ in these only. -/
def Isolated (host : Host) (name other : String) : Prop :=
  ∀ call : HandleCall,
    (∀ disk, Held disk → ∀ path, Reaches host other path ∨ path = [lockName] →
      ((call.run host name).after disk).lookup path = disk.lookup path) ∧
    ∀ disk disk', Held disk → Held disk' →
      (∀ path, ¬ Reaches host other path → path ≠ [lockName] →
        disk.lookup path = disk'.lookup path) →
      (call.run host name).outcome disk = (call.run host name).outcome disk'

variable {host : Host} {name key : String}

/-- The directory of a key that a handle lets through starts with the handle's name. -/
theorem directory_of_guards (hname : host.AcceptsName name) (hdot : name ≠ ".")
    (hguards : host.Guards name key) : ∃ rest, (Location.ofKey key).directory = name :: rest := by
  obtain ⟨tail, htail⟩ := hguards.2
  have hkey : key.toList = name.toList ++ '/' :: tail := by
    rw [← htail, String.toList_append, append_assoc]
    rfl
  have hsplit : components key = name :: (tail.splitOn '/').map String.ofList := by
    unfold components
    rw [hkey, splitOn_append_cons_self_of_not_mem hname.2, map_cons, String.ofList_toList]
  have hrest : (tail.splitOn '/').map String.ofList ≠ [] := by
    rw [Ne, map_eq_nil_iff]
    exact splitOn_ne_nil '/' tail
  refine ⟨names ((tail.splitOn '/').map String.ofList).dropLast, ?_⟩
  show names (components key).dropLast = _
  rw [hsplit, dropLast_cons_of_ne_nil hrest]
  unfold names
  rw [filter_cons_of_pos (by simpa using ⟨hname.1.1, hdot⟩)]

variable {location : Location}

theorem path_of_directory {rest : List String}
    (hdirectory : location.directory = name :: rest) : ∃ more, location.path = name :: more := by
  unfold Location.path
  rw [hdirectory]
  split
  · exact ⟨rest ++ [location.last], rfl⟩
  · exact ⟨rest, rfl⟩

theorem ofKey_name (hname : host.AcceptsName name) : Location.ofKey name = ⟨[], name⟩ := by
  have hsplit : components name = [name] := by
    unfold components
    rw [splitOn_eq_singleton hname.2, map_singleton, String.ofList_toList]
  unfold Location.ofKey
  rw [hsplit]
  rfl

/-- What holds of a call that raises, and of a call whose key has its path below the name, holds of
the call through the handle. -/
theorem guarded_rule {Result : Type} {Holds : StoreCall Result → Prop}
    (hname : host.AcceptsName name) (hdot : name ≠ ".") {body : StoreCall Result}
    (hthrow : ∀ error, Holds (throw error))
    (hbody : ∀ rest, host.AcceptsKey key → (Location.ofKey key).directory = name :: rest →
      Holds body) : Holds (guarded host name key body) := by
  unfold guarded
  by_cases haccepts : host.AcceptsKey key
  · rw [if_neg (not_not_intro haccepts)]
    by_cases hextends : (name ++ "/").toList <+: key.toList
    · rw [if_neg (not_not_intro hextends)]
      obtain ⟨rest, hrest⟩ := directory_of_guards hname hdot ⟨haccepts, hextends⟩
      exact hbody rest haccepts hrest
    · rw [if_pos hextends]
      exact hthrow _
  · rw [if_pos haccepts]
    exact hthrow _

/-- What a write changes starts with the first name of its directory, and what is there at that name
stays. -/
theorem Frame.off_namespace {disk next : Disk} {rest path : List String}
    (hframe : Frame location disk next) (hdirectory : location.directory = name :: rest)
    (hpath : path.head? ≠ some name ∨ (path.length = 1 ∧ (disk.lookup path).isSome)) :
    next.lookup path = disk.lookup path := by
  have hbelow : ∀ last, path = location.directory ++ [last] → next.lookup path =
      disk.lookup path := by
    intro last hchild
    rw [hdirectory] at hchild
    rcases hpath with hhead | ⟨hlength, -⟩
    · rw [hchild] at hhead
      exact absurd rfl hhead
    · rw [hchild] at hlength
      simp at hlength
  rcases hframe path with hsame | ⟨hroot, hextends, hbefore, -⟩ | ⟨hplace, -⟩
  · exact hsame
  · rcases hpath with hhead | ⟨-, hsome⟩
    · obtain ⟨more, hmore⟩ := hextends
      rw [hdirectory] at hmore
      cases path with
      | nil => exact absurd rfl hroot
      | cons first others =>
        obtain rfl : first = name := (List.cons.inj hmore).1
        exact absurd rfl hhead
    · rw [hbefore] at hsome
      cases hsome
  · rcases hplace with htmp | ⟨hnamed, htarget⟩
    · exact hbelow location.tmpName htmp
    · rw [Location.path, if_pos hnamed] at htarget
      exact hbelow location.last htarget

/-- Two stores agree on what is below a name, and on whether there is a directory or anything at
all at the name itself. -/
structure Alike (name : String) (disk disk' : Disk) : Prop where
  below : ∀ first rest, disk.lookup (name :: first :: rest) = disk'.lookup (name :: first :: rest)
  missing : disk.lookup [name] = none ↔ disk'.lookup [name] = none
  directory : disk.lookup [name] = some .directory ↔ disk'.lookup [name] = some .directory

namespace Alike

variable {disk disk' next next' : Disk} {location : Location} {rest : List String}

theorem missing_iff (halike : Alike name disk disk') (rest : List String) :
    disk.lookup (name :: rest) = none ↔ disk'.lookup (name :: rest) = none := by
  cases rest with
  | nil => exact halike.missing
  | cons first others => rw [halike.below]

theorem directory_iff (halike : Alike name disk disk') (rest : List String) :
    disk.lookup (name :: rest) = some .directory ↔
      disk'.lookup (name :: rest) = some .directory := by
  cases rest with
  | nil => exact halike.directory
  | cons first others => rw [halike.below]

variable {above : List String}

section

variable (halike : Alike name disk disk')

include halike

theorem lookup_child (habove : above = name :: rest) (last : String) :
    disk.lookup (above ++ [last]) = disk'.lookup (above ++ [last]) := by
  subst habove
  cases rest with
  | nil => exact halike.below last []
  | cons first others => exact halike.below first (others ++ [last])

/-- The same change at a path keeps stores alike. -/
theorem change {path : List String} {node : Option (Node Bytes)}
    (hnext : ∀ place, next.lookup place = if place = path then node else disk.lookup place)
    (hnext' : ∀ place, next'.lookup place = if place = path then node else disk'.lookup place) :
    Alike name next next' := by
  refine ⟨fun first rest ↦ ?_, ?_, ?_⟩
  · rw [hnext, hnext', halike.below]
  · rw [hnext, hnext']
    split
    · exact Iff.rfl
    · exact halike.missing
  · rw [hnext, hnext']
    split
    · exact Iff.rfl
    · exact halike.directory

theorem change_two {path path' : List String}
    {node node' : Option (Node Bytes)} (hnext : ∀ place, next.lookup place =
      if place = path then node else if place = path' then node' else disk.lookup place)
    (hnext' : ∀ place, next'.lookup place =
      if place = path then node else if place = path' then node' else disk'.lookup place) :
    Alike name next next' := by
  refine ⟨fun first rest ↦ ?_, ?_, ?_⟩
  · rw [hnext, hnext', halike.below]
  · rw [hnext, hnext']
    repeat' split
    · exact Iff.rfl
    · exact Iff.rfl
    · exact halike.missing
  · rw [hnext, hnext']
    repeat' split
    · exact Iff.rfl
    · exact Iff.rfl
    · exact halike.directory

theorem mkdir_none_iff {last : String} (hpath : above ++ [last] = name :: rest) :
    disk.mkdir above last = none ↔ disk'.mkdir above last = none := by
  rw [mkdir_eq_none_iff, mkdir_eq_none_iff, Option.isSome_iff_ne_none,
    Option.isSome_iff_ne_none, hpath, Ne, Ne, halike.missing_iff]
  have habove : disk.lookup above = some .directory ↔ disk'.lookup above = some .directory := by
    cases above with
    | nil => rw [lookup_root, lookup_root]
    | cons first others =>
      obtain rfl : first = name := (List.cons.inj hpath).1
      exact halike.directory_iff others
  rw [Ne, Ne, habove]

theorem create_none_iff (habove : above = name :: rest) (last : String) (content : Bytes) :
    disk.create above last content = none ↔ disk'.create above last content = none := by
  rw [create_eq_none_iff, create_eq_none_iff, halike.lookup_child habove]
  subst habove
  rw [Ne, Ne, halike.directory_iff]

end

/-! ### Calls that cannot tell them apart -/

theorem respects_makedirs (faults : Faults) (above names : List String)
    (hpath : above ++ names = name :: rest) :
    Call.Respects (Alike name) (makedirs faults above names) := by
  induction names generalizing above with
  | nil => exact Call.Respects.pure _ _
  | cons last others ih =>
    have hothers : above ++ [last] ++ others = name :: rest := by
      rw [append_assoc]
      exact hpath
    obtain ⟨more, hmore⟩ : ∃ more, above ++ [last] = name :: more := by
      cases above with
      | nil =>
        obtain rfl : last = name := (List.cons.inj hpath).1
        exact ⟨[], rfl⟩
      | cons first below =>
        obtain rfl : first = name := (List.cons.inj hpath).1
        exact ⟨below ++ [last], rfl⟩
    refine Call.Respects.get_bind fun disk disk' halike ↦ ?_
    have hmissing := halike.missing_iff more
    have hdirectory := halike.directory_iff more
    rw [← hmore] at hmissing hdirectory
    cases hlookup : disk.lookup (above ++ [last]) with
    | none =>
      rw [hmissing.mp hlookup]
      by_cases hfault : faults.mkdir (above ++ [last]) = true
      · rw [if_pos hfault, if_pos hfault]
        exact ⟨rfl, halike⟩
      · rw [if_neg hfault, if_neg hfault]
        cases hmade : disk.mkdir above last with
        | none =>
          rw [(halike.mkdir_none_iff hmore).mp hmade]
          exact ⟨rfl, halike⟩
        | some next =>
          cases hmade' : disk'.mkdir above last with
          | none =>
            rw [(halike.mkdir_none_iff hmore).mpr hmade'] at hmade
            cases hmade
          | some next' =>
            exact ih (above ++ [last]) hothers next next'
              (halike.change (lookup_mkdir hmade) (lookup_mkdir hmade'))
    | some node =>
      cases node with
      | directory =>
        rw [hdirectory.mp hlookup]
        exact ih (above ++ [last]) hothers disk disk' halike
      | file blob =>
        cases hlookup' : disk'.lookup (above ++ [last]) with
        | none =>
          rw [hmissing.mpr hlookup'] at hlookup
          cases hlookup
        | some node' =>
          cases node' with
          | directory =>
            rw [hdirectory.mpr hlookup'] at hlookup
            cases hlookup
          | file blob' => exact ⟨rfl, halike⟩

section

variable (hdirectory : location.directory = name :: rest)

include hdirectory

theorem respects_writeTmp (faults : Faults)
    (envelope : Bytes) : Call.Respects (Alike name) (writeTmp faults location envelope) := by
  refine Call.Respects.get_bind fun disk disk' halike ↦ ?_
  by_cases hfault : faults.opening = true
  · rw [if_pos hfault, if_pos hfault]
    exact ⟨rfl, halike⟩
  · rw [if_neg hfault, if_neg hfault]
    have hnone := halike.create_none_iff hdirectory location.tmpName
      (envelope.take (faults.writing.getD envelope.length))
    cases hcreate : disk.create location.directory location.tmpName
        (envelope.take (faults.writing.getD envelope.length)) with
    | none =>
      rw [hnone.mp hcreate]
      exact ⟨rfl, halike⟩
    | some next =>
      cases hcreate' : disk'.create location.directory location.tmpName
          (envelope.take (faults.writing.getD envelope.length)) with
      | none =>
        rw [hnone.mpr hcreate'] at hcreate
        cases hcreate
      | some next' =>
        have hnext := halike.change (lookup_create hcreate)
          (lookup_create hcreate')
        by_cases hwriting : faults.writing.isSome = true
        · simp only [if_pos hwriting]
          exact ⟨rfl, hnext⟩
        · simp only [if_neg hwriting]
          exact ⟨rfl, hnext⟩

theorem respects_replaceTmp (faults : Faults) :
    Call.Respects (Alike name) (replaceTmp faults location) := by
  refine Call.Respects.get_bind fun disk disk' halike ↦ ?_
  by_cases hfault : faults.replacing ∨ ¬ location.Named
  · rw [if_pos hfault, if_pos hfault]
    exact ⟨rfl, halike⟩
  · rw [if_neg hfault, if_neg hfault]
    have hsource := halike.lookup_child hdirectory location.tmpName
    have hblocked : (disk.lookup location.directory ≠ some .directory ∨
        disk.lookup (location.directory ++ [location.last]) = some .directory) ↔
          (disk'.lookup location.directory ≠ some .directory ∨
            disk'.lookup (location.directory ++ [location.last]) = some .directory) := by
      rw [halike.lookup_child hdirectory location.last, hdirectory, Ne, Ne, halike.directory_iff]
    cases hreplace : disk.replace location.directory location.tmpName location.directory
        location.last with
    | none =>
      have hreplace' : disk'.replace location.directory location.tmpName location.directory
          location.last = none := by
        cases hnext' : disk'.replace location.directory location.tmpName location.directory
            location.last with
        | none => rfl
        | some next' =>
          obtain ⟨content, hcontent⟩ := source_of_replace hnext'
          rw [(replace_eq_none_iff hcontent).mpr (hblocked.mp
            ((replace_eq_none_iff (hsource.trans hcontent)).mp hreplace))] at hnext'
          cases hnext'
      rw [hreplace']
      exact ⟨rfl, halike⟩
    | some next =>
      obtain ⟨content, hcontent⟩ := source_of_replace hreplace
      have hcontent' := hsource.symm.trans hcontent
      cases hreplace' : disk'.replace location.directory location.tmpName location.directory
          location.last with
      | none =>
        rw [(replace_eq_none_iff hcontent).mpr (hblocked.mpr
          ((replace_eq_none_iff hcontent').mp hreplace'))] at hreplace
        cases hreplace
      | some next' =>
        exact ⟨rfl, halike.change_two (lookup_replace hcontent hreplace)
          (lookup_replace hcontent' hreplace')⟩

theorem respects_removeTmp (faults : Faults) :
    Call.Respects (Alike name) (removeTmp faults location) := by
  refine Call.Respects.get_bind fun disk disk' halike ↦ ?_
  have hsame := halike.lookup_child hdirectory location.tmpName
  have hthere : disk'.lookup location.tmpPath = disk.lookup location.tmpPath := hsame.symm
  rw [hthere]
  by_cases hsome : (disk.lookup location.tmpPath).isSome
  · simp only [if_pos hsome]
    by_cases hfault : faults.removing = true
    · rw [if_pos hfault, if_pos hfault]
      exact ⟨rfl, halike⟩
    · rw [if_neg hfault, if_neg hfault]
      have hnone : disk.remove location.directory location.tmpName = none ↔
          disk'.remove location.directory location.tmpName = none := by
        rw [remove_eq_none_iff, remove_eq_none_iff, hsame]
      cases hremove : disk.remove location.directory location.tmpName with
      | none =>
        rw [hnone.mp hremove]
        exact ⟨rfl, halike⟩
      | some next =>
        cases hremove' : disk'.remove location.directory location.tmpName with
        | none =>
          rw [hnone.mpr hremove'] at hremove
          cases hremove
        | some next' =>
          exact ⟨rfl, halike.change (lookup_remove hremove) (lookup_remove hremove')⟩
  · simp only [if_neg hsome]
    exact ⟨rfl, halike⟩

end

theorem respects_write (haccepts : host.AcceptsKey key)
    (hdirectory : (Location.ofKey key).directory = name :: rest) (faults : Faults)
    (data : Bytes) : Call.Respects (Alike name) (write host faults key data) := by
  rw [write_eq haccepts]
  refine Call.Respects.bind (Call.Respects.tryCatch ?_ fun _ ↦ ?_) fun _ ↦
    Call.Respects.pure _ _
  · refine Call.Respects.bind ?_ fun _ ↦ Call.Respects.bind ?_ fun _ ↦ ?_
    · exact respects_makedirs faults [] _ hdirectory
    · exact respects_writeTmp hdirectory faults _
    · exact respects_replaceTmp hdirectory faults
  · exact (respects_removeTmp hdirectory faults).bind fun _ ↦ Call.Respects.throw _ _

theorem stat_eq (halike : Alike name disk disk')
    (hdirectory : location.directory = name :: rest) : location.stat disk =
      location.stat disk' := by
  unfold Location.stat
  rw [halike.lookup_child hdirectory location.last]
  have hiff : disk.lookup location.directory = some .directory ↔
      disk'.lookup location.directory = some .directory := by
    rw [hdirectory]
    exact halike.directory_iff rest
  by_cases hthere : disk.lookup location.directory = some .directory
  · rw [if_pos hthere, if_pos (hiff.mp hthere)]
  · rw [if_neg hthere, if_neg fun hthere' ↦ hthere (hiff.mpr hthere')]

theorem respects_existsKey (haccepts : host.AcceptsKey key)
    (hdirectory : (Location.ofKey key).directory = name :: rest) :
    Call.Respects (Alike name) (existsKey host key) := by
  unfold existsKey locate
  rw [if_pos haccepts, pure_bind]
  refine Call.Respects.get_bind fun disk disk' halike ↦ ?_
  rw [halike.stat_eq hdirectory]
  exact ⟨rfl, halike⟩

theorem respects_read (haccepts : host.AcceptsKey key)
    (hdirectory : (Location.ofKey key).directory = name :: rest) :
    Call.Respects (Alike name) (read host key) := by
  unfold read locate
  rw [if_pos haccepts, pure_bind]
  refine Call.Respects.get_bind fun disk disk' halike ↦ ?_
  rw [halike.stat_eq hdirectory]
  cases (Location.ofKey key).stat disk' with
  | none => exact ⟨rfl, halike⟩
  | some node =>
    cases node with
    | directory => exact ⟨rfl, halike⟩
    | file blob =>
      simp only
      cases host.verify key blob with
      | ok body => exact Call.Respects.pure _ _ disk disk' halike
      | error error => exact Call.Respects.throw _ _ disk disk' halike

theorem lookup_of_stat {disk : Disk} (hstat : location.stat disk = some .directory) :
    disk.lookup location.path = some .directory := by
  by_cases hnamed : location.Named
  · rw [← stat_named hnamed, hstat]
  · unfold Location.stat at hstat
    rw [if_neg hnamed] at hstat
    rw [Location.path, if_neg hnamed]
    by_contra hno
    rw [if_neg hno] at hstat
    cases hstat

theorem walk_perm (halike : Alike name disk disk') {more : List String}
    (hpath : location.path = name :: more)
    (hstat : location.stat disk = some .directory ↔ location.stat disk' = some .directory) :
    (location.walk disk).Perm (location.walk disk') := by
  unfold Location.walk
  by_cases hthere : location.stat disk = some .directory
  · have hthere' := hstat.mp hthere
    rw [if_pos hthere, if_pos hthere']
    refine (perm_ext_iff_of_nodup (disk.nodup_files.filter _)
      (disk'.nodup_files.filter _)).mpr fun path ↦ ?_
    have hmem : ∀ tree : Disk, path ∈ tree.files.map Prod.fst ↔
        ∃ content, tree.lookup path = some (.file content) := by
      intro tree
      rw [mem_map]
      constructor
      · rintro ⟨⟨place, content⟩, hfile, rfl⟩
        exact ⟨content, mem_files_iff.mp hfile⟩
      · rintro ⟨content, hfile⟩
        exact ⟨(path, content), mem_files_iff.mpr hfile, rfl⟩
    rw [mem_filter, mem_filter, hmem, hmem]
    refine and_congr_left fun hlisted ↦ ?_
    have hextends : location.path <+: path := (of_decide_eq_true hlisted).1
    rw [hpath] at hextends
    obtain ⟨tail, rfl⟩ := hextends
    -- The name itself is a directory here, so a file lies properly below it.
    cases hrest : more ++ tail with
    | nil =>
      obtain ⟨rfl, rfl⟩ := append_eq_nil_iff.mp hrest
      have hroot := lookup_of_stat hthere
      have hroot' := lookup_of_stat hthere'
      rw [hpath] at hroot hroot'
      rw [append_nil, hroot, hroot']
    | cons first others =>
      rw [cons_append, hrest, halike.below]
  · rw [if_neg hthere, if_neg fun hthere' ↦ hthere (hstat.mpr hthere')]

theorem respects_keys (haccepts : host.AcceptsKey key) {more : List String}
    (hpath : (Location.ofKey key).path = name :: more)
    (hstat : ∀ disk disk', Alike name disk disk' →
      ((Location.ofKey key).stat disk = some .directory ↔
        (Location.ofKey key).stat disk' = some .directory)) :
    Call.Respects (Alike name) (keys host key) := by
  unfold keys locate
  rw [if_pos haccepts, pure_bind]
  refine Call.Respects.get_bind fun disk disk' halike ↦ ⟨?_, halike⟩
  have hwalk := halike.walk_perm hpath (hstat disk disk' halike)
  exact congrArg Except.ok (sortedBy_eq_of_perm (hwalk.map _))

theorem respects_run (hname : host.AcceptsName name) (hdot : name ≠ ".") (call : HandleCall) :
    Call.Respects (Alike name) (call.run host name) := by
  have hguarded : ∀ {Result : Type} (key : String) (body : StoreCall Result),
      (∀ rest, host.AcceptsKey key → (Location.ofKey key).directory = name :: rest →
        Call.Respects (Alike name) body) →
      Call.Respects (Alike name) (guarded host name key body) :=
    fun _ _ hbody ↦ guarded_rule hname hdot (fun error ↦ Call.Respects.throw _ error) hbody
  have hkeys : ∀ key, Call.Respects (Alike name) (guarded host name key (keys host key)) := by
    refine fun key ↦ hguarded key _ fun rest haccepts hdirectory ↦ ?_
    obtain ⟨more, hpath⟩ := path_of_directory hdirectory
    refine respects_keys haccepts hpath fun disk disk' halike ↦ ?_
    rw [halike.stat_eq hdirectory]
  cases call with
  | write faults key data =>
    refine Call.Respects.bind (hguarded key _ fun rest haccepts hdirectory ↦ ?_) fun _ ↦
      Call.Respects.pure _ _
    exact respects_write haccepts hdirectory faults data
  | writeOnce faults key data =>
    refine Call.Respects.bind (hguarded key _ fun rest haccepts hdirectory ↦ ?_) fun _ ↦
      Call.Respects.pure _ _
    refine (respects_existsKey haccepts hdirectory).bind fun present ↦ ?_
    by_cases hpresent : present = true
    · rw [if_pos hpresent]
      exact Call.Respects.throw _ _
    · rw [if_neg hpresent]
      exact respects_write haccepts hdirectory faults data
  | read key =>
    refine Call.Respects.bind (hguarded key _ fun rest haccepts hdirectory ↦ ?_) fun _ ↦
      Call.Respects.pure _ _
    exact respects_read haccepts hdirectory
  | existsKey key =>
    refine Call.Respects.bind (hguarded key _ fun rest haccepts hdirectory ↦ ?_) fun _ ↦
      Call.Respects.pure _ _
    exact respects_existsKey haccepts hdirectory
  | keys key =>
    refine Call.Respects.bind ?_ fun _ ↦ Call.Respects.pure _ _
    have hall : Call.Respects (Alike name) (keys host name) := by
      have hnamed : (Location.ofKey name).Named := by
        rw [ofKey_name hname]
        exact ⟨hname.1.1, hdot⟩
      have hpath : (Location.ofKey name).path = [name] := by
        rw [Location.path, if_pos hnamed, ofKey_name hname]
        rfl
      refine respects_keys hname.1 hpath fun disk disk' halike ↦ ?_
      rw [stat_named hnamed, stat_named hnamed, hpath]
      exact halike.directory
    unfold handleKeys
    split
    · exact hall
    · exact hall
    · exact hkeys _

end Alike

/-- Outside the part of the store below a name nothing changed, nor what was there at the name. -/
def Keeps (name : String) (disk next : Disk) : Prop :=
  ∀ path, path.head? ≠ some name ∨ (path.length = 1 ∧ (disk.lookup path).isSome) →
    next.lookup path = disk.lookup path

instance (name : String) : Std.Refl (Keeps name) := ⟨fun _ _ _ ↦ rfl⟩

instance (name : String) : IsTrans Disk (Keeps name) where
  trans := by
    intro first second third hfirst hsecond path hpath
    have hsame := hfirst path hpath
    rw [hsecond path (by rw [hsame]; exact hpath), hsame]

theorem keeps_write (key : String) {rest : List String}
    (hdirectory : (Location.ofKey key).directory = name :: rest) (faults : Faults)
    (data : Bytes) : Call.Within (Keeps name) (write host faults key data) :=
  fun disk _ hpath ↦ (frame_write host faults key data disk).off_namespace hdirectory hpath

theorem after_locate (host : Host) (key : String) (disk : Disk) :
    (locate host key).after disk = disk := by
  unfold locate
  split <;> rfl

theorem after_existsKey (host : Host) (key : String) (disk : Disk) :
    (existsKey host key).after disk = disk := by
  unfold existsKey
  rw [Call.after_bind, after_locate]
  cases (locate host key).outcome disk <;> rfl

theorem after_read (host : Host) (key : String) (disk : Disk) :
    (read host key).after disk = disk := by
  unfold read
  rw [Call.after_bind, after_locate]
  cases (locate host key).outcome disk with
  | error error => rfl
  | ok location =>
    show Call.after (get >>= _) disk = disk
    rw [Call.after_get_bind]
    cases location.stat disk with
    | none => rfl
    | some node =>
      cases node with
      | directory => rfl
      | file blob =>
        simp only
        cases host.verify key blob <;> rfl

theorem after_keys (host : Host) (key : String) (disk : Disk) :
    (keys host key).after disk = disk := by
  unfold keys
  rw [Call.after_bind, after_locate]
  cases (locate host key).outcome disk <;> rfl

theorem keeps_run (hname : host.AcceptsName name) (hdot : name ≠ ".") (call : HandleCall) :
    Call.Within (Keeps name) (call.run host name) := by
  have hunchanged : ∀ {Result : Type} {body : StoreCall Result},
      (∀ disk, body.after disk = disk) → Call.Within (Keeps name) body := by
    intro Result body hafter disk
    rw [hafter]
    exact refl_of (Keeps name) disk
  have hguarded : ∀ {Result : Type} (key : String) (body : StoreCall Result),
      (∀ rest, host.AcceptsKey key → (Location.ofKey key).directory = name :: rest →
        Call.Within (Keeps name) body) →
      Call.Within (Keeps name) (guarded host name key body) :=
    fun _ _ hbody ↦ guarded_rule hname hdot (fun error ↦ Call.Within.throw error) hbody
  cases call with
  | write faults key data =>
    refine Call.Within.bind (hguarded key _ fun rest _ hdirectory ↦ ?_) fun _ ↦
      Call.Within.pure _
    exact keeps_write key hdirectory faults data
  | writeOnce faults key data =>
    refine Call.Within.bind (hguarded key _ fun rest _ hdirectory ↦ ?_) fun _ ↦
      Call.Within.pure _
    refine (hunchanged (after_existsKey host key)).bind fun present ↦ ?_
    by_cases hpresent : present = true
    · rw [if_pos hpresent]
      exact Call.Within.throw _
    · rw [if_neg hpresent]
      exact keeps_write key hdirectory faults data
  | read key =>
    refine Call.Within.bind (hguarded key _ fun rest _ _ ↦ ?_) fun _ ↦ Call.Within.pure _
    exact hunchanged (after_read host key)
  | existsKey key =>
    refine Call.Within.bind (hguarded key _ fun rest _ _ ↦ ?_) fun _ ↦ Call.Within.pure _
    exact hunchanged (after_existsKey host key)
  | keys key =>
    refine Call.Within.bind ?_ fun _ ↦ Call.Within.pure _
    unfold handleKeys
    split
    · exact hunchanged (after_keys host name)
    · exact hunchanged (after_keys host name)
    · exact hguarded _ _ fun rest _ _ ↦ hunchanged (after_keys host _)

theorem head_of_reaches {other : String} (hother : host.AcceptsName other) (hdot : other ≠ ".")
    {path : List String} (hreaches : Reaches host other path) : path.head? = some other := by
  obtain ⟨key, hguards, rfl⟩ := hreaches
  obtain ⟨rest, hdirectory⟩ := directory_of_guards hother hdot hguards
  obtain ⟨more, hpath⟩ := path_of_directory hdirectory
  rw [hpath]
  rfl

/-- Stores that differ only in what another handle reaches and in the lock file are alike below a
name. -/
theorem alike_of_outside {other : String} (hne : name ≠ other) (hother : host.AcceptsName other)
    (hdot : other ≠ ".") {disk disk' : Disk} (hheld : Held disk) (hheld' : Held disk')
    (houtside : ∀ path, ¬ Reaches host other path → path ≠ [lockName] →
      disk.lookup path = disk'.lookup path) : Alike name disk disk' := by
  have hunreached : ∀ rest, ¬ Reaches host other (name :: rest) := by
    intro rest hreaches
    have hhead := head_of_reaches hother hdot hreaches
    exact hne (Option.some.inj hhead)
  have hbelow : ∀ first rest, disk.lookup (name :: first :: rest) =
      disk'.lookup (name :: first :: rest) := by
    intro first rest
    refine houtside _ (hunreached _) fun heq ↦ ?_
    cases (List.cons.inj heq).2
  by_cases hlock : name = lockName
  · obtain ⟨blob, hblob⟩ := hheld
    obtain ⟨blob', hblob'⟩ := hheld'
    subst hlock
    refine ⟨hbelow, ?_, ?_⟩
    · rw [hblob, hblob']
      simp
    · rw [hblob, hblob']
      simp
  · have hsame := houtside [name] (hunreached []) fun heq ↦ hlock (List.cons.inj heq).1
    exact ⟨hbelow, by rw [hsame], by rw [hsame]⟩

theorem isolated_of_ne_dot {name other : HandleName host} (hne : name ≠ other)
    (hname : name.1 ≠ ".") (hother : other.1 ≠ ".") : Isolated host name other := by
  have hdiffer : name.1 ≠ other.1 := fun heq ↦ hne (Subtype.ext heq)
  intro call
  constructor
  · rintro disk ⟨blob, hblob⟩ path (hreaches | rfl)
    · refine keeps_run name.2 hname call disk path (.inl ?_)
      rw [head_of_reaches other.2 hother hreaches]
      exact fun heq ↦ hdiffer (Option.some.inj heq).symm
    · exact keeps_run name.2 hname call disk [lockName] (.inr ⟨rfl, by rw [hblob]; rfl⟩)
  · intro disk disk' hheld hheld' houtside
    exact (Alike.respects_run name.2 hname call disk disk'
      (alike_of_outside hdiffer other.2 hother hheld hheld' houtside)).1

/-- The directory of a store that was just opened. -/
def openedDisk : Disk := ((FileTree.empty : Disk).create [] lockName []).getD .empty

theorem lookup_openedDisk (path : List String) : openedDisk.lookup path =
    if path = [lockName] then some (.file []) else FileTree.empty.lookup path := by
  cases hcreate : (FileTree.empty : Disk).create [] lockName [] with
  | none =>
    rcases create_eq_none_iff.mp hcreate with hroot | hlock
    · exact absurd (lookup_root _) hroot
    · exact absurd hlock (no_directory_empty (cons_ne_nil _ _))
  | some next =>
    have hnext : openedDisk = next := by
      unfold openedDisk
      rw [hcreate, Option.getD_some]
    rw [hnext, lookup_create hcreate]
    rfl

theorem accepts_dotLock (host : Host) : host.AcceptsKey "./.storage.lock" := by
  refine ⟨by decide, by decide, by decide, by decide, fun character hmem ↦ ?_⟩
  have hall : ∀ character ∈ "./.storage.lock".toList,
      character.isAlphanum = true ∨ character ∈ ['/', '.', '_', '-'] := by decide
  rcases hall character hmem with halnum | hother
  · exact .inl (host.ascii character halnum)
  · exact .inr hother

theorem not_isolated_dot (host : Host) (other : String) : ¬ Isolated host "." other := by
  intro hisolated
  have hlock : openedDisk.lookup [lockName] = some (.file []) := by
    rw [lookup_openedDisk, if_pos rfl]
  have hlocation : Location.ofKey "./.storage.lock" = ⟨[], lockName⟩ := by decide
  have hnamed : (Location.ofKey "./.storage.lock").Named := by
    decide
  have hpath : (Location.ofKey "./.storage.lock").path = [lockName] := by
    rfl
  have hreturns : (write host .none "./.storage.lock" []).outcome openedDisk =
      .ok "committed" := by
    refine write_succeeds (accepts_dotLock host) hnamed [] (fun below blob hbelow ↦ ?_) ?_ ?_
    · rw [hlocation] at hbelow
      rw [prefix_nil.mp hbelow, lookup_root]
      intro heq
      cases heq
    · rw [lookup_openedDisk, if_neg (by rw [hlocation]; decide)]
      exact no_directory_empty (child_ne_root _ _)
    · rw [hpath, hlock]
      intro heq
      cases heq
  obtain ⟨-, -, hwritten⟩ := write_returns hreturns
  rw [hpath] at hwritten
  have hsame := (hisolated (.write .none "./.storage.lock" [])).1 openedDisk ⟨[], hlock⟩ [lockName]
    (.inr rfl)
  have hrun : ((HandleCall.write .none "./.storage.lock" []).run host ".").after openedDisk =
      (write host .none "./.storage.lock" []).after openedDisk := by
    have hguarded : guarded host "." "./.storage.lock" (write host .none "./.storage.lock" []) =
        write host .none "./.storage.lock" [] := by
      unfold guarded
      rw [if_neg (not_not_intro (accepts_dotLock host)), if_neg (not_not_intro (by decide))]
    show Call.after (guarded host "." "./.storage.lock" _ >>= _) openedDisk = _
    rw [hguarded, Call.after_bind, hreturns]
    rfl
  rw [hrun, hwritten, hlock] at hsame
  have henvelope : host.envelope [] = [] := Node.file.inj (Option.some.inj hsame)
  exact absurd henvelope (append_ne_nil_of_right_ne_nil _ (cons_ne_nil _ _))

/-- Assumes: the names differ. The handles are isolated from each other exactly when neither of them
is named `.`. -/
theorem isolated_iff (host : Host) (name other : HandleName host) (hne : name ≠ other) :
    (Isolated host name other ∧ Isolated host other name) ↔ name.1 ≠ "." ∧ other.1 ≠ "." := by
  constructor
  · rintro ⟨hfirst, hsecond⟩
    constructor
    · intro hdot
      rw [hdot] at hfirst
      exact not_isolated_dot host other hfirst
    · intro hdot
      rw [hdot] at hsecond
      exact not_isolated_dot host name hsecond
  · rintro ⟨hname, hother⟩
    exact ⟨isolated_of_ne_dot hne hname hother, isolated_of_ne_dot hne.symm hother hname⟩

/-- Two handles of the system are isolated from each other. -/
theorem isolated_iff_sample : Isolated sampleHost "ums" "rsm" ∧ Isolated sampleHost "rsm" "ums" :=
  (isolated_iff sampleHost ⟨"ums", by decide⟩ ⟨"rsm", by decide⟩ (by decide)).mpr
    ⟨by decide, by decide⟩

/-- The handle named `.` lists the key of another handle, and it overwrites the lock file. -/
theorem dot_reaches_everything : sampleHost.AcceptsName "." ∧ sampleHost.AcceptsName "ums" ∧
      let disk := ((HandleCall.write .none "ums/r1" []).run sampleHost "ums").after openedDisk
      ((HandleCall.keys none).run sampleHost ".").outcome disk = .ok (.listed ["ums/r1"]) ∧
        ((HandleCall.write .none "./.storage.lock" []).run sampleHost ".").outcome disk =
          .ok (.text "committed") ∧
        disk.lookup [lockName] = some (.file []) ∧
        (((HandleCall.write .none "./.storage.lock" []).run sampleHost ".").after disk).lookup
          [lockName] ≠ some (.file []) := by
  decide

end AbsoluteZero.Storage

import AbsoluteZero.Storage.Writing

/-!
# When keys are independent

A write under one key is independent of another key when it leaves what `exists` and `read` say of
the other key as it is. `independent_iff` says when it is. A write touches another key that has the
same normalised path, that names its temporary file, or that names a directory on its way.
-/

namespace AbsoluteZero.Storage

open Foundations Location Call FileTree List

/-- A key that the check lets through. -/
abbrev Key (host : Host) := {key : String // host.AcceptsKey key}

/-- What `exists` and `read` say of a key. -/
def seen (host : Host) (disk : Disk) (key : String) :
    Except StorageError Bool × Except StorageError Bytes :=
  ((existsKey host key).outcome disk, (read host key).outcome disk)

/-- Whatever is stored and whatever is raised, a write under the key leaves what is seen of the
other one as it is, and when it returns, a read gives the data back. -/
def Independent (host : Host) (key other : Key host) : Prop :=
  ∀ (disk : Disk) (faults : Faults) (data : Bytes),
    seen host ((write host faults key data).after disk) other = seen host disk other ∧
      ∀ result, (write host faults key data).outcome disk = .ok result →
        (read host key).outcome ((write host faults key data).after disk) = .ok data

/-- A write to a location touches another one: it has the same target, it names the temporary file,
or it is a directory on the way. -/
def Touches (location other : Location) : Prop :=
  (other.Named ∧ location.Named ∧ other.path = location.path) ∨
    (other.Named ∧ other.path = location.tmpPath) ∨
    (other.path ≠ [] ∧ other.path <+: location.directory)

instance (location other : Location) : Decidable (Touches location other) :=
  inferInstanceAs (Decidable (_ ∨ _ ∨ _))

variable {host : Host} {disk next : Disk} {faults : Faults} {location : Location} {key : String}

theorem outcome_existsKey (haccepts : host.AcceptsKey key) (disk : Disk) :
    (existsKey host key).outcome disk = .ok ((ofKey key).stat disk).isSome := by
  unfold existsKey locate
  rw [if_pos haccepts, pure_bind]
  rfl

theorem outcome_read (haccepts : host.AcceptsKey key) (disk : Disk) :
    (read host key).outcome disk = match (ofKey key).stat disk with
      | none => .error (.missingKey ("storage.missing_key:" ++ key))
      | some .directory => .error .operatingSystem
      | some (.file blob) => host.verify key blob := by
  unfold read locate
  rw [if_pos haccepts, pure_bind, outcome_get_bind]
  cases (ofKey key).stat disk with
  | none => rfl
  | some node =>
    cases node with
    | directory => rfl
    | file blob =>
      simp only
      cases host.verify key blob <;> rfl

theorem stat_named (hnamed : location.Named) (disk : Disk) :
    location.stat disk = disk.lookup location.path := by
  rw [stat, path, if_pos hnamed, if_pos hnamed]

/-- What is seen of a key is decided by what is at its path. -/
theorem seen_congr {key : Key host} (hstat : (ofKey key).stat next = (ofKey key).stat disk) :
    seen host next key = seen host disk key := by
  unfold seen
  rw [outcome_existsKey key.2, outcome_existsKey key.2, outcome_read key.2, outcome_read key.2,
    hstat]

theorem stat_of_not_touches {other : Location} (hframe : Frame location disk next)
    (huntouched : ¬ Touches location other) : other.stat next = other.stat disk := by
  have hchanges := hframe other.path
  by_cases hnamed : other.Named
  · rw [stat_named hnamed, stat_named hnamed]
    rcases hchanges with hsame | ⟨hroot, hextends, -⟩ | ⟨hplace, -⟩
    · exact hsame
    · exact absurd (.inr (.inr ⟨hroot, hextends⟩)) huntouched
    · rcases hplace with htmp | ⟨htarget, hpath⟩
      · exact absurd (.inr (.inl ⟨hnamed, htmp⟩)) huntouched
      · exact absurd (.inl ⟨hnamed, htarget, hpath⟩) huntouched
  · have hpath : other.path = other.directory := if_neg hnamed
    rw [hpath] at hchanges
    unfold stat
    rw [if_neg hnamed, if_neg hnamed]
    rcases hchanges with hsame | ⟨hroot, hextends, -⟩ | ⟨-, hbefore, hafter⟩
    · rw [hsame]
    · exact absurd (.inr (.inr ⟨hpath ▸ hroot, hpath ▸ hextends⟩)) huntouched
    · rw [if_neg hbefore, if_neg hafter]

/-- What was written is read back. -/
theorem read_of_write {data : Bytes} {result : String}
    (hreturns : (write host faults key data).outcome disk = .ok result) :
    (read host key).outcome ((write host faults key data).after disk) = .ok data := by
  obtain ⟨haccepts, hnamed, htarget⟩ := write_returns hreturns
  rw [outcome_read haccepts, stat_named hnamed, htarget]
  exact verify_envelope host key data

/-! ### When a write goes through -/

variable {path : List String}

theorem Frame.directory (hframe : Frame location disk next)
    (hdirectory : disk.lookup path = some .directory) : next.lookup path = some .directory := by
  rcases hframe path with hsame | ⟨-, -, hbefore, -⟩ | ⟨-, hbefore, -⟩
  · rw [hsame]
    exact hdirectory
  · rw [hdirectory] at hbefore
    cases hbefore
  · exact absurd hdirectory hbefore

/-- Assumes: no directory on the way is a file, and none that is made is refused. Then they are
there. -/
theorem makedirs_returns (hmkdir : ∀ path, faults.mkdir path = false) (above names : List String)
    (habove : disk.lookup above = some .directory)
    (hway : ∀ below blob, below <+: names → disk.lookup (above ++ below) ≠ some (.file blob)) :
    (makedirs faults above names).outcome disk = .ok ⟨⟩ ∧
      ((makedirs faults above names).after disk).lookup (above ++ names) = some .directory := by
  induction names generalizing above disk with
  | nil =>
    rw [append_nil]
    exact ⟨rfl, habove⟩
  | cons name rest ih =>
    have hfirst : [name] <+: name :: rest := prefix_append [name] rest
    have hrest : above ++ name :: rest = above ++ [name] ++ rest := by
      rw [append_assoc]
      rfl
    unfold makedirs
    rw [outcome_get_bind, after_get_bind, hrest]
    cases hlookup : disk.lookup (above ++ [name]) with
    | some node =>
      cases node with
      | directory =>
        refine ih (above ++ [name]) hlookup fun below blob hbelow ↦ ?_
        rw [append_assoc]
        exact hway (name :: below) blob ((prefix_append_right_inj [name]).mpr hbelow)
      | file blob => exact absurd hlookup (hway [name] blob hfirst)
    | none =>
      simp only [hmkdir, Bool.false_eq_true, if_false]
      cases hmade : disk.mkdir above name with
      | none =>
        rcases mkdir_eq_none_iff.mp hmade with hparent | hpresent
        · exact absurd habove hparent
        · rw [hlookup] at hpresent
          cases hpresent
      | some made =>
        rw [outcome_bind, after_bind]
        simp only [outcome_set, after_set]
        refine ih (above ++ [name]) ?_ fun below blob hbelow ↦ ?_
        · rw [lookup_mkdir hmade, if_pos rfl]
        · rw [lookup_mkdir hmade]
          by_cases hhere : above ++ [name] ++ below = above ++ [name]
          · rw [if_pos hhere]
            intro heq
            cases heq
          · rw [if_neg hhere, append_assoc]
            exact hway (name :: below) blob ((prefix_append_right_inj [name]).mpr hbelow)

theorem writeTmp_succeeds (faults : Faults) (envelope : Bytes) (hopening : faults.opening = false)
    (hwriting : faults.writing = none) (hdirectory : disk.lookup location.directory =
      some .directory)
    (htmp : disk.lookup location.tmpPath ≠ some .directory) :
    (writeTmp faults location envelope).outcome disk = .ok ⟨⟩ := by
  unfold writeTmp
  rw [outcome_get_bind]
  simp only [hopening, hwriting, Bool.false_eq_true, if_false]
  cases hcreate : disk.create location.directory location.tmpName
      (envelope.take (Option.getD none envelope.length)) with
  | none =>
    rcases create_eq_none_iff.mp hcreate with hparent | htarget
    · exact absurd hdirectory hparent
    · exact absurd htarget htmp
  | some next => rfl

theorem replaceTmp_succeeds (faults : Faults) {envelope : Bytes} (hreplacing : faults.replacing =
    false) (hnamed : location.Named) (hdirectory : disk.lookup location.directory = some .directory)
    (htmp : disk.lookup location.tmpPath = some (.file envelope))
    (htarget : disk.lookup location.path ≠ some .directory) :
    (replaceTmp faults location).outcome disk = .ok ⟨⟩ := by
  have hpath : location.path = location.directory ++ [location.last] := if_pos hnamed
  unfold replaceTmp
  rw [outcome_get_bind]
  rw [if_neg fun hfault ↦ hfault.elim (by rw [hreplacing]; exact Bool.false_ne_true)
    (absurd hnamed)]
  cases hreplace : disk.replace location.directory location.tmpName location.directory
      location.last with
  | none =>
    rcases (replace_eq_none_iff htmp).mp hreplace with hparent | hkind
    · exact absurd hdirectory hparent
    · rw [hpath] at htarget
      exact absurd hkind htarget
  | some next => rfl

theorem removeTmp_removes (faults : Faults) {envelope : Bytes} (hremoving : faults.removing = false)
    (htmp : disk.lookup location.tmpPath = some (.file envelope)) :
    ((removeTmp faults location).after disk).lookup location.tmpPath = none := by
  unfold removeTmp
  rw [after_get_bind, after_ite, if_pos (by rw [htmp]; rfl)]
  simp only [hremoving, Bool.false_eq_true, if_false]
  cases hremove : disk.remove location.directory location.tmpName with
  | none => exact absurd htmp (remove_eq_none_iff.mp hremove envelope)
  | some next =>
    show next.lookup (location.directory ++ [location.tmpName]) = none
    rw [lookup_remove hremove, if_pos rfl]

theorem lookup_empty (hpath : path ≠ []) : (FileTree.empty : Disk).lookup path = none :=
  if_neg hpath

/-- What is no directory, and not on the way, is none afterwards. -/
theorem Frame.not_directory (hframe : Frame location disk next)
    (hoff : ¬ path <+: location.directory) (hkind : disk.lookup path ≠ some .directory) :
    next.lookup path ≠ some .directory := by
  rcases hframe path with hsame | ⟨-, hextends, -⟩ | ⟨-, -, hafter⟩
  · rw [hsame]
    exact hkind
  · exact absurd hextends hoff
  · exact hafter

/-- A write under a key that names a file goes through when nothing is in its way. -/
theorem write_succeeds (haccepts : host.AcceptsKey key) (hnamed : (ofKey key).Named) (data : Bytes)
    (hway : ∀ below blob, below <+: (ofKey key).directory →
      disk.lookup below ≠ some (.file blob))
    (htmp : disk.lookup (ofKey key).tmpPath ≠ some .directory)
    (htarget : disk.lookup (ofKey key).path ≠ some .directory) :
    (write host .none key data).outcome disk = .ok "committed" := by
  have hmkdir : ∀ path, Faults.none.mkdir path = false := fun _ ↦ rfl
  obtain ⟨hmade, hdirectory⟩ := makedirs_returns hmkdir [] (ofKey key).directory
    (lookup_root disk) hway
  have hframe := frame_makedirs .none (.ofKey key) disk
  have hwritten := writeTmp_succeeds .none (host.envelope data) rfl rfl hdirectory
    (hframe.not_directory (Frame.tmpPath_not_extended _) htmp)
  have hframe' := frame_writeTmp .none (.ofKey key) (host.envelope data)
    ((makedirs .none [] (ofKey key).directory).after disk)
  have hreplaced := replaceTmp_succeeds .none rfl hnamed (hframe'.directory hdirectory)
    (writeTmp_returns hwritten) ((hframe.trans hframe').not_directory
      (Frame.target_not_extended hnamed) htarget)
  have hswap : Call.outcome (do
      makedirs .none [] (ofKey key).directory
      writeTmp .none (.ofKey key) (host.envelope data)
      replaceTmp .none (.ofKey key)) disk = .ok ⟨⟩ := by
    rw [outcome_bind, hmade]
    rw [outcome_bind, hwritten]
    exact hreplaced
  rw [write_eq haccepts, outcome_bind, outcome_tryCatch, hswap]
  rfl

/-- The faults of a write whose temporary file cannot be moved. -/
def Faults.unmovable : Faults := { Faults.none with replacing := true }

theorem replaceTmp_unmovable (location : Location) (disk : Disk) :
    (replaceTmp .unmovable location).outcome disk = .error .operatingSystem ∧
      (replaceTmp .unmovable location).after disk = disk :=
  ⟨rfl, rfl⟩

/-- Assumes: there is a file at the temporary path. After a write that cannot move it there is
none. -/
theorem write_unmovable (haccepts : host.AcceptsKey key) (data blob : Bytes)
    (htmp : disk.lookup (ofKey key).tmpPath = some (.file blob)) :
    ((write host .unmovable key data).after disk).lookup (ofKey key).tmpPath = none := by
  have hdirectory : disk.lookup (ofKey key).directory = some .directory :=
    parent_eq (by rw [tmpPath] at htmp; rw [htmp]; rfl)
  have hway : ∀ below blob, below <+: (ofKey key).directory →
      disk.lookup below ≠ some (.file blob) := by
    rintro below blob ⟨rest, hrest⟩ hfile
    by_cases hempty : rest = []
    · rw [hempty, append_nil] at hrest
      rw [hrest, hdirectory] at hfile
      cases hfile
    · have habove : disk.lookup below = some .directory :=
        lookup_above hempty (by rw [hrest, hdirectory]; rfl)
      rw [habove] at hfile
      cases hfile
  have hmkdir : ∀ path, Faults.unmovable.mkdir path = false := fun _ ↦ rfl
  obtain ⟨hmade, hthere⟩ := makedirs_returns hmkdir [] (ofKey key).directory (lookup_root disk) hway
  have hframe := frame_makedirs .unmovable (.ofKey key) disk
  have hkind : disk.lookup (ofKey key).tmpPath ≠ some .directory := by
    rw [htmp]
    intro heq
    cases heq
  have hwritten := writeTmp_succeeds .unmovable (host.envelope data) rfl rfl hthere
    (hframe.not_directory (Frame.tmpPath_not_extended _) hkind)
  rw [write_eq haccepts, after_bind_pure, after_tryCatch, outcome_bind, hmade, after_bind, hmade]
  rw [outcome_bind, hwritten, after_bind, hwritten]
  rw [after_bind_throw]
  exact removeTmp_removes .unmovable rfl (writeTmp_returns hwritten)

/-! ### Independence -/

/-- A directory on the way of a write is there afterwards. -/
theorem write_makes (haccepts : host.AcceptsKey key) (data : Bytes)
    (hway : ∀ below blob, below <+: (ofKey key).directory →
      disk.lookup below ≠ some (.file blob)) :
    ((write host .none key data).after disk).lookup (ofKey key).directory =
      some .directory := by
  have hmkdir : ∀ path, Faults.none.mkdir path = false := fun _ ↦ rfl
  obtain ⟨hmade, hthere⟩ := makedirs_returns hmkdir [] (ofKey key).directory (lookup_root disk) hway
  rw [write_eq haccepts, after_bind_pure, Call.after, run_tryCatch_bind hmade]
  have hrest : Call.Within (Frame (.ofKey key)) (tryCatch
      (do
        writeTmp .none (.ofKey key) (host.envelope data)
        replaceTmp .none (.ofKey key))
      fun _ ↦ do
        removeTmp .none (.ofKey key)
        throw (.writeFailed key)) := by
    refine Call.Within.tryCatch (Call.Within.bind ?_ fun _ ↦ ?_) fun _ ↦ ?_
    · exact frame_writeTmp .none _ _
    · exact frame_replaceTmp .none _
    · exact (frame_removeTmp .none _).bind fun _ ↦ Call.Within.throw _
  exact (hrest _).directory hthere

theorem no_file_empty (path : List String) (blob : Bytes) :
    (FileTree.empty : Disk).lookup path ≠ some (.file blob) := by
  by_cases hroot : path = []
  · rw [hroot, lookup_root]
    exact nofun
  · rw [lookup_empty hroot]
    exact nofun

theorem no_directory_empty (hpath : path ≠ []) :
    (FileTree.empty : Disk).lookup path ≠ some .directory := by
  rw [lookup_empty hpath]
  exact nofun

theorem path_ne_root (hnamed : location.Named) : location.path ≠ [] := by
  rw [path, if_pos hnamed]
  exact child_ne_root _ _

theorem first_write (haccepts : host.AcceptsKey key) (hnamed : (ofKey key).Named) (data : Bytes) :
    ((write host .none key data).after .empty).lookup (ofKey key).path =
      some (.file (host.envelope data)) := by
  have hreturns := write_succeeds haccepts hnamed data (fun path blob _ ↦ no_file_empty path blob)
    (no_directory_empty (child_ne_root _ _)) (no_directory_empty (path_ne_root hnamed))
  exact (write_returns hreturns).2.2

section Converse

variable {key other : Key host}

theorem Independent.isSome_stat (hindependent : Independent host key other) (disk : Disk)
    (faults : Faults) (data : Bytes) :
    ((ofKey other).stat ((write host faults key data).after disk)).isSome =
      ((ofKey other).stat disk).isSome := by
  have hseen := congrArg Prod.fst (hindependent disk faults data).1
  unfold seen at hseen
  rw [outcome_existsKey other.2, outcome_existsKey other.2] at hseen
  exact Except.ok.inj hseen

theorem not_independent_of_path (hother : (ofKey other).Named) (hnamed : (ofKey key).Named)
    (hpath : (ofKey other).path = (ofKey key).path) :
    ¬ Independent host key other := by
  intro hindependent
  have hsame := hindependent.isSome_stat .empty .none []
  rw [stat_named hother, stat_named hother, lookup_empty (path_ne_root hother), hpath,
    first_write key.2 hnamed] at hsame
  cases hsame

/-- A key that names the temporary file is written first. A write that puts its temporary file there
and removes it takes the key away. -/
theorem not_independent_of_tmpPath (hother : (ofKey other).Named)
    (hpath : (ofKey other).path = (ofKey key).tmpPath) :
    ¬ Independent host key other := by
  intro hindependent
  have hfile := first_write other.2 hother []
  rw [hpath] at hfile
  have hsame := hindependent.isSome_stat ((write host .none other []).after .empty) .unmovable []
  rw [stat_named hother, stat_named hother, hpath, hfile, write_unmovable key.2 [] _ hfile] at hsame
  cases hsame

/-- The first write under a key makes the directories on its way exist. -/
theorem not_independent_of_directory (hroot : (ofKey other).path ≠ [])
    (hextends : (ofKey other).path <+: (ofKey key).directory) :
    ¬ Independent host key other := by
  intro hindependent
  have hway := write_makes key.2 [] fun path blob _ ↦ no_file_empty path blob
  have hmade : ((write host .none key []).after .empty).lookup (ofKey other).path =
      some .directory := by
    obtain ⟨rest, hrest⟩ := hextends
    by_cases hempty : rest = []
    · rw [hempty, append_nil] at hrest
      rw [hrest]
      exact hway
    · exact lookup_above hempty (by rw [hrest, hway]; rfl)
  have hsame := hindependent.isSome_stat .empty .none []
  by_cases hnamed : (ofKey other).Named
  · rw [stat_named hnamed, stat_named hnamed, hmade, lookup_empty hroot] at hsame
    cases hsame
  · have hpath : (ofKey other).path = (ofKey other).directory := if_neg hnamed
    rw [hpath] at hmade hroot
    unfold stat at hsame
    rw [if_neg hnamed, if_neg hnamed, if_pos hmade, if_neg (no_directory_empty hroot)] at hsame
    cases hsame

end Converse

/-- A write under one key leaves another one as it is, in every store and whatever is raised,
exactly when it does not touch it. What a write that returns wrote is read back in any case. -/
theorem independent_iff (host : Host) (key other : Key host) :
    Independent host key other ↔ ¬ Touches (.ofKey key) (.ofKey other) := by
  constructor
  · rintro hindependent (⟨hother, hnamed, hpath⟩ | ⟨hother, hpath⟩ | ⟨hroot, hextends⟩)
    · exact not_independent_of_path hother hnamed hpath hindependent
    · exact not_independent_of_tmpPath hother hpath hindependent
    · exact not_independent_of_directory hroot hextends hindependent
  · intro huntouched disk faults data
    refine ⟨seen_congr ?_, fun result hreturns ↦ read_of_write hreturns⟩
    exact stat_of_not_touches (frame_write host faults key data disk) huntouched

/-- A host on which a digest is that of no bytes. -/
def sampleHost : Host where
  isalnum := Char.isAlphanum
  ascii := fun _ halnum ↦ halnum
  hexdigest := fun _ ↦
    "e3b0c44298fc1c149afbf4c8996fb92427ae41e4649b934ca495991b7852b855".toList.map fun digit ↦
      digit.toNat.toUInt8
  noNewline := fun _ ↦ by decide

/-- Two keys are written, and then the first one is written again. Its temporary file was the second
one, which is gone. -/
theorem tmp_overwritten : sampleHost.AcceptsKey "ums/r1" ∧ sampleHost.AcceptsKey "ums/r1.tmp" ∧
      let disk := (write sampleHost .none "ums/r1.tmp" []).after .empty
      (existsKey sampleHost "ums/r1.tmp").outcome disk = .ok true ∧
        (write sampleHost .none "ums/r1" []).outcome disk = .ok "committed" ∧
        (existsKey sampleHost "ums/r1.tmp").outcome
          ((write sampleHost .none "ums/r1" []).after disk) = .ok false := by
  decide

end AbsoluteZero.Storage

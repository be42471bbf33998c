import AbsoluteZero.Storage.Store

/-!
# What a write does

A write touches the directories on the way to its key that were missing, the temporary file, and the
target (`Frame`, `frame_write`); whatever is raised on the way, nothing else changes. A write that
returns leaves the data at the target (`write_returns`), where `read` finds it
(`verify_envelope`).
-/

namespace AbsoluteZero.Storage

open Foundations Location Call FileTree List Option

/-! ### What may change -/

/-- What a write to a location may change at a path: nothing, a directory on the way that was
missing, or the file at the temporary path or the target. -/
def ChangesAt (location : Location) (path : List String) (before after : Option (Node Bytes)) :
    Prop :=
  after = before ∨
    (path ≠ [] ∧ path <+: location.directory ∧ before = none ∧ after = some .directory) ∨
    ((path = location.tmpPath ∨ (location.Named ∧ path = location.path)) ∧
      before ≠ some .directory ∧ after ≠ some .directory)

/-- A directory changed within what a write to a location may change. -/
def Frame (location : Location) (disk next : Disk) : Prop :=
  ∀ path, ChangesAt location path (disk.lookup path) (next.lookup path)

namespace Frame

variable {location : Location} {disk next last : Disk}

theorem refl (location : Location) (disk : Disk) : Frame location disk disk :=
  fun _ ↦ .inl rfl

theorem tmpPath_not_extended (location : Location) : ¬ location.tmpPath <+: location.directory := by
  intro hextends
  have hlength := hextends.length_le
  rw [tmpPath, length_append, length_singleton] at hlength
  omega

theorem target_not_extended (hnamed : location.Named) : ¬ location.path <+: location.directory := by
  intro hextends
  have hlength := hextends.length_le
  rw [path, if_pos hnamed, length_append, length_singleton] at hlength
  omega

theorem trans (hfirst : Frame location disk next) (hsecond : Frame location next last) :
    Frame location disk last := by
  intro path
  rcases hsecond path with hsame | ⟨hroot, hextends, hbefore, hafter⟩ | ⟨hplace, hbefore, hafter⟩
  · rw [hsame]
    exact hfirst path
  · rcases hfirst path with hsame | ⟨-, -, -, hdirectory⟩ | ⟨hplace, hkind, -⟩
    · rw [hsame] at hbefore
      exact .inr (.inl ⟨hroot, hextends, hbefore, hafter⟩)
    · rw [hbefore] at hdirectory
      cases hdirectory
    · -- The temporary path and the target are no directories on the way.
      rcases hplace with rfl | ⟨hnamed, rfl⟩
      · exact absurd hextends (tmpPath_not_extended location)
      · exact absurd hextends (target_not_extended hnamed)
  · rcases hfirst path with hsame | ⟨-, -, -, hdirectory⟩ | ⟨-, hkind, -⟩
    · rw [hsame] at hbefore
      exact .inr (.inr ⟨hplace, hbefore, hafter⟩)
    · exact absurd hdirectory hbefore
    · exact .inr (.inr ⟨hplace, hkind, hafter⟩)

instance (location : Location) : Std.Refl (Frame location) := ⟨refl location⟩

instance (location : Location) : IsTrans Disk (Frame location) := ⟨fun _ _ _ ↦ trans⟩

end Frame

/-- Directories on the way to one were made where there was nothing, and all else stayed. -/
def Makes (directory : List String) (disk next : Disk) : Prop :=
  ∀ path, next.lookup path = disk.lookup path ∨
    (path ≠ [] ∧ path <+: directory ∧ disk.lookup path = none ∧
      next.lookup path = some .directory)

namespace Makes

variable {directory : List String} {disk next last : Disk}

theorem refl (directory : List String) (disk : Disk) : Makes directory disk disk :=
  fun _ ↦ .inl rfl

theorem trans (hfirst : Makes directory disk next) (hsecond : Makes directory next last) :
    Makes directory disk last := by
  intro path
  rcases hsecond path with hsame | ⟨hroot, hextends, hbefore, hafter⟩
  · rw [hsame]
    exact hfirst path
  · rcases hfirst path with hsame | ⟨-, -, -, hdirectory⟩
    · rw [hsame] at hbefore
      exact .inr ⟨hroot, hextends, hbefore, hafter⟩
    · rw [hbefore] at hdirectory
      cases hdirectory

theorem frame {location : Location} (hmakes : Makes location.directory disk next) :
    Frame location disk next := by
  intro path
  rcases hmakes path with hsame | hmade
  · exact .inl hsame
  · exact .inr (.inl hmade)

end Makes

section Steps

variable {faults : Faults} {location : Location}

section

variable (faults : Faults)

/-- Directories are made on the way only, where there was nothing. -/
theorem makes_makedirs (directory above names : List String) (hway : above ++ names <+: directory) :
    Call.Within (Makes directory) (makedirs faults above names) := by
  induction names generalizing above with
  | nil => exact fun disk ↦ Makes.refl directory disk
  | cons name rest ih =>
    have hrest : above ++ [name] ++ rest <+: directory := by
      rw [append_assoc]
      exact hway
    intro disk
    unfold makedirs
    rw [after_get_bind]
    cases hlookup : disk.lookup (above ++ [name]) with
    | none =>
      cases hmade : (if faults.mkdir (above ++ [name]) then none else disk.mkdir above name) with
      | none => exact Makes.refl directory disk
      | some next =>
        have hmkdir := (ite_none_left_eq_some.mp hmade).2
        have hnext : Makes directory disk next := by
          intro path
          rw [lookup_mkdir hmkdir]
          by_cases hpath : path = above ++ [name]
          · subst hpath
            rw [if_pos rfl]
            exact .inr ⟨child_ne_root above name, (prefix_append _ rest).trans hrest,
              hlookup, rfl⟩
          · rw [if_neg hpath]
            exact .inl rfl
        exact hnext.trans (ih (above ++ [name]) hrest next)
    | some node =>
      cases node with
      | directory => exact ih (above ++ [name]) hrest disk
      | file blob => exact Makes.refl directory disk

theorem frame_makedirs (location : Location) :
    Call.Within (Frame location) (makedirs faults [] location.directory) :=
  fun disk ↦ (makes_makedirs faults location.directory [] _ prefix_rfl disk).frame

/-- The temporary file is not made, or it is, and the step returns when all of it was written. -/
theorem writeTmp_cases (location : Location) (envelope : Bytes) (disk : Disk) :
    ((writeTmp faults location envelope).after disk = disk ∧
        (writeTmp faults location envelope).outcome disk ≠ .ok ⟨⟩) ∨
      disk.create location.directory location.tmpName
          (envelope.take (faults.writing.getD envelope.length)) =
        some ((writeTmp faults location envelope).after disk) ∧
        ((writeTmp faults location envelope).outcome disk = .ok ⟨⟩ → faults.writing = none) := by
  unfold writeTmp
  rw [after_get_bind, outcome_get_bind]
  cases hcreated : (if faults.opening then none else disk.create location.directory
      location.tmpName (envelope.take (faults.writing.getD envelope.length))) with
  | none => exact .inl ⟨rfl, fun hreturns ↦ by cases hreturns⟩
  | some next =>
    refine .inr ⟨?_, fun hreturns ↦ ?_⟩
    · simp only [after_bind, outcome_set, after_set, after_ite, after_throw, after_pure, ite_self]
      exact (ite_none_left_eq_some.mp hcreated).2
    · cases hwriting : faults.writing with
      | none => rfl
      | some count =>
        rw [hwriting] at hreturns
        cases hreturns

theorem replaceTmp_cases (location : Location) (disk : Disk) :
    ((replaceTmp faults location).after disk = disk ∧
        (replaceTmp faults location).outcome disk = .error .operatingSystem) ∨
      location.Named ∧ disk.replace location.directory location.tmpName location.directory
          location.last = some ((replaceTmp faults location).after disk) ∧
        (replaceTmp faults location).outcome disk = .ok ⟨⟩ := by
  unfold replaceTmp
  rw [after_get_bind, outcome_get_bind]
  cases hreplaced : (if faults.replacing ∨ ¬ location.Named then none
      else disk.replace location.directory location.tmpName location.directory location.last) with
  | none => exact .inl ⟨rfl, rfl⟩
  | some next =>
    obtain ⟨hfault, hreplace⟩ := ite_none_left_eq_some.mp hreplaced
    exact .inr ⟨not_not.mp (not_or.mp hfault).2, hreplace, rfl⟩

theorem removeTmp_cases (location : Location) (disk : Disk) :
    (removeTmp faults location).after disk = disk ∨
      disk.remove location.directory location.tmpName =
        some ((removeTmp faults location).after disk) := by
  unfold removeTmp
  rw [after_get_bind, after_ite]
  split
  · cases hremoved : (if faults.removing then none
        else disk.remove location.directory location.tmpName) with
    | none => exact .inl rfl
    | some next => exact .inr (ite_none_left_eq_some.mp hremoved).2
  · exact .inl rfl

theorem frame_writeTmp (location : Location) (envelope : Bytes) :
    Call.Within (Frame location) (writeTmp faults location envelope) := by
  intro disk
  rcases writeTmp_cases faults location envelope disk with ⟨hsame, -⟩ | ⟨hcreate, -⟩
  · rw [hsame]
    exact Frame.refl location disk
  · intro path
    rw [lookup_create hcreate]
    by_cases hpath : path = location.directory ++ [location.tmpName]
    · subst hpath
      rw [if_pos rfl]
      have hkind : disk.lookup (location.directory ++ [location.tmpName]) ≠ some .directory := by
        intro hdirectory
        rw [create_eq_none_iff.mpr (.inr hdirectory)] at hcreate
        cases hcreate
      exact .inr (.inr ⟨.inl rfl, hkind, nofun⟩)
    · rw [if_neg hpath]
      exact .inl rfl

theorem frame_replaceTmp (location : Location) :
    Call.Within (Frame location) (replaceTmp faults location) := by
  intro disk
  rcases replaceTmp_cases faults location disk with ⟨hsame, -⟩ | ⟨hnamed, hreplace, -⟩
  · rw [hsame]
    exact Frame.refl location disk
  · have hpath : location.path = location.directory ++ [location.last] := if_pos hnamed
    obtain ⟨content, hsource⟩ := source_of_replace hreplace
    intro path
    rw [lookup_replace hsource hreplace]
    by_cases htarget : path = location.directory ++ [location.last]
    · subst htarget
      rw [if_pos rfl]
      have hkind : disk.lookup (location.directory ++ [location.last]) ≠ some .directory := by
        intro hdirectory
        rw [(replace_eq_none_iff hsource).mpr (.inr hdirectory)] at hreplace
        cases hreplace
      exact .inr (.inr ⟨.inr ⟨hnamed, hpath.symm⟩, hkind, nofun⟩)
    · rw [if_neg htarget]
      by_cases htmp : path = location.directory ++ [location.tmpName]
      · subst htmp
        rw [if_pos rfl, hsource]
        exact .inr (.inr ⟨.inl rfl, nofun, nofun⟩)
      · rw [if_neg htmp]
        exact .inl rfl

theorem frame_removeTmp (location : Location) :
    Call.Within (Frame location) (removeTmp faults location) := by
  intro disk
  rcases removeTmp_cases faults location disk with hsame | hremove
  · rw [hsame]
    exact Frame.refl location disk
  · intro path
    rw [lookup_remove hremove]
    by_cases hpath : path = location.directory ++ [location.tmpName]
    · subst hpath
      rw [if_pos rfl]
      have hkind : disk.lookup (location.directory ++ [location.tmpName]) ≠ some .directory := by
        intro hdirectory
        have hnone : disk.remove location.directory location.tmpName = none := by
          rw [remove_eq_none_iff, hdirectory]
          exact fun _ ↦ nofun
        rw [hnone] at hremove
        cases hremove
      exact .inr (.inr ⟨.inl rfl, hkind, nofun⟩)
    · rw [if_neg hpath]
      exact .inl rfl

end

theorem frame_write (host : Host) (faults : Faults) (key : String) (data : Bytes) :
    Call.Within (Frame (.ofKey key)) (write host faults key data) := by
  unfold write locate
  by_cases haccepts : host.AcceptsKey key
  · rw [if_pos haccepts, pure_bind]
    have hswap : Call.Within (Frame (.ofKey key)) (do
        makedirs faults [] (ofKey key).directory
        writeTmp faults (.ofKey key) (host.envelope data)
        replaceTmp faults (.ofKey key)) := by
      refine Call.Within.bind ?_ fun _ ↦ Call.Within.bind ?_ fun _ ↦ ?_
      · exact frame_makedirs faults _
      · exact frame_writeTmp faults _ _
      · exact frame_replaceTmp faults _
    refine Call.Within.bind (hswap.tryCatch fun _ ↦ ?_) fun _ ↦ Call.Within.pure _
    exact (frame_removeTmp faults _).bind fun _ ↦ Call.Within.throw _
  · rw [if_neg haccepts]
    exact fun disk ↦ Frame.refl _ disk

variable {disk : Disk}

theorem writeTmp_returns {envelope : Bytes}
    (hreturns : (writeTmp faults location envelope).outcome disk = .ok ⟨⟩) :
    ((writeTmp faults location envelope).after disk).lookup location.tmpPath =
      some (.file envelope) := by
  rcases writeTmp_cases faults location envelope disk with ⟨-, hraises⟩ | ⟨hcreate, hwhole⟩
  · exact absurd hreturns hraises
  · rw [tmpPath, lookup_create hcreate, if_pos rfl, hwhole hreturns, getD_none, take_length]

theorem replaceTmp_returns {envelope : Bytes}
    (htmp : disk.lookup location.tmpPath = some (.file envelope))
    (hreturns : (replaceTmp faults location).outcome disk = .ok ⟨⟩) :
    location.Named ∧ ((replaceTmp faults location).after disk).lookup location.path =
      some (.file envelope) := by
  rcases replaceTmp_cases faults location disk with ⟨-, hraises⟩ | ⟨hnamed, hreplace, -⟩
  · cases hreturns.symm.trans hraises
  · refine ⟨hnamed, ?_⟩
    rw [lookup_replace htmp hreplace, path, if_pos hnamed, if_pos rfl]

/-- The three steps of a write. -/
theorem write_eq {host : Host} {key : String} (haccepts : host.AcceptsKey key) (faults : Faults)
    (data : Bytes) : write host faults key data = (do
      tryCatch
        (do
          makedirs faults [] (ofKey key).directory
          writeTmp faults (.ofKey key) (host.envelope data)
          replaceTmp faults (.ofKey key))
        fun _ ↦ do
          removeTmp faults (.ofKey key)
          throw (.writeFailed key)
      pure "committed") := by
  unfold write locate
  rw [if_pos haccepts, pure_bind]

theorem write_returns {host : Host} {key : String} {data : Bytes} {result : String}
    (hreturns : (write host faults key data).outcome disk = .ok result) :
    host.AcceptsKey key ∧ (ofKey key).Named ∧
      ((write host faults key data).after disk).lookup (ofKey key).path =
        some (.file (host.envelope data)) := by
  have haccepts : host.AcceptsKey key := by
    by_contra hrefused
    unfold write locate at hreturns
    rw [if_neg hrefused] at hreturns
    cases hreturns
  refine ⟨haccepts, ?_⟩
  rw [write_eq haccepts] at hreturns ⊢
  obtain ⟨⟨⟩, hcaught, -, hafter⟩ := bind_returns hreturns
  rw [hafter, after_pure, after_tryCatch]
  rw [outcome_tryCatch] at hcaught
  cases hswap : Call.outcome (do
      makedirs faults [] (ofKey key).directory
      writeTmp faults (.ofKey key) (host.envelope data)
      replaceTmp faults (.ofKey key)) disk with
  | error error =>
    rw [hswap] at hcaught
    obtain ⟨_, -, hthrown, -⟩ := bind_returns hcaught
    cases hthrown
  | ok swapped =>
    obtain ⟨⟨⟩, -, hrest, hmade⟩ := bind_returns hswap
    obtain ⟨⟨⟩, hwritten, hreplaced, hmoved⟩ := bind_returns hrest
    rw [hmade, hmoved]
    exact replaceTmp_returns (writeTmp_returns hwritten) hreplaced

end Steps

/-- The call leaves a path as it is. -/
def Spares (path : List String) (disk next : Disk) : Prop := next.lookup path = disk.lookup path

instance (path : List String) : Std.Refl (Spares path) := ⟨fun _ ↦ rfl⟩

instance (path : List String) : IsTrans Disk (Spares path) :=
  ⟨fun _ _ _ hfirst hsecond ↦ hsecond.trans hfirst⟩

section Raises

variable {location : Location} {path : List String}

theorem spares_makedirs (faults : Faults) (hpath : ¬ path <+: location.directory) :
    Call.Within (Spares path) (makedirs faults [] location.directory) := by
  intro disk
  rcases makes_makedirs faults location.directory [] _ prefix_rfl disk path with
    hsame | ⟨-, hextends, -⟩
  · exact hsame
  · exact absurd hextends hpath

theorem spares_writeTmp (faults : Faults) (envelope : Bytes) (hpath : path ≠ location.tmpPath) :
    Call.Within (Spares path) (writeTmp faults location envelope) := by
  intro disk
  rcases writeTmp_cases faults location envelope disk with ⟨hsame, -⟩ | ⟨hcreate, -⟩
  · rw [hsame]
    rfl
  · exact (lookup_create hcreate path).trans (if_neg hpath)

theorem spares_removeTmp (faults : Faults) (hpath : path ≠ location.tmpPath) :
    Call.Within (Spares path) (removeTmp faults location) := by
  intro disk
  rcases removeTmp_cases faults location disk with hsame | hremove
  · rw [hsame]
    rfl
  · exact (lookup_remove hremove path).trans (if_neg hpath)

theorem replaceTmp_raises {faults : Faults} {disk : Disk} {error : StorageError}
    (hraises : (replaceTmp faults location).outcome disk = .error error) :
    (replaceTmp faults location).after disk = disk := by
  rcases replaceTmp_cases faults location disk with ⟨hsame, -⟩ | ⟨-, -, hreturns⟩
  · exact hsame
  · cases hraises.symm.trans hreturns

theorem target_ne_tmpPath (hnamed : location.Named) : location.path ≠ location.tmpPath := by
  rw [path, if_pos hnamed, tmpPath]
  intro heq
  have hlast := (append_cancel_left heq)
  have hlength := congrArg (fun names ↦ (names.getLastD "").toList.length) hlast
  simp [tmpName, tmpSuffix] at hlength

theorem write_raises {host : Host} {faults : Faults} {key : String} {data : Bytes} {disk : Disk}
    {error : StorageError} (hnamed : (ofKey key).Named)
    (hraises : (write host faults key data).outcome disk = .error error) :
    ((write host faults key data).after disk).lookup (ofKey key).path =
      disk.lookup (ofKey key).path := by
  by_cases haccepts : host.AcceptsKey key
  · have hmade := spares_makedirs faults (Frame.target_not_extended hnamed)
    have hwritten := spares_writeTmp faults (host.envelope data) (target_ne_tmpPath hnamed)
    have hremoved := spares_removeTmp faults (target_ne_tmpPath hnamed)
    rw [write_eq haccepts] at hraises ⊢
    rw [after_bind_pure, after_tryCatch]
    rw [outcome_bind, outcome_tryCatch] at hraises
    cases hswap : Call.outcome (do
        makedirs faults [] (ofKey key).directory
        writeTmp faults (.ofKey key) (host.envelope data)
        replaceTmp faults (.ofKey key)) disk with
    | ok result =>
      rw [hswap] at hraises
      cases hraises
    | error raised =>
      rw [after_bind_throw]
      refine (hremoved _).trans ?_
      rw [outcome_bind] at hswap
      rw [after_bind]
      cases hfirst : (makedirs faults [] (ofKey key).directory).outcome disk with
      | error first => exact hmade disk
      | ok made =>
        rw [hfirst] at hswap
        rw [outcome_bind] at hswap
        rw [after_bind]
        cases hsecond : (writeTmp faults (.ofKey key) (host.envelope data)).outcome
            ((makedirs faults [] (ofKey key).directory).after disk) with
        | error second => exact (hwritten _).trans (hmade disk)
        | ok written =>
          rw [hsecond] at hswap
          rw [replaceTmp_raises hswap]
          exact (hwritten _).trans (hmade disk)
  · unfold write locate
    rw [if_neg haccepts]
    rfl

end Raises

theorem verify_envelope (host : Host) (key : String) (data : Bytes) :
    host.verify key (host.envelope data) = .ok data := by
  have hall : ∀ byte ∈ host.hexdigest data, decide (byte ≠ newline) = true := by
    intro byte hbyte
    apply decide_eq_true
    rintro rfl
    exact host.noNewline data hbyte
  have hdigest : (host.envelope data).takeWhile (· ≠ newline) = host.hexdigest data := by
    unfold Host.envelope
    rw [takeWhile_append_of_pos hall]
    simp
  have hbody : ((host.envelope data).dropWhile (· ≠ newline)).tail = data := by
    unfold Host.envelope
    rw [dropWhile_append_of_pos hall]
    simp
  unfold Host.verify
  simp only [hdigest, hbody]
  rw [if_neg (not_not_intro rfl)]

end AbsoluteZero.Storage

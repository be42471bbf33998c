import AbsoluteZero.Storage.JournalLaw

/-!
# Journals as lists of records

What a component sees of its journals: under each name a list of records that grows at its end
(`JournalBook`). The files of a handle keep the book of the appends that returned
(`Kept.read_book`).
-/

namespace AbsoluteZero.Storage

open Foundations List

/-! ### The book -/

structure JournalBook (Record : Type) where
  journals : OrderedDict String (List Record)

namespace JournalBook

variable {Record : Type}

def empty : JournalBook Record := ⟨.empty⟩

variable (book : JournalBook Record)

def records (name : String) : List Record :=
  (book.journals.get? name).getD []

def append (name : String) (record : Record) : JournalBook Record :=
  ⟨book.journals.insert name (book.records name ++ [record])⟩

theorem records_append (name other : String) (record : Record) :
    (book.append name record).records other =
      book.records other ++ if name = other then [record] else [] := by
  unfold append records
  rw [OrderedDict.get?_insert]
  by_cases hname : name = other
  · rw [if_pos hname, if_pos hname, hname]
    rfl
  · rw [if_neg hname, if_neg hname, append_nil]

/-- More records, in their order. -/
def extend (name : String) (records : List Record) :
    JournalBook Record :=
  records.foldl (fun book record ↦ book.append name record) book

theorem records_extend (name other : String) (records : List Record) :
    (book.extend name records).records other =
      book.records other ++ if name = other then records else [] := by
  unfold extend
  induction records generalizing book with
  | nil =>
    rw [ite_self, append_nil]
    rfl
  | cons record rest ih =>
    rw [foldl_cons, ih, records_append, append_assoc]
    by_cases hname : name = other
    · rw [if_pos hname, if_pos hname, if_pos hname]
      rfl
    · rw [if_neg hname, if_neg hname, if_neg hname]
      rfl

theorem extend_append (name : String) (first second : List Record) :
    book.extend name (first ++ second) = (book.extend name first).extend name second :=
  foldl_append

/-- The book that records make, in their order. -/
def ofRecords (records : List (String × Record)) : JournalBook Record :=
  records.foldl (fun book record ↦ book.append record.1 record.2) .empty

theorem ofRecords_concat (records : List (String × Record)) (name : String) (record : Record) :
    ofRecords (records ++ [(name, record)]) = (ofRecords records).append name record :=
  foldl_concat _ _ _ _

end JournalBook

/-! ### The files of a handle -/

/-- What an operation appends to which journal. -/
def JournalOperation.record? : JournalOperation → Option (String × Bytes)
  | .append _ name data => some (name, data)
  | .reopen _ | .checkpoint _ _ _ _ => none

def JournalEvent.record? : JournalEvent → Option (String × Bytes)
  | .appended name _ data => some (name, data)
  | .checkpointed _ _ _ => none

namespace Archive

/-- The records of the appends that returned. -/
def taken (archive : Archive) : List (String × Bytes) :=
  archive.events.filterMap (·.record?)

theorem records_taken (archive : Archive) (name : String) :
    (JournalBook.ofRecords archive.taken).records name = (archive.appended name).map Prod.snd := by
  unfold taken appended
  induction archive.events using reverseRecOn with
  | nil => rfl
  | append_singleton events event ih =>
    rw [filterMap_append, filterMap_append, map_append, ← ih]
    cases event with
    | checkpointed => simp [JournalEvent.record?]
    | appended other seq data =>
      show (JournalBook.ofRecords (_ ++ [(other, data)])).records name = _
      rw [JournalBook.ofRecords_concat, JournalBook.records_append]
      by_cases hname : other = name <;> simp [hname]

theorem taken_perform (host : Host) (handle : String) (archive : Archive)
    (operation : JournalOperation) :
    (archive.perform host handle operation).taken <+
      archive.taken ++ operation.record?.toList := by
  unfold perform call
  cases operation with
  | reopen name =>
    simp only
    split <;> exact sublist_append_left _ _
  | append faults name data | checkpoint faults name seq data =>
    simp only
    split
    · exact sublist_append_left _ _
    · split
      · unfold taken
        rw [filterMap_append]
        exact .refl _
      · exact sublist_append_left _ _

theorem taken_run (host : Host) (handle : String) (operations : List JournalOperation)
    (archive : Archive) : (archive.run host handle operations).taken <+
      archive.taken ++ operations.filterMap (·.record?) := by
  induction operations generalizing archive with
  | nil => exact sublist_append_left _ _
  | cons operation rest ih =>
    have hfirst := (taken_perform host handle archive operation).append_right
      (rest.filterMap (·.record?))
    rw [append_assoc] at hfirst
    refine (ih _).trans ?_
    rw [filterMap_cons]
    cases operation <;> exact hfirst

theorem Kept.read_book {host : Host} {handle : String} {used : List String} {archive : Archive}
    (hkept : Kept host handle used archive) (hhandle : host.AcceptsName handle)
    (hdot : handle ≠ ".") {name : String} (hname : name ∈ used) (hplain : Plain host name) : (do
      let journal ← Journal.open host handle name
      journal.entries host handle 0).outcome archive.disk =
        .ok ((JournalBook.ofRecords archive.taken).records name) := by
  rw [Call.outcome_bind, hkept.outcome_open hhandle hdot hname hplain, after_open]
  simp only
  rw [hkept.outcome_entries hhandle hdot hname hplain, drop_zero, records_taken]

/-- Assumes: nothing is stored below the two directories of the handle, the handle is not named `.`,
and the names are separate. In every run the appends that returned are some of those that were
called, and they make the book that is read back by opening the journals again. -/
theorem run_refines (host : Host) {handle : String} (hhandle : host.AcceptsName handle)
    (hdot : handle ≠ ".") {disk : Disk} (hvacant : Vacant handle disk)
    (operations : List JournalOperation) (hseparate : Separate (operations.map (·.name))) :
    ((start disk).run host handle operations).taken <+ operations.filterMap (·.record?) ∧
      ∀ name ∈ operations.map (·.name), Plain host name → (do
        let journal ← Journal.open host handle name
        journal.entries host handle 0).outcome ((start disk).run host handle operations).disk =
          .ok ((JournalBook.ofRecords ((start disk).run host handle operations).taken).records
            name) :=
  ⟨taken_run host handle operations (start disk), fun _ hname hplain ↦
    ((kept_start hvacant _).run hseparate hhandle hdot operations fun _ hmem ↦
      mem_map_of_mem hmem).read_book hhandle hdot hname hplain⟩

/-- Of three appends one is refused by the file system. -/
theorem run_refines_sample : (do
      let journal ← Journal.open sampleHost "rsm" "r1"
      journal.entries sampleHost "rsm" 0).outcome ((start .empty).run sampleHost "rsm"
        [.reopen "r1", .reopen "r2", .append .none "r1" [1], .append .unmovable "r2" [2],
          .reopen "r1", .append .none "r1" [3]]).disk = .ok [[1], [3]] :=
  ((run_refines sampleHost (by decide) (by decide) (vacant_empty "rsm") _ (by decide)).2 "r1"
    (by decide) ⟨by decide, by decide, by decide⟩).trans (by decide +kernel)

end Archive

end AbsoluteZero.Storage

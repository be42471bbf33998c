import AbsoluteZero.Foundations.Call
import AbsoluteZero.Foundations.FileTree
import AbsoluteZero.Foundations.PythonValue
import AbsoluteZero.Foundations.SortedSet
import AbsoluteZero.Foundations.Text
import Mathlib.Data.List.Infix

/-!
# The store

`Store` and `NamespaceHandle` over a directory. A write makes the directories above, writes a
temporary file beside the target, moves it over the target, and removes it when something raised. A
read checks the digest before the bytes.

What the operating system raises by itself is an arbitrary function of the call (`Faults`). The
store has no bus here: its events touch no file.
-/

namespace AbsoluteZero.Storage

open Foundations

abbrev Bytes := List UInt8

/-- `b"\n"`. -/
def newline : UInt8 := 10

/-- `str.isalnum` of a character, which the letters and digits of ASCII are, and
`hashlib.sha256(...).hexdigest()`, which has no newline. -/
structure Host where
  isalnum : Char → Bool
  ascii : ∀ character : Char, character.isAlphanum = true → isalnum character = true
  hexdigest : Bytes → Bytes
  noNewline : ∀ data, newline ∉ hexdigest data

/-- What the operating system raises during a call: when it makes a directory, opens the temporary
file, has written some of its bytes, moves it, or removes it. -/
structure Faults where
  mkdir : List String → Bool
  opening : Bool
  writing : Option Nat
  replacing : Bool
  removing : Bool

/-- Nothing is raised. -/
def Faults.none : Faults := ⟨fun _ ↦ false, false, .none, false, false⟩

/-- The directory of a store. -/
abbrev Disk := FileTree String Bytes

/-- What a call raises. -/
inductive StorageError
  | badKey (text : String)
  | keyExists (text : String)
  | missingKey (text : String)
  | corruption (text : String)
  | writeFailed (key : String)
  | operatingSystem
  deriving DecidableEq

abbrev StoreCall := Call Disk StorageError

def lockName : String := ".storage.lock"

def tmpSuffix : String := ".tmp"

/-! ### Keys and paths -/

/-- What `_check_key` lets through: a text that is not empty, does not start with a slash, and has
no two dots in a row, no backslash and no character but alphanumeric ones, slashes, dots,
underscores and hyphens. -/
def Host.AcceptsKey (host : Host) (key : String) : Prop :=
  key ≠ "" ∧ key.toList.head? ≠ some '/' ∧ ¬ ['.', '.'] <:+: key.toList ∧ '\\' ∉ key.toList ∧
    ∀ character ∈ key.toList,
      host.isalnum character ∨ character ∈ ['/', '.', '_', '-']

instance (host : Host) (key : String) : Decidable (host.AcceptsKey key) :=
  inferInstanceAs (Decidable (_ ∧ _ ∧ _ ∧ _ ∧ _))

/-- `key.split("/")`. -/
def components (key : String) : List String := (key.toList.splitOn '/').map String.ofList

/-- The path of a key: the directory that `os.path.dirname` names, and what follows the last slash.
-/
structure Location where
  directory : List String
  last : String
  deriving DecidableEq

/-- The components of a path that name something. -/
def names (parts : List String) : List String := parts.filter fun part ↦ part ≠ "" ∧ part ≠ "."

/-- `os.path.join(self.dir, *key.split("/"))`. -/
def Location.ofKey (key : String) : Location where
  directory := names (components key).dropLast
  last := (components key).getLastD ""

namespace Location

variable (location : Location)

/-- The path does not end in a slash or a dot. -/
def Named : Prop := location.last ≠ "" ∧ location.last ≠ "."

instance : Decidable location.Named := inferInstanceAs (Decidable (_ ∧ _))

/-- The path of the target, normalised. -/
def path : List String :=
  if location.Named then location.directory ++ [location.last] else location.directory

/-- The name of the temporary file, `path + _TMP_SUFFIX`, in the directory. -/
def tmpName : String := location.last ++ tmpSuffix

/-- The path of the temporary file. -/
def tmpPath : List String := location.directory ++ [location.tmpName]

/-- What is at the path. One that ends in a slash or a dot is the path of a directory only. -/
def stat (disk : Disk) : Option (Node Bytes) :=
  if location.Named then disk.lookup (location.directory ++ [location.last])
  else if disk.lookup location.directory = some .directory then some .directory
  else none

end Location

/-- `_path`. -/
def locate (host : Host) (key : String) : StoreCall Location :=
  if host.AcceptsKey key then pure (.ofKey key)
  else throw (.badKey ("storage.bad_key:" ++ Json.quoted key))

/-- `os.makedirs(..., exist_ok=True)`, below directories that are there. -/
def makedirs (faults : Faults) : (above names : List String) → StoreCall Unit
  | _, [] => pure ()
  | above, name :: rest => do
    let disk ← get
    match disk.lookup (above ++ [name]) with
    | some .directory => makedirs faults (above ++ [name]) rest
    | some (.file _) => throw .operatingSystem
    | none =>
      match if faults.mkdir (above ++ [name]) then none else disk.mkdir above name with
      | none => throw .operatingSystem
      | some next => do
        set next
        makedirs faults (above ++ [name]) rest

variable (faults : Faults) (location : Location)

/-- `os.open(tmp, ...)` and `os.write`. -/
def writeTmp (envelope : Bytes) : StoreCall Unit := do
  let disk ← get
  match if faults.opening then none
    else disk.create location.directory location.tmpName
      (envelope.take (faults.writing.getD envelope.length)) with
  | none => throw .operatingSystem
  | some next => do
    set next
    if faults.writing.isSome then throw .operatingSystem

/-- `os.replace(tmp, path)`. -/
def replaceTmp : StoreCall Unit := do
  let disk ← get
  match if faults.replacing ∨ ¬ location.Named then none
    else disk.replace location.directory location.tmpName location.directory location.last with
  | none => throw .operatingSystem
  | some next => set next

/-- The handler of a failed write. -/
def removeTmp : StoreCall Unit := do
  let disk ← get
  if (disk.lookup location.tmpPath).isSome then
    match if faults.removing then none else disk.remove location.directory location.tmpName with
    | none => throw .operatingSystem
    | some next => set next

/-- `digest + b"\n" + data`. -/
def Host.envelope (host : Host) (data : Bytes) : Bytes := host.hexdigest data ++ newline :: data

/-- `write`, with its result. -/
def write (host : Host) (faults : Faults) (key : String) (data : Bytes) : StoreCall String := do
  let location ← locate host key
  tryCatch (do
      makedirs faults [] location.directory
      writeTmp faults location (host.envelope data)
      replaceTmp faults location)
    fun _ ↦ do
      removeTmp faults location
      throw (.writeFailed key)
  pure "committed"

/-! ### Reads -/

/-- `exists`. -/
def existsKey (host : Host) (key : String) : StoreCall Bool := do
  let location ← locate host key
  let disk ← get
  pure (location.stat disk).isSome

def writeOnce (host : Host) (faults : Faults) (key : String) (data : Bytes) : StoreCall String := do
  if ← existsKey host key then throw (.keyExists ("storage.key_exists:" ++ key))
  else write host faults key data

/-- The part of `read` after the file is read: `blob.partition(b"\n")`, and the check. -/
def Host.verify (host : Host) (key : String) (blob : Bytes) : Except StorageError Bytes :=
  let digest := blob.takeWhile (· ≠ newline)
  let body := (blob.dropWhile (· ≠ newline)).tail
  if host.hexdigest body ≠ digest then .error (.corruption ("storage.corrupt:" ++ key))
  else .ok body

def read (host : Host) (key : String) : StoreCall Bytes := do
  let location ← locate host key
  let disk ← get
  match location.stat disk with
  | none => throw (.missingKey ("storage.missing_key:" ++ key))
  | some .directory => throw .operatingSystem
  | some (.file blob) =>
    match host.verify key blob with
    | .ok body => pure body
    | .error error => throw error

/-- A file that `keys` lists. -/
def Listed (path : List String) : Prop :=
  ¬ tmpSuffix.toList <:+ (path.getLastD "").toList ∧ path.getLastD "" ≠ lockName

instance (path : List String) : Decidable (Listed path) := inferInstanceAs (Decidable (_ ∧ _))

def Location.walk (location : Location) (disk : Disk) : List (List String) :=
  if location.stat disk = some .directory then
    (disk.files.map Prod.fst).filter fun path ↦ location.path <+: path ∧ Listed path
  else []

def keys (host : Host) (key : String) : StoreCall (List String) := do
  let location ← locate host key
  let disk ← get
  pure (sortedBy id ((location.walk disk).map ("/".intercalate ·)))

/-- What the constructor of `NamespaceHandle` accepts. -/
def Host.AcceptsName (host : Host) (name : String) : Prop :=
  host.AcceptsKey name ∧ '/' ∉ name.toList

instance (host : Host) (name : String) : Decidable (host.AcceptsName name) :=
  inferInstanceAs (Decidable (_ ∧ _))

/-- What `_guard` lets through. -/
def Host.Guards (host : Host) (name key : String) : Prop :=
  host.AcceptsKey key ∧ (name ++ "/").toList <+: key.toList

instance (host : Host) (name key : String) : Decidable (host.Guards name key) :=
  inferInstanceAs (Decidable (_ ∧ _))

/-- A call of the store with a key that the handle lets through. -/
def guarded {Result : Type} (host : Host) (name key : String) (call : StoreCall Result) :
    StoreCall Result :=
  if ¬ host.AcceptsKey key then throw (.badKey ("storage.bad_key:" ++ Json.quoted key))
  else if ¬ (name ++ "/").toList <+: key.toList then
    throw (.badKey ("storage.namespace_violation:" ++ name ++ ":" ++ key))
  else call

/-- `NamespaceHandle.keys`. -/
def handleKeys (host : Host) (name : String) (key : Option String) : StoreCall (List String) :=
  match key with
  | none | some "" => keys host name
  | some key => guarded host name key (keys host key)

end AbsoluteZero.Storage

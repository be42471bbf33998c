import AbsoluteZero.Foundations.OrderedDict
import Mathlib.Data.List.Induction

/-!
# Directory trees

A tree has a directory or a file at some of its paths, and whatever it has lies in a directory
(`FileTree.parent_eq`). Each operation refuses what a file system refuses, and `lookup_mkdir`,
`lookup_create`, `lookup_remove` and `lookup_replace` say what is at every path afterwards.
-/

namespace AbsoluteZero.Foundations

/-- What is at a path. -/
inductive Node (Content : Type)
  | directory
  | file (content : Content)
  deriving DecidableEq

instance {Content : Type} (found : Option (Node Content)) : Decidable (found = some .directory) :=
  match found with
  | none => isFalse nofun
  | some .directory => isTrue rfl
  | some (.file _) => isFalse nofun

section Nodes

variable {Name Content : Type} [DecidableEq Name]

/-- What some nodes have at a path. The root is a directory that is always there. -/
def nodeAt (nodes : OrderedDict (List Name) (Node Content)) (path : List Name) :
    Option (Node Content) :=
  if path = [] then some .directory else nodes.get? path

omit [DecidableEq Name] in
theorem child_ne_root (parent : List Name) (name : Name) : parent ++ [name] ≠ [] :=
  List.append_ne_nil_of_right_ne_nil _ (List.cons_ne_nil _ _)

section

variable (nodes : OrderedDict (List Name) (Node Content))

theorem nodeAt_insert (parent : List Name) (name : Name) (node : Node Content) (path : List Name) :
    nodeAt (nodes.insert (parent ++ [name]) node) path =
      if path = parent ++ [name] then some node else nodeAt nodes path := by
  unfold nodeAt
  by_cases hroot : path = []
  · subst hroot
    rw [if_pos rfl, if_neg (child_ne_root parent name).symm, if_pos rfl]
  · rw [if_neg hroot, if_neg hroot, OrderedDict.get?_insert]
    by_cases hpath : path = parent ++ [name]
    · rw [if_pos hpath, if_pos hpath.symm]
    · rw [if_neg hpath, if_neg (Ne.symm hpath)]

theorem nodeAt_erase (parent : List Name)
    (name : Name) (path : List Name) : nodeAt (nodes.erase (parent ++ [name])) path =
      if path = parent ++ [name] then none else nodeAt nodes path := by
  unfold nodeAt
  by_cases hroot : path = []
  · subst hroot
    rw [if_pos rfl, if_neg (child_ne_root parent name).symm, if_pos rfl]
  · rw [if_neg hroot, if_neg hroot, OrderedDict.get?_erase]
    by_cases hpath : path = parent ++ [name]
    · rw [if_pos hpath, if_pos hpath.symm]
    · rw [if_neg hpath, if_neg (Ne.symm hpath)]

end

end Nodes

/-- A directory tree: what is at each path below the root, all of it in directories. -/
structure FileTree (Name Content : Type) [DecidableEq Name] where
  nodes : OrderedDict (List Name) (Node Content)
  rootless : nodes.get? [] = none
  closed : ∀ parent name, (nodeAt nodes (parent ++ [name])).isSome →
    nodeAt nodes parent = some .directory

namespace FileTree

variable {Name Content : Type} [DecidableEq Name]

def lookup (tree : FileTree Name Content) (path : List Name) : Option (Node Content) :=
  nodeAt tree.nodes path

def empty : FileTree Name Content where
  nodes := .empty
  rootless := rfl
  closed := by
    intro parent name hsome
    have hnone : nodeAt (.empty : OrderedDict _ (Node Content)) (parent ++ [name]) = none :=
      if_neg (child_ne_root parent name)
    rw [hnone] at hsome
    cases hsome

variable {tree next : FileTree Name Content} {parent path : List Name} {name : Name}
  {content : Content}

@[simp] theorem lookup_root (tree : FileTree Name Content) : tree.lookup [] = some .directory := by
  unfold lookup nodeAt
  rw [if_pos rfl]

theorem parent_eq (hsome : (tree.lookup (parent ++ [name])).isSome) :
    tree.lookup parent = some .directory :=
  tree.closed parent name hsome

theorem lookup_above {below : List Name} (hbelow : below ≠ [])
    (hsome : (tree.lookup (parent ++ below)).isSome) : tree.lookup parent = some .directory := by
  induction below using List.reverseRecOn with
  | nil => exact absurd rfl hbelow
  | append_singleton rest last ih =>
    rw [← List.append_assoc] at hsome
    have hrest := tree.parent_eq hsome
    by_cases hempty : rest = []
    · rw [hempty, List.append_nil] at hrest
      exact hrest
    · exact ih hempty (by rw [hrest]; rfl)

theorem lookup_below {below : List Name} (hbelow : below ≠ [])
    (hparent : tree.lookup parent ≠ some .directory) : tree.lookup (parent ++ below) = none := by
  by_contra hsome
  exact hparent (lookup_above hbelow (Option.isSome_iff_ne_none.mpr hsome))

/-- The tree with a node put in a directory, where nothing lies below unless it is a directory. -/
def put (tree : FileTree Name Content) (parent : List Name) (name : Name) (node : Node Content)
    (hparent : tree.lookup parent = some .directory)
    (hleaf : node = .directory ∨ ∀ below, tree.lookup (parent ++ [name] ++ [below]) = none) :
    FileTree Name Content where
  nodes := tree.nodes.insert (parent ++ [name]) node
  rootless := by
    rw [OrderedDict.get?_insert, if_neg (child_ne_root parent name)]
    exact tree.rootless
  closed := by
    intro above child hsome
    rw [nodeAt_insert] at hsome ⊢
    by_cases hchild : above ++ [child] = parent ++ [name]
    · obtain rfl : above = parent := (List.append_inj' hchild rfl).1
      rw [if_neg fun heq ↦ absurd (congrArg List.length heq) (by simp)]
      exact hparent
    · rw [if_neg hchild] at hsome
      by_cases habove : above = parent ++ [name]
      · rw [if_pos habove]
        rcases hleaf with hdirectory | hnothing
        · rw [hdirectory]
        · rw [habove] at hsome
          have hnone := hnothing child
          unfold lookup at hnone
          rw [hnone] at hsome
          cases hsome
      · rw [if_neg habove]
        exact tree.closed above child hsome

/-- Make a directory in a directory, where there is nothing yet. -/
def mkdir (tree : FileTree Name Content) (parent : List Name) (name : Name) :
    Option (FileTree Name Content) :=
  if hparent : tree.lookup parent = some .directory then
    if tree.lookup (parent ++ [name]) = none then
      some (tree.put parent name .directory hparent (.inl rfl))
    else none
  else none

def create (tree : FileTree Name Content) (parent : List Name) (name : Name) (content : Content) :
    Option (FileTree Name Content) :=
  if hparent : tree.lookup parent = some .directory then
    if htarget : tree.lookup (parent ++ [name]) = some .directory then none
    else some (tree.put parent name (.file content) hparent
      (.inr fun _ ↦ lookup_below (List.cons_ne_nil _ _) htarget))
  else none

def remove (tree : FileTree Name Content) (parent : List Name) (name : Name) :
    Option (FileTree Name Content) :=
  match hfile : tree.lookup (parent ++ [name]) with
  | some (.file _) => some {
      nodes := tree.nodes.erase (parent ++ [name])
      rootless := by
        rw [OrderedDict.get?_erase, if_neg (child_ne_root parent name)]
        exact tree.rootless
      closed := by
        intro above child hsome
        rw [nodeAt_erase] at hsome ⊢
        by_cases hchild : above ++ [child] = parent ++ [name]
        · rw [if_pos hchild] at hsome
          cases hsome
        · rw [if_neg hchild] at hsome
          have habove : tree.lookup above = some .directory := tree.closed above child hsome
          rw [if_neg fun hremoved ↦ by
            rw [hremoved, hfile] at habove
            cases habove]
          exact habove }
  | some .directory | none => none

/-- Move a file to a place in a directory, over the file that is there. -/
def replace (tree : FileTree Name Content) (parent : List Name) (name : Name)
    (targetParent : List Name) (target : Name) : Option (FileTree Name Content) :=
  match tree.lookup (parent ++ [name]) with
  | some (.file content) =>
    (tree.remove parent name).bind fun removed ↦ removed.create targetParent target content
  | some .directory | none => none

def files (tree : FileTree Name Content) : List (List Name × Content) :=
  tree.nodes.items.filterMap fun item ↦
    match item.2 with
    | .directory => none
    | .file content => some (item.1, content)

/-! ### What the operations do -/

theorem lookup_mkdir (hmkdir : tree.mkdir parent name = some next) (path : List Name) :
    next.lookup path = if path = parent ++ [name] then some .directory else tree.lookup path := by
  unfold mkdir at hmkdir
  split at hmkdir
  · next hparent =>
    split at hmkdir
    · cases hmkdir
      exact nodeAt_insert _ parent name _ path
    · cases hmkdir
  · cases hmkdir

theorem mkdir_eq_none_iff : tree.mkdir parent name = none ↔
    tree.lookup parent ≠ some .directory ∨ (tree.lookup (parent ++ [name])).isSome := by
  unfold mkdir
  by_cases hparent : tree.lookup parent = some .directory
  · by_cases htarget : tree.lookup (parent ++ [name]) = none
    · simp [hparent, htarget]
    · simp [hparent, htarget, Option.isSome_iff_ne_none]
  · simp [hparent]

theorem lookup_create (hcreate : tree.create parent name content = some next)
    (path : List Name) : next.lookup path =
      if path = parent ++ [name] then some (.file content) else tree.lookup path := by
  unfold create at hcreate
  split at hcreate
  · next hparent =>
    split at hcreate
    · cases hcreate
    · cases hcreate
      exact nodeAt_insert _ parent name _ path
  · cases hcreate

theorem create_eq_none_iff : tree.create parent name content = none ↔
    tree.lookup parent ≠ some .directory ∨ tree.lookup (parent ++ [name]) = some .directory := by
  unfold create
  by_cases hparent : tree.lookup parent = some .directory
  · by_cases htarget : tree.lookup (parent ++ [name]) = some .directory
    · simp [hparent, htarget]
    · simp [hparent, htarget]
  · simp [hparent]

theorem lookup_remove (hremove : tree.remove parent name = some next) (path : List Name) :
    next.lookup path = if path = parent ++ [name] then none else tree.lookup path := by
  unfold remove at hremove
  split at hremove
  · cases hremove
    exact nodeAt_erase _ parent name path
  · cases hremove
  · cases hremove

theorem remove_eq_none_iff : tree.remove parent name = none ↔
    ∀ content, tree.lookup (parent ++ [name]) ≠ some (.file content) := by
  unfold remove
  split
  · next hfile => simp [hfile]
  · next hdirectory => simp [hdirectory]
  · next hmissing => simp [hmissing]

variable {targetParent : List Name} {target : Name}

/-- Assumes: the source is a file. It is at the target afterwards and no longer at its old place. -/
theorem lookup_replace (hsource : tree.lookup (parent ++ [name]) = some (.file content))
    (hreplace : tree.replace parent name targetParent target = some next) (path : List Name) :
    next.lookup path = if path = targetParent ++ [target] then some (.file content)
      else if path = parent ++ [name] then none else tree.lookup path := by
  unfold replace at hreplace
  rw [hsource] at hreplace
  obtain ⟨removed, hremoved, hcreate⟩ := Option.bind_eq_some_iff.mp hreplace
  rw [lookup_create hcreate, lookup_remove hremoved]

/-- Only a file is moved. -/
theorem source_of_replace (hreplace : tree.replace parent name targetParent target = some next) :
    ∃ content, tree.lookup (parent ++ [name]) = some (.file content) := by
  unfold replace at hreplace
  split at hreplace
  · next content hfile => exact ⟨content, hfile⟩
  · cases hreplace
  · cases hreplace

theorem replace_eq_none_iff (hsource : tree.lookup (parent ++ [name]) = some (.file content)) :
    tree.replace parent name targetParent target = none ↔
      tree.lookup targetParent ≠ some .directory ∨
        tree.lookup (targetParent ++ [target]) = some .directory := by
  have hkeeps : ∀ path removed, tree.remove parent name = some removed →
      (removed.lookup path = some .directory ↔ tree.lookup path = some .directory) := by
    intro path removed hremoved
    rw [lookup_remove hremoved]
    by_cases hpath : path = parent ++ [name]
    · rw [if_pos hpath, hpath, hsource]
      simp
    · rw [if_neg hpath]
  unfold replace
  rw [hsource]
  cases hremoved : tree.remove parent name with
  | none => exact absurd hsource (remove_eq_none_iff.mp hremoved content)
  | some removed =>
    show removed.create targetParent target content = none ↔ _
    rw [create_eq_none_iff, Ne, hkeeps _ _ hremoved, hkeeps _ _ hremoved]

theorem mem_files_iff : (path, content) ∈ tree.files ↔ tree.lookup path = some (.file content) := by
  have hitem : tree.lookup path = some (.file content) ↔
      (path, .file content) ∈ tree.nodes.items := by
    unfold lookup nodeAt
    by_cases hroot : path = []
    · subst hroot
      rw [if_pos rfl]
      refine iff_of_false nofun fun hmem ↦ ?_
      have hget := (OrderedDict.get?_eq_some_iff tree.nodes).mpr hmem
      rw [tree.rootless] at hget
      cases hget
    · rw [if_neg hroot]
      exact OrderedDict.get?_eq_some_iff _
  rw [hitem]
  unfold files
  rw [List.mem_filterMap]
  constructor
  · rintro ⟨⟨place, node⟩, hmem, hfile⟩
    cases node with
    | directory => cases hfile
    | file body =>
      cases hfile
      exact hmem
  · exact fun hmem ↦ ⟨_, hmem, rfl⟩

theorem nodup_files (tree : FileTree Name Content) : (tree.files.map Prod.fst).Nodup := by
  have hsublist : ∀ items : List (List Name × Node Content),
      ((items.filterMap fun item ↦
        match item.2 with
        | .directory => none
        | .file content => some (item.1, content)).map Prod.fst).Sublist
          (items.map Prod.fst) := by
    intro items
    induction items with
    | nil => exact List.Sublist.slnil
    | cons item rest ih =>
      obtain ⟨place, node⟩ := item
      cases node with
      | directory => exact ih.cons _
      | file body => exact ih.cons_cons _
  exact (hsublist tree.nodes.items).nodup tree.nodes.nodup

end FileTree

end AbsoluteZero.Foundations

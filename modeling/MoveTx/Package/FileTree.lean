import MoveTx.Bytes

/-!
# Files and folders

A file tree is a file or a folder with entries in the order in which they are listed. A disk is a tree
and the path at which its root stands, so that places in it have full paths.
-/

namespace MoveTx

inductive FileTree
  | file (content : Bytes)
  | folder (entries : List (String × FileTree))

namespace FileTree

def isFolder : FileTree → Bool
  | folder _ => true
  | file _ => false

/-- The entry of a name, the first one listed. -/
def entry? (entries : List (String × FileTree)) (name : String) : Option FileTree :=
  (entries.find? fun e => e.1 == name).map (·.2)

/-- Follows the names of a path, where `above` are the folders passed on the way, nearest first. -/
def walk? : (above : List FileTree) → FileTree → List String → Option FileTree
  | _, t, [] => some t
  | _, file _, _ :: _ => none
  | above, folder entries, name :: rest =>
    if name.isEmpty || name = "." then walk? above (folder entries) rest
    else if name = ".." then
      match above with
      | [] => none
      | parent :: above => walk? above parent rest
    else
      match entry? entries name with
      | some t => walk? (folder entries :: above) t rest
      | none => none

/-- The tree with `t` at a path, in place of what was there. Folders on the way are made. -/
def place (t : FileTree) : FileTree → List String → FileTree
  | _, [] => t
  | old, name :: rest =>
    let entries := match old with
      | folder entries => entries
      | file _ => []
    match entry? entries name with
    | none => folder (entries ++ [(name, place t (folder []) rest)])
    | some child =>
      folder (entries.map fun e => if e.1 = name then (name, place t child rest) else e)
termination_by _ names => names.length

/-- A folder that stays as it is when it is there already. -/
def makeFolder (t : FileTree) (names : List String) : FileTree :=
  match walk? [] t names with
  | some (folder _) => t
  | _ => place (folder []) t names

end FileTree

/-- The names in a path. -/
def pathNames (path : String) : List String :=
  (path.splitToList (· == '/')).filter fun name => !name.isEmpty

/-- `path` under `base`, or `path` alone when it begins at the root. -/
def joinPath (base path : String) : String :=
  if path.startsWith "/" then path
  else if base.isEmpty || base.endsWith "/" then base ++ path
  else base ++ "/" ++ path

structure Disk where
  /-- The path of the root of the tree. -/
  mount : String
  tree : FileTree

/-- What stands at a full path. -/
def Disk.find? (d : Disk) (path : String) : Option FileTree :=
  if path.startsWith d.mount then
    FileTree.walk? [] d.tree (((path.drop d.mount.length).toString.splitToList (· == '/')).drop 1)
  else none

end MoveTx

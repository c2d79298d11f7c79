/-!
# File trees

What a directory holds: files, and directories inside it. A path leads from a directory to what is below it.
The files of a tree are listed in the order of their paths, name by name.
-/

namespace ThreatModel

inductive FileTree
  /-- A file with its bytes; none if they cannot be read. -/
  | file (bytes : Option ByteArray)
  /-- A directory with what stands under its names. -/
  | directory (entries : List (String × FileTree))

namespace FileTree

/-- The directory without entries. -/
def empty : FileTree := directory []

instance : Inhabited FileTree := ⟨empty⟩

def isDirectory : FileTree → Bool
  | file _ => false
  | directory _ => true

/-- What stands under the names of a directory; a file has none. -/
def entries : FileTree → List (String × FileTree)
  | file _ => []
  | directory entries => entries

/-- The bytes of a file; none if it cannot be read. -/
def bytes? : FileTree → Option ByteArray
  | file bytes => bytes
  | directory _ => none

/-- The text of a file; none if it cannot be read as one. -/
def text? (tree : FileTree) : Option String := tree.bytes?.bind String.fromUTF8?

/-! ## Paths -/

/-- The names of a path, between its slashes. -/
def namesOf (path : String) : List String := (path.toList.splitOn '/').map String.ofList

/-- What some names lead to from `here`, which lies in the directories `around`, the innermost first. In a
directory an empty name and a point stay where they are, and two points go one directory out. -/
def follow (around : List FileTree) (here : FileTree) : List String → Option FileTree
  | [] => some here
  | name :: rest =>
    match here with
    | file _ => none
    | directory entries =>
      if name = "" || name = "." then follow around here rest
      else if name = ".." then
        match around with
        | [] => none
        | outer :: around => follow around outer rest
      else
        match entries.lookup name with
        | some inner => follow (here :: around) inner rest
        | none => none

/-- What a path leads to. Nothing is outside of the tree, so a path from its root leads nowhere. -/
def find? (tree : FileTree) (path : String) : Option FileTree :=
  match namesOf path with
  | "" :: _ => none
  | names => follow [] tree names

/-- The text of the file that a path leads to. -/
def read? (tree : FileTree) (path : String) : Option String := (tree.find? path).bind text?

/-! ## Building -/

/-- Puts a tree under a name, in the place of what stands there. -/
def put (name : String) (tree : FileTree) : List (String × FileTree) → List (String × FileTree)
  | [] => [(name, tree)]
  | entry :: rest => if entry.1 = name then (name, tree) :: rest else entry :: put name tree rest

/-- Puts a tree under some names, with the directories that it needs. -/
def insert (added : FileTree) (tree : FileTree) : List String → FileTree
  | [] => added
  | name :: rest =>
    directory (put name (insert added ((tree.entries.lookup name).getD empty) rest) tree.entries)

/-- The names of a path that lead further in. -/
def innerNames (path : String) : List String := (namesOf path).filter fun name => name ≠ "" && name ≠ "."

/-- The tree of some directories and files, which are given by their paths. -/
def ofPaths (directories : List String) (files : List (String × ByteArray)) : FileTree :=
  let bare := directories.foldl (fun tree path => insert empty tree (innerNames path)) empty
  files.foldl (fun tree (path, bytes) => insert (file (some bytes)) tree (innerNames path)) bare

/-! ## Files -/

/-- A file and the names that lead to it. -/
structure Entry where
  path : List String
  bytes : Option ByteArray

/-- Whether a name is one that listings leave out. -/
def isHidden (name : String) : Bool := name.toList.head? = some '.'

/-- A file as it is seen from the directory around it. -/
def Entry.within (name : String) (entry : Entry) : Entry := ⟨name :: entry.path, entry.bytes⟩

/-- The order of the names of a directory. -/
def precedes (left right : String × List Entry) : Bool := left.1 ≤ right.1

mutual
/-- The files of a tree in the order of their paths, without those in hidden directories inside it. -/
def files : FileTree → List Entry
  | file bytes => [⟨[], bytes⟩]
  | directory entries =>
    ((groups entries).mergeSort precedes).flatMap fun (name, files) => files.map (Entry.within name)

/-- The files under each name of a directory. -/
def groups : List (String × FileTree) → List (String × List Entry)
  | [] => []
  | (name, tree) :: rest =>
    (name, if tree.isDirectory && isHidden name then [] else files tree) :: groups rest
end

end FileTree
end ThreatModel

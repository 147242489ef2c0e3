import FormulaGrid.Files.System
import FormulaGrid.Files.Path

/-!
# File trees

A file tree is a file system in memory: files and directories under their absolute places. A path
is followed part by part, each part but the last through a directory that exists.
-/

set_option autoImplicit false

namespace FormulaGrid

abbrev Place := List (List Char)

inductive Entry where
  | file (content : ByteArray)
  | directory

structure FileTree where
  entries : List (Place × Entry)
  /-- Where relative paths start. -/
  working : Place

namespace FileTree

/-- What is at a place; the root is always a directory. -/
def entry? (tree : FileTree) : Place → Option Entry
  | [] => some .directory
  | place => tree.entries.lookup place

/-- Follows parts from a place. The last part need not exist. -/
def follow (tree : FileTree) (place : Place) : List (List Char) → Except FileError Place
  | [] => .ok place
  | part :: rest =>
    match tree.entry? place with
    | none => .error .notFound
    | some (.file _) => .error .notDirectory
    | some .directory =>
      if part = [] ∨ part = ['.'] then tree.follow place rest
      else if part = ['.', '.'] then tree.follow place.dropLast rest
      else tree.follow (place ++ [part]) rest

def placeAlong (tree : FileTree) (path : String) (parts : List (List Char)) :
    Except FileError Place :=
  if path.isEmpty then .error .notFound
  else tree.follow (if Path.isAbsolute path then [] else tree.working) parts

def place (tree : FileTree) (path : String) : Except FileError Place :=
  tree.placeAlong path (Path.parts path.toList)

def read (tree : FileTree) (path : String) : Except FileError ByteArray := do
  match tree.entry? (← tree.place path) with
  | none => .error .notFound
  | some .directory => .error .isDirectory
  | some (.file content) => .ok content

def put (tree : FileTree) (place : Place) (entry : Entry) : FileTree :=
  { tree with entries := (place, entry) :: tree.entries.filter (·.1 ≠ place) }

/-- Writes a file. A path that ends in slashes names a directory, which need not exist. -/
def write (tree : FileTree) (path : String) (content : ByteArray) : Except FileError FileTree := do
  let parts := Path.parts path.toList
  let place ← tree.placeAlong path (parts.reverse.dropWhile (· = [])).reverse
  match parts.getLast?, tree.entry? place with
  | some [], _ => .error .isDirectory
  | _, some .directory => .error .isDirectory
  | _, _ => .ok (tree.put place (.file content))

def addDirectory (tree : FileTree) (place : Place) : FileTree :=
  (List.range place.length).foldl (fun tree n => tree.put (place.take (n + 1)) .directory) tree

def addFile (tree : FileTree) (place : Place) (content : ByteArray) : FileTree :=
  (tree.addDirectory place.dropLast).put place (.file content)

def system : FileSystem (StateM FileTree) where
  present path := do
    let tree ← get
    match tree.place path with
    | .ok place => return (tree.entry? place).isSome
    | .error _ => return false
  read path := return (← get).read path
  write path content := do
    match (← get).write path content with
    | .ok tree =>
      set tree
      return .ok ()
    | .error e => return .error e

end FileTree
end FormulaGrid

import AssetLift.Text.FileName

/-!
# File trees

The directories, files and symbolic links of a file system, each under its *location*: the names
that lead to it from the root without passing a link. What a path leads to is the business of
`AssetLift.FileTree.Resolve`.

* `FileTree.find?` — what stands at a location.
* `FileTree.insert`, `FileTree.set`, `FileTree.erase` — the changes.
-/

namespace AssetLift

/-- The names that lead to a place from the root of the file system. -/
abbrev Location := List Bytes

/-- What can stand at a location. -/
inductive FileNode where
  | directory
  | file (content : Bytes) (mode : Nat)
  | link (target : Bytes)
  deriving DecidableEq

namespace FileNode

/-- The permission bits of a node; of files alone they are kept. -/
def mode : FileNode → Nat
  | file _ m => m
  | _ => 0o755

/-- The node with other permission bits. -/
def withMode (m : Nat) : FileNode → FileNode
  | file content _ => file content m
  | n => n

end FileNode

/-- A file system with a working directory. -/
structure FileTree where
  workDir : Location
  nodes : List (Location × FileNode)
  deriving DecidableEq

namespace FileTree

/-- The permission bits of a file that is created with no others asked for. -/
def defaultMode : Nat := 0o644

/-- The permission bits of a temporary file. -/
def privateMode : Nat := 0o600

/-- What stands at a location; the root is a directory. -/
def find? (t : FileTree) (loc : Location) : Option FileNode :=
  if loc = [] then some .directory else t.nodes.lookup loc

/-- Puts a node where there is none. -/
def insert (t : FileTree) (loc : Location) (n : FileNode) : FileTree :=
  { t with nodes := t.nodes ++ [(loc, n)] }

/-- Puts a node in the place of the one that stands at a location. -/
def set (t : FileTree) (loc : Location) (n : FileNode) : FileTree :=
  { t with nodes := t.nodes.map fun e => if e.1 = loc then (loc, n) else e }

/-- Removes what stands at a location. -/
def erase (t : FileTree) (loc : Location) : FileTree :=
  { t with nodes := t.nodes.filter fun e => e.1 ≠ loc }

/-- The name of a node in a directory, if it stands right in it. -/
def nameIn? (dir : Location) (loc : Location) : Option Bytes :=
  if loc.length = dir.length + 1 ∧ dir.isPrefixOf loc then loc.getLast? else none

/-- The names in a directory with what they stand for. -/
def entries (t : FileTree) (dir : Location) : List (Bytes × FileNode) :=
  t.nodes.filterMap fun e => (nameIn? dir e.1).map (·, e.2)

end FileTree

end AssetLift

import AssetLift.FileTree
import AssetLift.Path
import AssetLift.Text.Quoted
import AssetLift.Text.Utf8

/-!
# From paths to locations

A path is followed name by name from the working directory or the root. Links are followed where
they stand; the last name is followed on demand. The names of a path are looked up by their bytes.

* `Path.fault?` — why a path cannot be looked up at all.
* `FileTree.resolve` — the location a path leads to, with something there or nothing.
* `IoFault` — why an access fails, with its wording.
-/

namespace AssetLift

/-- The errors of the file system that an access can meet. -/
inductive Errno where
  | notFound
  | busy
  | fileExists
  | notDirectory
  | isDirectory
  | nameTooLong
  | tooManyLinks
  deriving DecidableEq

namespace Errno

/-- The number of an error. -/
def number : Errno → Nat
  | notFound => 2
  | busy => 16
  | fileExists => 17
  | notDirectory => 20
  | isDirectory => 21
  | nameTooLong => 36
  | tooManyLinks => 40

/-- The name of an error. -/
def text : Errno → String
  | notFound => "No such file or directory"
  | busy => "Device or resource busy"
  | fileExists => "File exists"
  | notDirectory => "Not a directory"
  | isDirectory => "Is a directory"
  | nameTooLong => "File name too long"
  | tooManyLinks => "Too many levels of symbolic links"

end Errno

/-- Why an access to the file system fails. -/
inductive IoFault where
  | errno (error : Errno) (path : Text)
  /-- A move from one path to another fails. -/
  | move (error : Errno) (source target : Text)
  /-- The device reports a fault in its own words. -/
  | device (detail : String)
  /-- A path with a NUL cannot even be looked up. -/
  | embeddedNul
  /-- A text has no bytes. -/
  | unencodable (fault : Utf8.BadText)
  deriving DecidableEq

/-- The wording of each fault. -/
def IoFault.message : IoFault → String
  | errno e p => s!"[Errno {e.number}] {e.text}: {Quoted.renderPoints p}"
  | move e p q =>
    s!"[Errno {e.number}] {e.text}: {Quoted.renderPoints p} -> {Quoted.renderPoints q}"
  | device detail => detail
  | embeddedNul => "embedded null byte"
  | unencodable f => f.message

/-- Why a path cannot be looked up, whatever the tree: its text is not that of bytes, or holds a
NUL. -/
def Path.fault? (p : Path) : Option IoFault :=
  match FileName.fault? p.text with
  | some f => some (.unencodable f)
  | none => if p.parts.any (·.contains Path.nul) then some .embeddedNul else none

namespace FileTree

/-- Where a path leads. -/
inductive Place where
  /-- Something stands there. -/
  | present (loc : Location) (node : FileNode)
  /-- Nothing stands there, and something could. -/
  | absent (loc : Location)

/-- The longest name a directory can hold, in bytes. -/
def maxNameBytes : Nat := 255

/-- The longest path that is looked up, in bytes. -/
def maxPathBytes : Nat := 4095

/-- Whether a path cannot be looked up for the length of its text. -/
def isTooLong (text : Text) : Bool := maxPathBytes < (FileName.bytes text).length

/-- How many links a path may pass. -/
def maxLinks : Nat := 40

/-- The name that leads to the directory above. -/
def upName : Bytes := ".."

/-- The names that the target of a link holds. -/
def linkNames (target : Bytes) : List Bytes :=
  (Blank.splitChars 0x2F target).filter fun name => name ≠ [] && name ≠ "."

/-- The directory that the target of a link starts from; the link stands in `dir`. -/
def linkBase (dir : Location) (target : Bytes) : Location :=
  if target.head? = some 0x2F then [] else dir

/-- Follows names from a directory. `links` more links may be passed; the last name is followed only
if `follow` is set. -/
def resolveFrom (t : FileTree) (follow : Bool) (links : Nat) (dir : Location) :
    List Bytes → Except Errno Place
  | [] => .ok (.present dir .directory)
  | name :: rest =>
    if name = upName then resolveFrom t follow links dir.dropLast rest
    else if maxNameBytes < name.length then .error .nameTooLong
    else
      match t.find? (dir ++ [name]) with
      | none => if rest.isEmpty then .ok (.absent (dir ++ [name])) else .error .notFound
      | some .directory => resolveFrom t follow links (dir ++ [name]) rest
      | some (.file content mode) =>
        if rest.isEmpty then .ok (.present (dir ++ [name]) (.file content mode))
        else .error .notDirectory
      | some (.link target) =>
        if rest.isEmpty && !follow then .ok (.present (dir ++ [name]) (.link target))
        else
          match links with
          | 0 => .error .tooManyLinks
          | more + 1 =>
            resolveFrom t follow more (linkBase dir target) (linkNames target ++ rest)
termination_by names => (links, names.length)

/-- The directory a path starts from. -/
def base (t : FileTree) (p : Path) : Location :=
  match p.anchor with
  | .workDir => t.workDir
  | _ => []

/-- Where a path leads. -/
def resolve (t : FileTree) (follow : Bool) (p : Path) : Except Errno Place :=
  if isTooLong p.text then .error .nameTooLong
  else resolveFrom t follow maxLinks (t.base p) (p.parts.map FileName.bytes)

/-! ## Questions about paths -/

/-- What a path leads to, if anything. A path that leads nowhere is no fault; one that is too long
is. -/
def status (t : FileTree) (follow : Bool) (p : Path) : Except IoFault (Option FileNode) :=
  match p.fault? with
  | some _ => .ok none
  | none =>
    match t.resolve follow p with
    | .ok (.present _ n) => .ok (some n)
    | .ok (.absent _) => .ok none
    | .error .nameTooLong => .error (.errno .nameTooLong p.text)
    | .error _ => .ok none

/-- Whether a path leads to something. -/
def pathExists (t : FileTree) (p : Path) : Except IoFault Bool :=
  (·.isSome) <$> t.status true p

/-- Whether a path leads to a directory. -/
def isDirectory (t : FileTree) (p : Path) : Except IoFault Bool :=
  (fun n => n = some .directory) <$> t.status true p

/-- The bytes of the file a path leads to. -/
def read (t : FileTree) (p : Path) : Except IoFault Bytes :=
  match p.fault? with
  | some f => .error f
  | none =>
    match t.resolve true p with
    | .ok (.present _ (.file content _)) => .ok content
    | .ok (.present _ _) => .error (.errno .isDirectory p.text)
    | .ok (.absent _) => .error (.errno .notFound p.text)
    | .error e => .error (.errno e p.text)

/-- The permission bits of what a path leads to. -/
def mode? (t : FileTree) (p : Path) : Option Nat :=
  match t.resolve true p with
  | .ok (.present _ n) => some n.mode
  | _ => none

/-! ## Setting a tree up -/

/-- The tree with the directories on a path, those that are missing made. -/
def makeDirs (t : FileTree) (p : Path) : FileTree :=
  (List.range p.parts.length).foldl (fun t i =>
    match t.resolve true { p with parts := p.parts.take (i + 1) } with
    | .ok (.absent loc) => t.insert loc .directory
    | _ => t) t

/-- The tree with a file written, the directories on its path made. -/
def put (t : FileTree) (p : Path) (content : Bytes) (mode : Option Nat) : FileTree :=
  let t := t.makeDirs p.parent
  match t.resolve true p with
  | .ok (.absent loc) => t.insert loc (.file content (mode.getD defaultMode))
  | .ok (.present loc (.file _ old)) => t.set loc (.file content (mode.getD old))
  | _ => t

/-- The tree with a link made, the directories on its path made. -/
def putLink (t : FileTree) (p : Path) (target : Bytes) : FileTree :=
  let t := t.makeDirs p.parent
  match t.resolve false p with
  | .ok (.absent loc) => t.insert loc (.link target)
  | _ => t

/-- The tree without what a path leads to, links not followed at the end. -/
def delete (t : FileTree) (p : Path) : FileTree :=
  match t.resolve false p with
  | .ok (.present loc _) => { t with nodes := t.nodes.filter fun e => !loc.isPrefixOf e.1 }
  | _ => t

/-- The files and links below the working directory, by their paths. -/
def listing (t : FileTree) : List (Text × FileNode) :=
  let below := t.nodes.filterMap fun e =>
    if t.workDir.isPrefixOf e.1 ∧ e.2 ≠ .directory then
      some (Path.text ⟨.workDir, (e.1.drop t.workDir.length).map FileName.text⟩, e.2)
    else none
  below.mergeSort fun a b => !Path.nameBefore b.1 a.1

end FileTree

end AssetLift

import AssetLift.Config.Value
import AssetLift.FileTree.Resolve

/-!
# Finding candidates

The candidates of a migration are the regular files below a directory whose names end in a suffix.
Links are neither candidates nor followed, and directories with certain names are left out. The walk
looks at a directory, then at those in it, one after the other by name, and the first thing that it
cannot look at ends it.

* `Discovery.Dir` — a directory on the walk.
* `Discovery.below` — the walk.
* `Discovery.candidates` — the candidates of a root, in the order of their paths.
-/

namespace AssetLift

namespace Discovery

/-- Why the candidates of a root cannot be told. -/
inductive Fault where
  /-- The root leads nowhere. -/
  | absent (root : Path)
  /-- The root leads to something else than a directory. -/
  | notDirectory (root : Path)
  /-- A directory cannot be listed. -/
  | unlistable (dir : Text) (detail : String)
  /-- The root, or what could be a candidate, cannot be looked up. -/
  | io (fault : IoFault)
  /-- Directories stand in one another deeper than the walk can go. -/
  | tooDeep
  /-- A name to leave out is nothing that can be compared with names. -/
  | badSkip (shape : String)
  deriving DecidableEq

/-- The wording of each fault. -/
def Fault.message : Fault → Text
  | .absent root => "root directory does not exist: " ++ root.text
  | .notDirectory root => "root is not a directory: " ++ root.text
  | .unlistable dir detail => "cannot list " ++ dir ++ ": " ++ detail
  | .io f => f.message
  | .tooDeep => "maximum recursion depth exceeded"
  | .badSkip shape => s!"unhashable type: '{shape}'"

/-- Whether a run that meets the fault ends in good order. -/
def Fault.isEnumeration : Fault → Bool
  | .absent _ => true
  | .notDirectory _ => true
  | .unlistable _ _ => true
  | .io _ => false
  | .tooDeep => false
  | .badSkip _ => false

/-- A listing of the root that fails of its own accord. -/
structure Outage where
  number : Int
  text : String
  deriving DecidableEq

/-- What is said of the failed listing: its text, or number and path if it has none. -/
def Outage.detail (o : Outage) (root : Path) : String :=
  if o.text = "" then s!"[Errno {o.number}] : {Quoted.renderPoints root.text}" else o.text

/-- Whether a name ends in a suffix. -/
def endsIn (suffix : String) (name : Text) : Bool := (CodePoint.ofString suffix).isSuffixOf name

/-! ## The walk -/

/-- A directory on the walk. -/
structure Dir where
  loc : Location
  path : Path
  /-- What the directory is listed by. -/
  text : Text

namespace Dir

/-- The root of a walk. -/
def ofRoot (loc : Location) (root : Path) : Dir := ⟨loc, root, root.text⟩

/-- What a name in the directory is looked up by. The text of a path without names that does not
start from the working directory ends in a slash. -/
def textOf (d : Dir) (name : Text) : Text :=
  if d.path.anchor ≠ .workDir ∧ d.path.parts = [] then d.text ++ name else d.text ++ "/" ++ name

/-- The path of a name in the directory. -/
def child (d : Dir) (name : Bytes) : Path := d.path.child (FileName.text name)

/-- The directory with a name in another. -/
def down (d : Dir) (name : Bytes) : Dir :=
  ⟨d.loc ++ [name], d.child name, d.textOf (FileName.text name)⟩

/-- Whether an entry is listed as a directory: it is one or a link to one. A link that cannot be
followed is none. -/
def isDoor (t : FileTree) (d : Dir) : Bytes × FileNode → Bool
  | (_, .directory) => true
  | (_, .file _ _) => false
  | (name, .link _) =>
    !FileTree.isTooLong (d.textOf (FileName.text name)) &&
      (t.isDirectory (d.child name)).toOption == some true

/-- The candidate at an entry that is not listed as a directory, if it is one. -/
def candidate? (suffix : String) (d : Dir) (e : Bytes × FileNode) : Except Fault (List Path) :=
  let path := d.child e.1
  if endsIn suffix (FileName.text e.1) then
    if FileTree.isTooLong path.text then .error (.io (.errno .nameTooLong path.text))
    else
      match e.2 with
      | .file _ _ => .ok [path]
      | _ => .ok []
  else .ok []

end Dir

/-- What visits find, one after the other, up to the first that fails. -/
def visit (look : α → Except ε (List β)) : List α → Except ε (List β)
  | [] => .ok []
  | a :: rest => do
    let found ← look a
    return found ++ (← visit look rest)

namespace Dir

/-- The candidates right in a directory. -/
def files (t : FileTree) (suffix : String) (d : Dir) : Except Fault (List Path) :=
  if FileTree.isTooLong d.text then .error (.unlistable d.text Errno.nameTooLong.text)
  else visit (d.candidate? suffix) ((t.entries d.loc).filter fun e => !d.isDoor t e)

/-- What is listed as directories in a directory, by name, without names to leave out. -/
def doors (t : FileTree) (skip : List Text) (d : Dir) : List (Bytes × FileNode) :=
  ((t.entries d.loc).filter fun e => d.isDoor t e && FileName.text e.1 ∉ skip).mergeSort
    fun e e' => !Path.nameBefore (FileName.text e'.1) (FileName.text e.1)

/-- The names of the directories among these, which alone are entered. -/
def ways (t : FileTree) (skip : List Text) (d : Dir) : List Bytes :=
  ((d.doors t skip).filter fun e => e.2 = .directory).map (·.1)

end Dir

/-- The candidates in a directory and below it, where the walk can go some levels down. -/
def below (t : FileTree) (suffix : String) (skip : List Text) :
    Nat → Dir → Except Fault (List Path)
  | 0, d => do
    let here ← d.files t suffix
    if (d.doors t skip).isEmpty then return here else throw .tooDeep
  | levels + 1, d => do
    let here ← d.files t suffix
    return here ++ (← visit (fun name => below t suffix skip levels (d.down name)) (d.ways t skip))

/-- The names among values that directories can be left out by. -/
def skipNames : List Value → Except Fault (List Text)
  | [] => .ok []
  | .text s :: rest => (CodePoint.ofString s :: ·) <$> skipNames rest
  | .broken ps :: rest => (ps :: ·) <$> skipNames rest
  | v :: rest =>
    match v.keyHindrance? with
    | some shape => .error (.badSkip shape)
    | none => skipNames rest

/-- The candidates of a root, in the order of their paths, where the walk can go some levels down. -/
def candidates (t : FileTree) (root : Path) (suffix : String) (skip : List Value)
    (outage : Option Outage) (levels : Nat) : Except Fault (List Path) := do
  unless ← (t.pathExists root).mapError .io do throw (.absent root)
  unless ← (t.isDirectory root).mapError .io do throw (.notDirectory root)
  let skip ← skipNames skip
  if let some o := outage then throw (.unlistable root.text (o.detail root))
  match t.resolve true root with
  | .ok (.present loc _) =>
    return (← below t suffix skip levels (.ofRoot loc root)).mergeSort Path.le
  | _ => return []

end Discovery

end AssetLift

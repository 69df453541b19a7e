import AssetLift.Edit
import AssetLift.FileTree.Resolve
import AssetLift.Target

/-!
# Committing a patch

A patch holds the edits of one source file and the files to be made beside it. Committing it makes
the files first, each only if nothing stands at its path, then writes the new source to a temporary
file and moves that over the old one. If a step fails, what the commit has made is taken away again.

* `Journal` — the tree with every tree it was before, so that each step can be looked at.
* `Commit.createNew`, `Commit.createTemp`, `Commit.copyMode`, `Commit.moveOver` — the steps.
* `Outage` — the steps that the device refuses.
* `Patch.commit` — the whole.
-/

namespace AssetLift

/-! ## Patches -/

/-- The changes to one source file. -/
structure Patch where
  path : Path
  staging : Staging
  files : List PlannedFile := []

namespace Patch

/-- The patch of a file with nothing staged. -/
def ofSource (path : Path) (source : Bytes) : Patch := ⟨path, ⟨source, []⟩, []⟩

/-- Why something cannot be staged. -/
inductive Conflict where
  | edit (file : Text) (conflict : Staging.Conflict)
  /-- Two files are planned for one path. -/
  | sameFile (name : Text)
  deriving DecidableEq

/-- The wording of each conflict. -/
def Conflict.message : Conflict → Text
  | .edit file c => c.message file
  | .sameFile name => name ++ " is staged twice"

/-- Stages an edit of the source. -/
def stage (p : Patch) (e : Edit) : Except Conflict Patch :=
  match p.staging.stage e with
  | .ok staging => .ok { p with staging }
  | .error c => .error (.edit p.path.name c)

/-- Stages a file to be made. -/
def stageFile (p : Patch) (f : PlannedFile) : Except Conflict Patch :=
  if p.files.any (·.path = f.path) then .error (.sameFile f.path.name)
  else .ok { p with files := p.files ++ [f] }

/-- The source with every staged edit made. -/
def render (p : Patch) : Bytes := p.staging.render

end Patch

/-! ## Steps -/

/-- A tree together with the trees before it, the latest first. -/
structure Journal where
  tree : FileTree
  past : List FileTree := []

/-- An activity on a file tree: it may fail, and what it did before it failed stays done. -/
abbrev Disk := ExceptT IoFault (StateM Journal)

/-- What the device does of its own accord while a patch is committed. -/
structure Outage where
  /-- The final move fails with these words. -/
  move : Option String := none
  /-- Writing the content of the file at this path fails with these words. -/
  fill : Option (Path × String) := none
  /-- No temporary file can be made, for the reason in these words. -/
  temp : Option String := none
  /-- Writing the content of the temporary file fails with these words. -/
  draft : Option String := none
  /-- Copying the permission bits fails with these words. -/
  mode : Option String := none

namespace Commit

/-- Does one step: the tree it gives becomes the tree, and the old one goes to the past. -/
def step (change : FileTree → Except IoFault (α × FileTree)) : Disk α := do
  let j ← get
  match change j.tree with
  | .ok (a, t) =>
    set (⟨t, j.tree :: j.past⟩ : Journal)
    return a
  | .error e => throw e

/-- A change of the tree, unless the device refuses it. -/
def unlessRefused (refusal : Option String) (change : FileTree → Except IoFault (α × FileTree))
    (t : FileTree) : Except IoFault (α × FileTree) :=
  match refusal with
  | some detail => .error (.device detail)
  | none => change t

/-- Makes an empty file where nothing stands. -/
def createNew (p : Path) (t : FileTree) : Except IoFault (Location × FileTree) :=
  match p.fault? with
  | some f => .error f
  | none =>
    match t.resolve false p with
    | .ok (.absent loc) => .ok (loc, t.insert loc (.file [] FileTree.defaultMode))
    | .ok (.present _ _) => .error (.errno .fileExists p.text)
    | .error e => .error (.errno e p.text)

/-- Writes the content of a file that has just been made. -/
def fill (outage : Outage) (f : PlannedFile) (loc : Location) (t : FileTree) :
    Except IoFault (Unit × FileTree) :=
  match outage.fill with
  | some (p, detail) => if p = f.path then .error (.device detail) else write
  | none => write
where
  write : Except IoFault (Unit × FileTree) :=
    match Utf8.encode f.content with
    | .ok bytes => .ok ((), t.set loc (.file bytes FileTree.defaultMode))
    | .error e => .error (.unencodable e)

/-- Whether a fault says that something already stands at a path. -/
def isOccupied : IoFault → Bool
  | .errno .fileExists _ => true
  | _ => false

/-- Makes a planned file; false if something already stands at its path. -/
def writeNew (outage : Outage) (f : PlannedFile) : Disk Bool := do
  let made ← tryCatch (some <$> step (createNew f.path)) fun e =>
    if isOccupied e then pure none else throw e
  match made with
  | none => return false
  | some loc =>
    step (fill outage f loc)
    return true

/-- Takes away what stands at a path, if anything does. -/
def remove (p : Path) (t : FileTree) : Except IoFault (Unit × FileTree) :=
  match t.resolve false p with
  | .ok (.present loc _) => .ok ((), t.erase loc)
  | _ => .ok ((), t)

/-! ## Replacing the source -/

/-- The directory of a path with every `..` taken back by name alone. -/
def lexicalParent (t : FileTree) (p : Path) : List Text :=
  p.parent.parts.foldl
    (fun names name => if name = (".." : Text) then names.dropLast else names ++ [name])
    ((t.base p).map FileName.text)

/-- The name of a temporary file for a file, told from others by eight digits. -/
def tempName (name : Text) (token : Nat) : Text :=
  "." ++ name ++ "." ++ padded 8 token ++ ".tmp"

/-- The path of a temporary file next to a path. -/
def tempPath (t : FileTree) (p : Path) (token : Nat) : Path :=
  ⟨.root, lexicalParent t p ++ [tempName p.name token]⟩

/-- Whether something stands at the path of a temporary file. -/
def tempTaken (t : FileTree) (p : Path) (token : Nat) : Bool :=
  match t.resolve false (tempPath t p token) with
  | .ok (.present _ _) => true
  | _ => false

/-- The first number whose temporary file is not there yet. -/
def freshToken (t : FileTree) (p : Path) : Nat :=
  ((List.range (t.nodes.length + 1)).find? (!tempTaken t p ·)).getD 0

/-- A temporary file: its path and where it stands. -/
structure Temp where
  path : Path
  loc : Location

/-- Makes an empty temporary file next to a path. -/
def createTemp (p : Path) (t : FileTree) : Except IoFault (Temp × FileTree) :=
  match p.fault? with
  | some f => .error f
  | none =>
    let temp := tempPath t p (freshToken t p)
    match t.resolve false temp with
    | .ok (.absent loc) => .ok (⟨temp, loc⟩, t.insert loc (.file [] FileTree.privateMode))
    | .ok (.present _ _) => .error (.errno .fileExists temp.text)
    | .error e => .error (.errno e temp.text)

/-- Writes the content of a temporary file. -/
def fillTemp (temp : Temp) (content : Bytes) (t : FileTree) : Except IoFault (Unit × FileTree) :=
  .ok ((), t.set temp.loc (.file content FileTree.privateMode))

/-- Gives a temporary file the permission bits of what a path leads to. -/
def copyMode (p : Path) (temp : Temp) (t : FileTree) : Except IoFault (Unit × FileTree) :=
  match t.resolve true p with
  | .ok (.present _ source) =>
    match t.find? temp.loc with
    | some made => .ok ((), t.set temp.loc (made.withMode source.mode))
    | none => .error (.errno .notFound temp.path.text)
  | .ok (.absent _) => .error (.errno .notFound p.text)
  | .error e => .error (.errno e p.text)

/-- Puts a temporary file in the place of what stands at a path, in one go. -/
def moveOver (outage : Outage) (p : Path) (temp : Temp) (t : FileTree) :
    Except IoFault (Unit × FileTree) :=
  match outage.move, t.find? temp.loc with
  | some detail, _ => .error (.device detail)
  | none, none => .error (.move .notFound temp.path.text p.text)
  | none, some node =>
    match t.resolve false p with
    | .ok (.present _ .directory) =>
      if p.parts.isEmpty ∨ p.name = ".." then .error (.move .busy temp.path.text p.text)
      else .error (.move .isDirectory temp.path.text p.text)
    | .ok (.present loc _) => .ok ((), (t.erase temp.loc).set loc node)
    | .ok (.absent loc) => .ok ((), (t.erase temp.loc).insert loc node)
    | .error e => .error (.move e temp.path.text p.text)

/-- Runs an activity; if it fails, cleans up and fails all the same. -/
def orElseUndo (body undo : Disk Unit) : Disk Unit :=
  tryCatch body fun e => do undo; throw e

/-- Completes a temporary file and puts it in the place of a source file. -/
def install (outage : Outage) (p : Path) (content : Bytes) (temp : Temp) : Disk Unit := do
  step (unlessRefused outage.draft (fillTemp temp content))
  step (unlessRefused outage.mode (copyMode p temp))
  step (moveOver outage p temp)

/-- Puts new content in the place of a source file, by way of a temporary file. -/
def replaceSource (outage : Outage) (p : Path) (content : Bytes) : Disk Unit := do
  let temp ← step (unlessRefused outage.temp (createTemp p))
  orElseUndo (install outage p content temp) (step (remove temp.path))

/-! ## The whole commit -/

/-- What a commit did with the planned files. -/
structure Result where
  /-- Made by the commit. -/
  created : List Path := []
  /-- Already there, and left as they were. -/
  existing : List Path := []
  deriving DecidableEq

/-- Makes planned files in order. The paths made so far are handed to `undo` when one fails. -/
def landFiles (outage : Outage) : List PlannedFile → Result → Disk (Result × Option IoFault)
  | [], done => return (done, none)
  | f :: rest, done => do
    let made ← tryCatch (Except.ok <$> writeNew outage f) fun e => return .error e
    match made with
    | .ok true => landFiles outage rest { done with created := done.created ++ [f.path] }
    | .ok false => landFiles outage rest { done with existing := done.existing ++ [f.path] }
    | .error e => return (done, some e)

/-- Takes away the files at the given paths. -/
def removeAll : List Path → Disk Unit
  | [] => return ()
  | p :: rest => do
    step (remove p)
    removeAll rest

end Commit

/-- Commits a patch: makes its files, then replaces the source if an edit is staged. If a step
fails, the files made so far are taken away again. -/
def Patch.commit (outage : Outage) (p : Patch) : Disk Commit.Result := do
  let content := p.render
  let (done, failed) ← Commit.landFiles outage p.files {}
  match failed with
  | some e =>
    Commit.removeAll done.created
    throw e
  | none =>
    if p.staging.edits.isEmpty then return done
    else
      Commit.orElseUndo (Commit.replaceSource outage p.path content)
        (Commit.removeAll done.created)
      return done

/-- Runs an activity on a tree: its outcome, and the tree it leaves. -/
def Disk.runOn (activity : Disk α) (t : FileTree) : Except IoFault α × FileTree :=
  let (result, journal) := activity.run ⟨t, []⟩
  (result, journal.tree)

end AssetLift

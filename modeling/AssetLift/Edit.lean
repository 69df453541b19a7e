import AssetLift.Bytes
import AssetLift.Span
import AssetLift.Text.CodePoint

/-!
# Edits

An edit swaps a range of a file for other bytes. All edits of a file refer to the bytes it has before
the first of them; they are staged one after the other and rendered together.

* `Edit.make` — an edit that knows where the replaced entry started.
* `Staging.stage` — accepts an edit that ends inside the file and crosses no earlier one.
* `Staging.render` — the file with every staged edit made.
-/

namespace AssetLift

/-- Swaps the bytes of `remove` for `text`. -/
structure Edit where
  remove : Span
  /-- Where the replaced entry started. -/
  insertAt : Int
  text : Bytes
  insertAt_mem : remove.start ≤ insertAt ∧ insertAt ≤ remove.stop
  deriving DecidableEq

namespace Edit

/-- An insertion point that does not lie in the range removed. -/
structure Outside where
  insertAt : Int
  remove : Span
  deriving DecidableEq

/-- The wording of the fault. -/
def Outside.message (f : Outside) : String :=
  s!"Insertion point {f.insertAt} outside removal {f.remove.text}"

/-- The edit with the given range and bytes. -/
def make (remove : Span) (insertAt : Int) (text : Bytes) : Except Outside Edit :=
  if h : remove.start ≤ insertAt ∧ insertAt ≤ remove.stop then .ok ⟨remove, insertAt, text, h⟩
  else .error ⟨insertAt, remove⟩

/-- Whether the edit removes nothing. -/
def isInsertion (e : Edit) : Bool := e.remove.start = e.remove.stop

/-- Whether two edits only insert, and at the same offset. -/
def sameInsertion (e f : Edit) : Bool :=
  e.isInsertion && f.isInsertion && e.remove.stop = f.remove.start

end Edit

/-- The edits accepted for a file, in the order they came. -/
structure Staging where
  source : Bytes
  edits : List Edit := []

namespace Staging

/-- Why an edit is refused. -/
inductive Conflict where
  /-- It ends past the end of the file. -/
  | pastEnd (remove : Span)
  /-- It crosses an edit accepted before. -/
  | overlap (remove staged : Span)
  /-- It inserts where an edit accepted before already does. -/
  | secondInsertion (offset : Int)
  deriving DecidableEq

/-- The wording of each conflict, for the file called `name`. -/
def Conflict.message (name : Text) : Conflict → Text
  | .pastEnd r => s!"edit {r.text} runs past the end of " ++ name
  | .overlap r s => s!"edit {r.text} overlaps staged edit {s.text}"
  | .secondInsertion n => s!"two insertions staged at offset {n}"

/-- The conflict of an edit with one accepted before. -/
def conflictWith (e staged : Edit) : Option Conflict :=
  if staged.remove.overlaps e.remove then some (.overlap e.remove staged.remove)
  else if staged.sameInsertion e then some (.secondInsertion e.insertAt)
  else none

/-- The first reason to refuse an edit. -/
def conflict? (s : Staging) (e : Edit) : Option Conflict :=
  if (s.source.length : Int) < e.remove.stop then some (.pastEnd e.remove)
  else s.edits.findSome? (conflictWith e)

/-- Accepts an edit, or leaves the staging as it is. -/
def stage (s : Staging) (e : Edit) : Except Conflict Staging :=
  match s.conflict? e with
  | some c => .error c
  | none => .ok { s with edits := s.edits ++ [e] }

/-- The ranges of the accepted edits. -/
def spans (s : Staging) : List Span := s.edits.map (·.remove)

/-- The accepted edits by the offset they start at; edits with the same start keep their order. -/
def sorted (s : Staging) : List Edit :=
  s.edits.mergeSort fun e f => e.remove.start ≤ f.remove.start

/-- The bytes from `cursor` on with the given edits made in turn. -/
def renderFrom (source : Bytes) (cursor : Int) : List Edit → Bytes
  | [] => source.sliceFrom cursor
  | e :: rest =>
    source.slice cursor e.remove.start ++ e.text ++ renderFrom source e.remove.stop rest

/-- The file with every accepted edit made. -/
def render (s : Staging) : Bytes := renderFrom s.source 0 s.sorted

end Staging

end AssetLift

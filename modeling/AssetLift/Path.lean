import AssetLift.Text.Blank
import AssetLift.Text.CodePoint

/-!
# Paths

A path is a list of names from the working directory or from the root. Empty names and `.` are
dropped when a path is read; `..` is kept, because what it leads to depends on links.

* `Path.ofText`, `Path.text` — reading and writing; reading a written path gives it back.
* `Path.parent`, `Path.name`, `Path.stem` — the parts of a path.
* `Path.join`, `Path.relativeTo?` — going down from a path and back.
-/

namespace AssetLift

namespace Path

/-- What stands between names. -/
def slash : CodePoint := .ofChar '/'

/-- What stands before an extension. -/
def dot : CodePoint := .ofChar '.'

/-- What no name can hold. -/
def nul : CodePoint := .ofChar '\x00'

/-- Where a path starts. Two slashes in front are a start of their own. -/
inductive Anchor where
  | workDir
  | root
  | twinRoot
  deriving DecidableEq

/-- The text of an anchor. -/
def Anchor.text : Anchor → Text
  | workDir => ""
  | root => "/"
  | twinRoot => "//"

/-- The anchor of a text. -/
def Anchor.ofText (t : Text) : Anchor :=
  match (t.takeWhile (· = slash)).length with
  | 0 => workDir
  | 2 => twinRoot
  | _ => root

end Path

/-- A path. -/
structure Path where
  anchor : Path.Anchor
  parts : List Text
  deriving DecidableEq

namespace Path

/-- The names a text holds between slashes, without the empty ones and `.`. -/
def names (t : Text) : List Text :=
  (Blank.splitChars slash t).filter fun p => p ≠ [] && p ≠ [dot]

/-- The path a text writes. -/
def ofText (t : Text) : Path := ⟨Anchor.ofText t, names t⟩

/-- The path that a text without halves of surrogate pairs writes. -/
def ofString (s : String) : Path := ofText s

/-- The text of a path; the working directory itself is `.`. -/
def text (p : Path) : Text :=
  if p.anchor = .workDir ∧ p.parts = [] then [dot]
  else p.anchor.text ++ [slash].intercalate p.parts

/-- A path in a message. -/
def shown (p : Path) : String := CodePoint.shown p.text

/-- The names of a path with its anchor in front; paths are ordered by these lists. -/
def components (p : Path) : List Text :=
  match p.anchor with
  | .workDir => p.parts
  | a => a.text :: p.parts

/-- Whether a name comes before another: the first code points that differ decide. -/
def nameBefore (a b : Text) : Bool := a.lex b fun c d => c < d

/-- Whether a path comes before another or is the same: the first names that differ decide. -/
def le (p q : Path) : Bool := !q.components.lex p.components nameBefore

/-- The last name; empty for a path without names. -/
def name (p : Path) : Text := p.parts.getLast?.getD []

/-- The directory a path lies in; a path without names is its own. -/
def parent (p : Path) : Path := { p with parts := p.parts.dropLast }

/-- The place of the last dot that has something on both sides. -/
def stemLength (name : Text) : Nat :=
  let extension := name.reverse.takeWhile (· ≠ dot)
  let stem := name.length - extension.length - 1
  if extension.length < name.length ∧ 0 < stem ∧ extension ≠ [] then stem else name.length

/-- The last name without its extension. -/
def stem (p : Path) : Text := p.name.take (stemLength p.name)

/-- The path of a name in a directory. -/
def child (p : Path) (name : Text) : Path := { p with parts := p.parts ++ [name] }

/-- Goes down from a path; a text that starts with a slash is a path of its own. -/
def join (p : Path) (t : Text) : Path :=
  let q := ofText t
  match q.anchor with
  | .workDir => { p with parts := p.parts ++ q.parts }
  | _ => q

/-- The rest of a path below a directory. -/
def relativeTo? (p dir : Path) : Option Path :=
  if p.anchor = dir.anchor ∧ dir.parts.isPrefixOf p.parts then
    some ⟨.workDir, p.parts.drop dir.parts.length⟩
  else none

end Path

end AssetLift

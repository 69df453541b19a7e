import AssetLift.Path
import AssetLift.Settings
import AssetLift.Text.CodePoint

/-!
# Target files

Inline literals move to files next to the component they come from, and the component refers to
those files.

* `Target.baseName` — the common start of a component's target names.
* `Target.template`, `Target.styles` — the files planned for literals.
* `Target.reference` — the entry that refers to planned files.
-/

namespace AssetLift

/-- A file to be made. -/
structure PlannedFile where
  path : Path
  content : List CodePoint
  deriving DecidableEq

namespace Target

/-! ## Names -/

/-- The start of the names of a component's files: the component's name without the source suffix,
or, if it does not end in that or is nothing else, without its extension. -/
def baseName (s : Settings) (component : Path) : Text :=
  let suffix := CodePoint.ofString s.sourceSuffix
  if suffix ≠ [] ∧ suffix.isSuffixOf component.name ∧ suffix.length < component.name.length then
    component.name.take (component.name.length - suffix.length)
  else component.stem

/-- The path of a file next to a component. -/
def beside (component : Path) (name : Text) : Path := component.parent.join name

/-- The file planned for a template. -/
def template (s : Settings) (component : Path) (content : List CodePoint) : PlannedFile :=
  ⟨beside component (baseName s component ++ s.templateExtension), content⟩

/-- The name of the style file with a given index; all but the first are numbered from two on. -/
def styleName (s : Settings) (component : Path) (index : Nat) : Text :=
  let base := baseName s component
  if index = 0 then base ++ s.styleExtension
  else base ++ "-" ++ toString (index + 1) ++ s.styleExtension

/-- The files planned for styles, in order. -/
def styles (s : Settings) (component : Path) (contents : List (List CodePoint)) :
    List PlannedFile :=
  contents.zipIdx.map fun (content, index) =>
    ⟨beside component (styleName s component index), content⟩

/-! ## References -/

section
variable {α : Type} [DecidableEq α]

/-- Puts `by_` in the place of every occurrence of a pattern, from left to right. -/
def replaceChars (pattern by_ : List α) : Nat → List α → List α
  | _, [] => []
  | skip + 1, _ :: rest => replaceChars pattern by_ skip rest
  | 0, c :: rest =>
    if pattern.isPrefixOf (c :: rest) then by_ ++ replaceChars pattern by_ (pattern.length - 1) rest
    else c :: replaceChars pattern by_ 0 rest

/-- Puts `by_` in the place of every occurrence of a pattern; an empty pattern occurs before every
character and at the end. -/
def substitute (pattern by_ text : List α) : List α :=
  if pattern = [] then by_ ++ text.flatMap fun c => c :: by_ else replaceChars pattern by_ 0 text

end

/-- A text as a string literal: backslashes, then quotes, with a backslash in front. -/
def quoted (quote : String) (text : Text) : Text :=
  let quote := CodePoint.ofString quote
  let slash : CodePoint := .ofChar '\\'
  let escaped := substitute [slash] [slash, slash] text
  quote ++ substitute quote (slash :: quote) escaped ++ quote

/-- How a component refers to a file next to it. -/
def relative (file : PlannedFile) : Text := "./" ++ file.path.name

/-- The literal that refers to a file. -/
def literal (s : Settings) (file : PlannedFile) : Text := quoted s.quote (relative file)

/-- The entry that refers to a list of files. -/
def listReference (s : Settings) (key : String) (files : List PlannedFile) : Text :=
  key ++ ": [" ++ (CodePoint.ofString ", ").intercalate (files.map (literal s)) ++ "]"

/-- The entry that refers to one file. -/
def scalarReference (s : Settings) (key : String) (file : PlannedFile) : Text :=
  key ++ ": " ++ literal s file

/-- There is no file to refer to. -/
structure NoFile where
  deriving DecidableEq

/-- The wording of the fault. -/
def NoFile.message (_ : NoFile) : String := "list index out of range"

/-- The entry that refers to one file, the first of those planned. -/
def reference (s : Settings) (key : String) : List PlannedFile → Except NoFile Text
  | [] => .error ⟨⟩
  | file :: _ => .ok (scalarReference s key file)

end Target

end AssetLift

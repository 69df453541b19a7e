import AssetLift.Config.Value
import AssetLift.Text.Blank

/-!
# Settings

What can be chosen about a migration, and how a configuration sets it.

* `Settings` — the choices with their defaults.
* `Settings.ofConfig` — the choices of a configuration; the quote must be one that strings can have.
-/

namespace AssetLift

/-- The choices of a migration. -/
structure Settings where
  /-- The extension of a template's file. -/
  templateExtension : String := ".html"
  /-- The extension of a style's file. -/
  styleExtension : String := ".scss"
  /-- The end of the name of a file to look into. -/
  candidateSuffix : String := ".component.ts"
  /-- The end of a source file's name that its targets do not take over. -/
  sourceSuffix : String := ".ts"
  /-- The decorator that marks a component. -/
  decoratorName : String := "Component"
  /-- The quote that references are written with. -/
  quote : String := "'"
  /-- The names of directories not to look into. -/
  skipDirs : List Value := [.text "node_modules", .text ".git"]

namespace Settings

/-- Why a configuration gives no settings. -/
inductive Fault where
  /-- The quote is none of the two that strings can have. -/
  | badQuote (shown : String)
  /-- The directories to skip are no list. -/
  | notIterable (shape : String)
  /-- A choice has no text. -/
  | noText (fault : Value.TextFault)
  deriving DecidableEq

/-- The wording of each fault. -/
def Fault.message : Fault → String
  | .badQuote q => s!"❌ QUOTE must be ' or \", got {q}"
  | .notIterable shape => s!"'{shape}' object is not iterable"
  | .noText f => f.message

/-- The items of a value that stands for a list of names: a text is cut at its commas, a map gives
its keys, bytes give their numbers, and what does not count as given gives none. -/
def itemsOf : Value → Except Fault (List Value)
  | .text s => .ok ((Blank.items s).map .text)
  | .broken ps => .ok ((Blank.items (Value.broken ps).toText).map .text)
  | .bytes b => .ok (b.map fun x => .int x.toNat)
  | .list vs => .ok vs
  | .pair a b => .ok [a, b]
  | .map ps => .ok (ps.map (·.1))
  | .set vs => .ok vs
  | v => if v.truthy then .error (.notIterable v.fullShape) else .ok []

/-- The value of a key, or the default. -/
def choice (c : Config) (key default : String) : Value := (c.get? key).getD (.text default)

/-- The text of a key, or the default. Values can be shown `room` deep. -/
def textOr (room : Nat) (c : Config) (key default : String) : Except Fault String :=
  match (choice c key default).textFault? room with
  | some f => .error (.noText f)
  | none => .ok (choice c key default).toText

/-- The settings of a configuration, but for the directories to skip. The quote is looked at
first. -/
def textsOf (room : Nat) (c : Config) : Except Fault Settings := do
  let base : Settings := {}
  let quote ← textOr room c "QUOTE" base.quote
  if quote ≠ "'" ∧ quote ≠ "\"" then throw (.badQuote (choice c "QUOTE" base.quote).quotedText)
  return {
    templateExtension := ← textOr room c "TEMPLATE_EXTENSION" base.templateExtension
    styleExtension := ← textOr room c "STYLE_EXTENSION" base.styleExtension
    candidateSuffix := ← textOr room c "CANDIDATE_SUFFIX" base.candidateSuffix
    sourceSuffix := ← textOr room c "SOURCE_SUFFIX" base.sourceSuffix
    decoratorName := ← textOr room c "DECORATOR_NAME" base.decoratorName
    quote }

/-- The directories that a configuration says to skip. -/
def skipOf (c : Config) : Except Fault (List Value) :=
  match c.get? "SKIP_DIRS" with
  | some v => itemsOf v
  | none => .ok ({} : Settings).skipDirs

/-- The settings of a configuration. -/
def ofConfig (room : Nat) (c : Config) : Except Fault Settings := do
  let s ← textsOf room c
  return { s with skipDirs := ← skipOf c }

end Settings

end AssetLift

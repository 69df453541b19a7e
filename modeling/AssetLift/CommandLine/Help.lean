import AssetLift.CommandLine.Spec
import AssetLift.Text.Paragraph

/-!
# Usage and help

* `Spec.usage` — how a program is called, in one line if it fits.
* `Spec.help` — the usage, the description, and what each argument does.
-/

namespace AssetLift

namespace CommandLine

/-! ## Usage -/

/-- A switch in the usage. -/
def Switch.usage (s : Switch) : String :=
  let name := s.names.headD ""
  match s.effect with
  | .value placeholder => s!"[{name} {placeholder}]"
  | _ => s!"[{name}]"

/-- An operand as the help calls it. -/
def Operand.label : Operand → String
  | .word name _ => name
  | .command _ choices => "\x7b" ++ ",".intercalate (choices.map (·.1)) ++ "\x7d"

/-- An operand in the usage. -/
def Operand.usage (o : Operand) : List String :=
  match o with
  | .word name _ => [name]
  | .command _ _ => [o.label, "..."]

/-- The word in front of the usage. -/
def usageLead : String := "usage: "

/-- Fills parts into lines that start with an indent. A line that starts with text has `taken`
characters already. -/
def fillParts (width indent : Nat) : Nat → List String → List String → List (List String)
  | _, line, [] => if line.isEmpty then [] else [line]
  | taken, line, p :: ps =>
    if taken + p.length > width && !line.isEmpty then
      line :: fillParts width indent (indent + p.length + 1) [p] ps
    else fillParts width indent (taken + p.length + 1) (line ++ [p]) ps

/-- The lines of parts, each with its indent. -/
def partLines (width indent : Nat) (parts : List String) : List String :=
  (fillParts width indent indent [] parts).map fun line =>
    "".pushn ' ' indent ++ " ".intercalate line

namespace Spec

/-- The lines of the usage when one line does not hold it. -/
def usageLines (s : Spec) (width : Nat) : List String :=
  let switches := s.switches.map Switch.usage
  let operand := s.operand.usage
  let lead := usageLead.length + s.program.length
  if 4 * lead ≤ 3 * width then
    let indent := lead + 1
    let first := (fillParts width indent usageLead.length [] (s.program :: switches)).map
      (" ".intercalate ·)
    let lines := match first with
      | [] => []
      | l :: ls => l :: ls.map ("".pushn ' ' indent ++ ·)
    lines ++ partLines width indent operand
  else
    let indent := usageLead.length
    let lines := partLines width indent (switches ++ operand)
    s.program ::
      if lines.length > 1 then
        partLines width indent switches ++ partLines width indent operand
      else lines

/-- How the program is called, in lines of at most `width` characters where the parts allow. -/
def usage (s : Spec) (width : Nat) : String :=
  let line := " ".intercalate (s.program :: s.switches.map Switch.usage ++ s.operand.usage)
  let text :=
    if usageLead.length + line.length > width then "\n".intercalate (s.usageLines width) else line
  usageLead ++ text ++ "\n"

end Spec

/-! ## Help -/

/-- A line of help: an argument and what it does. -/
structure Item where
  indent : Nat
  label : String
  help : Option String

/-- A switch as the help calls it. -/
def Switch.label (s : Switch) : String :=
  ", ".intercalate (s.names.map fun n =>
    match s.effect with
    | .value placeholder => n ++ " " ++ placeholder
    | _ => n)

/-- The help of a switch. -/
def Switch.item (s : Switch) : Item := ⟨2, s.label, some s.help⟩

/-- The help of an operand; commands stand below it. -/
def Operand.items (o : Operand) : List Item :=
  match o with
  | .word name help => [⟨2, name, some help⟩]
  | .command _ choices => ⟨2, o.label, none⟩ :: choices.map fun (n, h) => ⟨4, n, some h⟩

/-- The lines of an item. The texts start at a common column, on the label's line if that leaves
room. -/
def Item.lines (width column : Nat) (i : Item) : List String :=
  let label := "".pushn ' ' i.indent ++ i.label
  match i.help.map (Paragraph.fill (max (width - column) 11)) with
  | none | some [] => [label]
  | some (first :: more) =>
    let shift (s : String) : String := "".pushn ' ' column ++ s
    if label.length + 2 ≤ column then
      (label ++ "".pushn ' ' (column - label.length) ++ first) :: more.map shift
    else label :: shift first :: more.map shift

namespace Spec

/-- All items of the help. -/
def items (s : Spec) : List Item := s.operand.items ++ s.switches.map Switch.item

/-- The column that the texts of the items start at. -/
def helpColumn (s : Spec) (width : Nat) : Nat :=
  let longest := (s.items.map (·.label.length)).foldl max 0 + 2
  min (longest + 2) (min 24 (max (width - 20) 4))

/-- The help in lines of at most `width` characters where the words allow. -/
def help (s : Spec) (width : Nat) : String :=
  let column := s.helpColumn width
  let group (heading : String) (items : List Item) : List String :=
    "" :: (heading ++ ":") :: items.flatMap (Item.lines width column)
  let description := match s.description with
    | some d => "" :: Paragraph.fill (max width 11) d
    | none => []
  let lines := description ++ group "positional arguments" s.operand.items
    ++ group "options" (s.switches.map Switch.item)
  s.usage width ++ String.join (lines.map (· ++ "\n"))

end Spec

end CommandLine

end AssetLift

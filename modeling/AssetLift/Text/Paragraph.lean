import AssetLift.Text.Blank

/-!
# Paragraphs

Prose that is filled into lines of a number of characters.

* `Paragraph.fill` — the lines; a word longer than a line is cut.
-/

namespace AssetLift

namespace Paragraph

/-- The words of a text. -/
def words (s : String) : List (List Char) :=
  (Blank.splitChars ' ' (s.toList.map fun c => if Blank.isBlank c then ' ' else c)).filter
    (!·.isEmpty)

/-- Fills words into lines after the line at hand, in at most `fuel` steps. -/
def fillFrom (width : Nat) : Nat → List Char → List (List Char) → List (List Char)
  | 0, line, _ => [line]
  | _ + 1, line, [] => if line.isEmpty then [] else [line]
  | fuel + 1, [], w :: ws =>
    if w.length ≤ width then fillFrom width fuel w ws
    else w.take width :: fillFrom width fuel [] (w.drop width :: ws)
  | fuel + 1, line, w :: ws =>
    if line.length + 1 + w.length ≤ width then fillFrom width fuel (line ++ ' ' :: w) ws
    else if w.length > width && line.length < width then
      let room := width - (line.length + 1)
      (line ++ ' ' :: w.take room) :: fillFrom width fuel [] (w.drop room :: ws)
    else line :: fillFrom width fuel [] (w :: ws)

/-- The lines of a text. -/
def fill (width : Nat) (s : String) : List String :=
  (fillFrom width (2 * s.length + 2) [] (words s)).map String.ofList

end Paragraph

end AssetLift

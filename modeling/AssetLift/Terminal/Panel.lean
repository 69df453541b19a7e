import AssetLift.Terminal.Flow

/-!
# Panels

A text in a frame as wide as the terminal, with a title in its upper edge.

* `Panel.render` — the lines of the panel.
-/

namespace AssetLift

/-- A framed text. -/
structure Panel where
  title : String
  body : String

namespace Panel

/-- The cells that the frame takes, with a blank beside the body on each side. -/
def frameWidth : Nat := 4

/-- An edge of the frame between two corners. -/
def edge (left right : Char) (width : Nat) : Flow.Line :=
  left :: List.replicate (width - 2) '─' ++ [right]

/-- The upper edge with the title in its middle. -/
def titled (title : String) (width : Nat) : Flow.Line :=
  let room := width - frameWidth
  let text := Flow.truncate room .fold (' ' :: title.toList ++ [' '])
  let spare := room - Width.ofChars text
  '╭' :: '─' :: List.replicate (spare / 2) '─' ++ text
    ++ List.replicate (spare - spare / 2) '─' ++ ['─', '╮']

/-- The lines of the panel in a terminal of a given width. -/
def render (p : Panel) (width : Nat) : List Flow.Line :=
  let room := width - frameWidth
  let top := if width ≤ frameWidth then edge '╭' '╮' width else titled p.title width
  let body := (Flow.layout room .fold .natural p.body).map fun line =>
    '│' :: ' ' :: Flow.pad room line ++ [' ', '│']
  (top :: body ++ [edge '╰' '╯' width]).map (Flow.crop width)

end Panel

end AssetLift

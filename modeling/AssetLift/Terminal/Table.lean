import AssetLift.Decimal.Rounding
import AssetLift.Terminal.Flow
import AssetLift.Total

/-!
# Tables

A table with a title, a head and ruled columns. Its columns are as wide as their widest cell, and
share what is missing when the terminal is narrower than that: the widest columns give first.

* `Table.columnWidths` — the widths of the columns in a terminal.
* `Table.render` — the lines of the table.
-/

namespace AssetLift

/-- A column of a table. -/
structure Column where
  header : String
  alignment : Flow.Alignment := .left
  overflow : Flow.Overflow := .ellipsis

/-- A table. Every row has one cell for each column. -/
structure Table where
  title : String
  columns : List Column
  rows : List (List String)

namespace Table

/-! ## Widths -/

/-- The blanks on both sides of a cell. -/
def padding : Nat := 2

/-- The cells that the rules take: one on both sides of each column. -/
def ruleWidth (t : Table) : Nat := t.columns.length + 1

/-- The cells of one column, its header first. -/
def column (t : Table) (i : Nat) (c : Column) : List String :=
  c.header :: t.rows.map fun row => row.getD i ""

/-- The cells that the widest line of a text takes; tabs take none. -/
def textWidth (s : String) : Nat :=
  ((Blank.lines (s.toList.filter (!Flow.isControl ·))).map Width.ofChars).foldl max 0

/-- The width of each column when nothing limits it. -/
def naturalWidths (t : Table) : List Nat :=
  t.columns.zipIdx.map fun (c, i) => ((t.column i c).map textWidth).foldl max 0 + padding

/-- Takes `total` from the widths in equal shares. Only the chosen ones give, and none gives more
than its limit; `shares` counts the chosen ones that are left. -/
def reduce (total shares : Nat) : List (Bool × Nat × Nat) → List Nat
  | [] => []
  | (chosen, limit, width) :: rest =>
    if chosen && limit ≠ 0 then
      let given := min limit (roundDiv total shares)
      (width - given) :: reduce (total - given) (shares - 1) rest
    else width :: reduce total shares rest

/-- Takes `excess` from the widths in equal shares. -/
def reduceEvenly (excess : Nat) (widths : List Nat) : List Nat :=
  reduce excess (widths.filter (· ≠ 0)).length (widths.map fun w => (true, w, w))

/-- Takes from the widest columns what is too much, until they are as narrow as the next ones, and
so on for at most `fuel` rounds. -/
def collapse (limit : Nat) : Nat → List Nat → List Nat
  | 0, widths => widths
  | fuel + 1, widths =>
    let excess := total widths - limit
    let widest := widths.foldl max 0
    let next := (widths.filter (· ≠ widest)).foldl max 0
    if excess = 0 || widest = next then widths
    else
      let chosen := (widths.filter (· = widest)).length
      let most := min excess (widest - next)
      collapse limit fuel
        (reduce excess chosen (widths.map fun w => (decide (w = widest), most, w)))

/-- The widths of the columns in a terminal of a given width. -/
def columnWidths (t : Table) (width : Nat) : List Nat :=
  let limit := width - t.ruleWidth
  let natural := t.naturalWidths.map (min · (max limit 1))
  let collapsed := collapse limit (total natural) natural
  if total collapsed > limit then reduceEvenly (total collapsed - limit) collapsed else collapsed

/-! ## Lines -/

/-- The rules of a line: left of the columns, between them, right of them. -/
structure Rules where
  left : Char
  middle : Char
  right : Char

/-- A line that cells fill. -/
def Rules.line (r : Rules) (cells : List Flow.Line) : Flow.Line :=
  r.left :: List.intercalate [r.middle] cells ++ [r.right]

/-- A line that one character fills. -/
def Rules.fill (r : Rules) (c : Char) (widths : List Nat) : Flow.Line :=
  r.line (widths.map (List.replicate · c))

/-- The lines of a cell with its padding. -/
def cellLines (width : Nat) (c : Column) (text : String) : List Flow.Line :=
  (Flow.layout (width - padding) c.overflow c.alignment text).map fun line =>
    Flow.crop width (' ' :: Flow.pad (width - padding) line ++ [' '])

/-- Fills the cells of a row up to the highest one, above or below their lines. -/
def rowLines (t : Table) (widths : List Nat) (r : Rules) (below : Bool) (texts : List String) :
    List Flow.Line :=
  let cells := (t.columns.zip (widths.zip texts)).map fun (c, w, s) => (w, cellLines w c s)
  let height := cells.foldl (fun n c => max n c.2.length) 1
  let filled := cells.map fun (w, lines) =>
    let missing := List.replicate (height - lines.length) (List.replicate w ' ')
    if below then lines ++ missing else missing ++ lines
  (List.range height).map fun i => r.line (filled.map fun lines => lines.getD i [])

/-- The lines of the table in a terminal of a given width. -/
def render (t : Table) (width : Nat) : List Flow.Line :=
  let widths := t.columnWidths width
  let title := Flow.layout (total widths + t.ruleWidth) .fold .center t.title
  let head := t.rowLines widths ⟨'┃', '┃', '┃'⟩ false (t.columns.map (·.header))
  let body := t.rows.flatMap (t.rowLines widths ⟨'│', '│', '│'⟩ true)
  let lines := title ++ Rules.fill ⟨'┏', '┳', '┓'⟩ '━' widths :: head
    ++ Rules.fill ⟨'┡', '╇', '┩'⟩ '━' widths :: body ++ [Rules.fill ⟨'└', '┴', '┘'⟩ '─' widths]
  lines.map (Flow.crop width)

end Table

end AssetLift

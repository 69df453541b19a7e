import AssetLift.Text.Blank
import AssetLift.Text.Width

/-!
# Flowing text into lines

A terminal shows a text in lines of a given number of cells. A line is broken before the word that
does not fit; a word that fits no line is folded over several, or cut.

* `Flow.sourceLines` — the lines of a text itself, free of control characters and tabs.
* `Flow.wrap` — a line broken at its words.
* `Flow.layout` — the lines of a text, broken, aligned and cut to a width.
-/

namespace AssetLift

namespace Flow

/-- A line of characters. -/
abbrev Line := List Char

/-- Where a line stands within its width. A `natural` line is not padded. -/
inductive Alignment where
  | natural
  | left
  | center
  | right
  deriving DecidableEq

/-- What becomes of a word that fits no line. -/
inductive Overflow where
  /-- It goes on in the next line. -/
  | fold
  /-- It is cut, and an ellipsis stands for the rest. -/
  | ellipsis
  deriving DecidableEq

/-! ## The lines of a text -/

/-- Whether a character moves the cursor in a way that lines cannot follow. -/
def isControl (c : Char) : Bool := [7, 8, 11, 12, 13].contains c.toNat

/-- The distance of tab stops. -/
def tabSize : Nat := 8

/-- Writes the stretches between tabs with blanks up to the next stop after each but the last, from a
column on. -/
def joinTabbed (column : Nat) : List Line → Line
  | [] => []
  | [last] => last
  | part :: rest =>
    let reached := column + Width.ofChars part
    let stop := (reached / tabSize + 1) * tabSize
    part ++ List.replicate (stop - reached) ' ' ++ joinTabbed stop rest

/-- Writes tabs as blanks. -/
def expandTabs (cs : Line) : Line := joinTabbed 0 (Blank.splitChars '\t' cs)

/-- The lines of a text as they are shown when no width limits them. -/
def sourceLines (text : String) : List Line :=
  (Blank.splitChars '\n' (text.toList.filter (!isControl ·))).map expandTabs

/-! ## Breaking a line -/

/-- Cuts off the first word: the blanks in front of it, the word, the blanks after it. -/
def splitWord (cs : Line) : Line × Line :=
  let (lead, more) := cs.span Blank.isBlank
  let (word, more) := more.span (!Blank.isBlank ·)
  let (trail, more) := more.span Blank.isBlank
  (lead ++ word ++ trail, more)

/-- The words of a line with the blanks around them, at most `fuel`. -/
def wordsUpTo : Nat → Line → List Line
  | 0, _ => []
  | fuel + 1, cs =>
    if cs.all Blank.isBlank then []
    else
      let (word, more) := splitWord cs
      word :: wordsUpTo fuel more

/-- The words of a line with the blanks around them. A line of blanks has none. -/
def words (cs : Line) : List Line := wordsUpTo cs.length cs

/-- Cuts characters into pieces that each fit a width. Before a first character that is too wide
there is an empty piece; characters without a width at the end make no piece. -/
def chop (width : Nat) (cs : Line) : List Line :=
  let (done, piece, size) := (Width.clusters cs).foldl (fun (done, piece, size) c =>
    if size + c.cells > width then (piece :: done, c.chars, c.cells)
    else (done, piece ++ c.chars, size + c.cells)) ([], [], 0)
  (if size = 0 then done else piece :: done).reverse

/-- The places where a line is broken, the last one first, and the cells that are taken in the line
at hand. -/
structure Draft where
  breaks : List Nat := []
  cells : Nat := 0

/-- Breaks the line at a place; it is not broken at its start. -/
def Draft.breakAt (d : Draft) (start : Nat) : Draft :=
  if start = 0 then d else { d with breaks := start :: d.breaks }

/-- Folds a word over lines: the pieces it is cut into start new lines. -/
def Draft.foldPieces (d : Draft) (start : Nat) : List Line → Draft
  | [] => d
  | [last] => { d.breakAt start with cells := Width.ofChars last }
  | piece :: rest => (d.breakAt start).foldPieces (start + piece.length) rest

/-- Places a word that starts at a place. The blanks after it may stand beyond the width. -/
def Draft.place (width : Nat) (o : Overflow) (d : Draft) (start : Nat) (word : Line) : Draft :=
  let size := Width.ofChars (Blank.trimEndChars word)
  if d.cells + size ≤ width then { d with cells := d.cells + Width.ofChars word }
  else if width < size then
    match o with
    | .fold => d.foldPieces start (chop width word)
    | .ellipsis => { d.breakAt start with cells := Width.ofChars word }
  else if d.cells ≠ 0 && start ≠ 0 then { d.breakAt start with cells := Width.ofChars word }
  else d

/-- Places words one after the other from a place on. -/
def placeAll (width : Nat) (o : Overflow) (d : Draft) (start : Nat) : List Line → Draft
  | [] => d
  | word :: rest => placeAll width o (d.place width o start word) (start + word.length) rest

/-- Cuts a line at places, the last one first; `after` are the lines after them. -/
def cutAt (cs : Line) : List Nat → List Line → List Line
  | [], after => cs :: after
  | i :: earlier, after => cutAt (cs.take i) earlier (cs.drop i :: after)

/-- A line broken at its words. -/
def wrap (width : Nat) (o : Overflow) (cs : Line) : List Line :=
  cutAt cs (placeAll width o {} 0 (words cs)).breaks []

/-! ## Fitting a line -/

/-- The first clusters, as many as fit; one that fits only in part leaves blanks. -/
def cropClusters (width : Nat) : List Width.Cluster → Line
  | [] => []
  | c :: rest =>
    if c.cells ≤ width then c.chars ++ cropClusters (width - c.cells) rest
    else List.replicate width ' '

/-- The first characters of a line, as many as fit. -/
def crop (width : Nat) (cs : Line) : Line :=
  if Width.ofChars cs ≤ width then cs
  else if width = 0 then []
  else cropClusters width (Width.clusters cs)

/-- Cuts a line that is too wide. -/
def truncate (width : Nat) (o : Overflow) (cs : Line) : Line :=
  if Width.ofChars cs ≤ width then cs
  else
    match o with
    | .fold => crop width cs
    | .ellipsis => crop (width - 1) cs ++ ['…']

/-- Adds blanks up to a width. -/
def pad (width : Nat) (cs : Line) : Line := cs ++ List.replicate (width - Width.ofChars cs) ' '

/-- Drops blanks at the end as far as the line is too long. -/
def dropExcess (width : Nat) (cs : Line) : Line :=
  let blanks := (cs.reverse.takeWhile Blank.isBlank).length
  cs.take (cs.length - min blanks (cs.length - width))

/-- Aligns a line within a width. -/
def align (width : Nat) (o : Overflow) (a : Alignment) (cs : Line) : Line :=
  match a with
  | .natural => truncate width o cs
  | .left => pad width (truncate width o cs)
  | .center =>
    let cs := truncate width o (Blank.trimEndChars cs)
    pad width (List.replicate ((width - Width.ofChars cs) / 2) ' ' ++ cs)
  | .right =>
    let cs := truncate width o (Blank.trimEndChars cs)
    List.replicate (width - Width.ofChars cs) ' ' ++ cs

/-- The lines of a text, broken, aligned and cut to a width. Where there is no room at all, there are
no lines. -/
def layout (width : Nat) (o : Overflow) (a : Alignment) (text : String) : List Line :=
  if width = 0 then []
  else
    (sourceLines text).flatMap fun cs =>
      (wrap width o cs).map fun line => align width o a (dropExcess width line)

end Flow

end AssetLift

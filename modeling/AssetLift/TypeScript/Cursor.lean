import AssetLift.Cst
import AssetLift.Text.Utf8
import AssetLift.Total

/-!
# Reading positions

A source file is read glyph by glyph: a glyph is a character, or a byte that is no part of one.

* `Glyph.ofBytes` — the glyphs of a file.
* `Cursor` — a place in a file, with the glyphs that follow it.
* `Cursor.skipTrivia` — the comments up to the next token.
-/

namespace AssetLift

namespace TypeScript

/-! ## Glyphs -/

/-- A character of a source file. A byte that is no part of a character is a glyph of its own that
is not valid. -/
structure Glyph where
  char : Char
  valid : Bool
  width : Nat

namespace Glyph

/-- Whether a glyph is a given character. -/
def is (c : Char) (g : Glyph) : Bool := g.valid && g.char = c

/-- Whether a glyph is a character of a class. -/
def isIn (p : Char → Bool) (g : Glyph) : Bool := g.valid && p g.char

/-- Whether a glyph may stand in a comment or a literal. No file holds a NUL. -/
def isText (g : Glyph) : Bool := !g.is '\x00'

/-- The character that bytes start with, and how many bytes write it. -/
def first? (b : Bytes) : Option (Char × Nat) :=
  [1, 2, 3, 4].findSome? fun width =>
    match Utf8.decode (b.take width) with
    | .ok s =>
      match s.toList with
      | [c] => some (c, width)
      | _ => none
    | .error _ => none

/-- The glyphs of bytes of which the first `skip` belong to a glyph already read. -/
def ofBytesFrom : Nat → Bytes → List Glyph
  | _, [] => []
  | skip + 1, _ :: rest => ofBytesFrom skip rest
  | 0, b :: rest =>
    match first? (b :: rest) with
    | some (c, width) => ⟨c, true, width⟩ :: ofBytesFrom (width - 1) rest
    | none => ⟨'\ufffd', false, 1⟩ :: ofBytesFrom 0 rest

/-- The glyphs of a file. -/
def ofBytes (b : Bytes) : List Glyph := ofBytesFrom 0 b

/-- Whether glyphs start with the characters of a text. -/
def startWith (cs : List Char) (gs : List Glyph) : Bool :=
  match cs, gs with
  | [], _ => true
  | c :: cs, g :: gs => g.is c && startWith cs gs
  | _ :: _, [] => false

end Glyph

/-! ## Blanks -/

/-- Blanks that separate tokens. -/
def isBlank (c : Char) : Bool :=
  c = ' ' || ('\t' ≤ c && c ≤ '\r') || c = '\u00a0' || c = '\u1680'
    || ('\u2000' ≤ c && c ≤ '\u200b') || c = '\u2028' || c = '\u2029' || c = '\u202f'
    || c = '\u205f' || c = '\u2060' || c = '\u3000' || c = '\ufeff'

/-- Blanks that are looked through for the end of a statement; blanks that forbid a line break are
not among them. -/
def isSpace (c : Char) : Bool :=
  c = ' ' || ('\t' ≤ c && c ≤ '\r') || c = '\u1680'
    || ('\u2000' ≤ c && c ≤ '\u200a' && c ≠ '\u2007') || c = '\u2028' || c = '\u2029'
    || c = '\u205f' || c = '\u3000'

/-- Characters that end a line comment. -/
def endsLine (c : Char) : Bool := c = '\n' || c = '\r' || c = '\u2028' || c = '\u2029'

/-! ## Cursors -/

/-- A place in a file. -/
structure Cursor where
  offset : Nat
  rest : List Glyph

namespace Cursor

/-- The start of a file. -/
def start (b : Bytes) : Cursor := ⟨0, Glyph.ofBytes b⟩

/-- The place `n` glyphs on. -/
def advance (c : Cursor) (n : Nat) : Cursor :=
  ⟨c.offset + total ((c.rest.take n).map (·.width)), c.rest.drop n⟩

/-- The place after blanks. -/
def skipBlanks (c : Cursor) : Cursor := c.advance (c.rest.takeWhile (·.isIn isBlank)).length

/-- The node of the next `n` glyphs, and the place after them. -/
def leaf (c : Cursor) (kind : String) (named : Bool) (n : Nat) : Cst × Cursor :=
  let next := c.advance n
  (.node { id := 0, kind, start := c.offset, stop := next.offset, named } [], next)

end Cursor

/-! ## Comments -/

/-- The length of a block comment, given what follows its opening: up to the closing mark, which
has to be there. -/
def blockLength : List Glyph → Option Nat
  | g :: h :: rest =>
    if g.is '*' && h.is '/' then some 2
    else if g.isText then (· + 1) <$> blockLength (h :: rest)
    else none
  | _ => none

/-- The length of the comment that glyphs start with. -/
def commentLength? : List Glyph → Option Nat
  | g :: h :: rest =>
    if g.is '/' && h.is '/' then
      some (2 + (rest.takeWhile fun g => g.isText && !g.isIn endsLine).length)
    else if g.is '/' && h.is '*' then (· + 2) <$> blockLength rest
    else none
  | _ => none

/-- The comment after the blanks at a place, if there is one. -/
def Cursor.comment? (c : Cursor) : Option (Cst × Cursor) :=
  let c := c.skipBlanks
  (c.leaf "comment" true) <$> commentLength? c.rest

/-- The comments up to the next token, at most one for each of the glyphs given, and the place of
that token. -/
def Cursor.skipTriviaFor : List Glyph → Cursor → List Cst × Cursor
  | [], c => ([], c.skipBlanks)
  | _ :: fuel, c =>
    match c.comment? with
    | some (node, next) =>
      let (more, last) := skipTriviaFor fuel next
      (node :: more, last)
    | none => ([], c.skipBlanks)

/-- The comments up to the next token, and the place of that token. -/
def Cursor.skipTrivia (c : Cursor) : List Cst × Cursor := c.skipTriviaFor c.rest

end TypeScript

end AssetLift

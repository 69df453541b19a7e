import AssetLift.TypeScript.Cursor

/-!
# Statements without a semicolon

A statement may end without a semicolon at the end of the file, before a closing brace, and at a
line break that the next line does not continue.

* `Semicolon.Outlook` — what else may follow at a place.
* `Semicolon.look` — whether a statement may end at a place; if not, how far was looked.
-/

namespace AssetLift

namespace TypeScript

namespace Semicolon

/-- What else may follow at a place. -/
structure Outlook where
  /-- The head of a function may end; a brace in the next line then opens its body. -/
  signature : Bool
  /-- An operator may follow; a bracket in the next line then goes on with the statement. -/
  operator : Bool

/-- What the characters after a place say. -/
inductive Verdict where
  /-- A statement may end here. -/
  | ends
  /-- The statement goes on; where that was seen, and whether past a comment. -/
  | goesOn (place : Cursor) (pastComment : Bool)

/-- The place after the characters of a class. -/
def skip (p : Char → Bool) (c : Cursor) : Cursor := c.advance (c.rest.takeWhile (·.isIn p)).length

/-- Whether a character stands at a place. -/
def isAt (c : Cursor) (char : Char) : Bool := c.rest.head?.any (·.is char)

/-- What comes after blanks and comments. -/
inductive Beyond where
  /-- Something that is no comment. -/
  | text (place : Cursor) (pastComment : Bool)
  /-- A slash that opens no comment. -/
  | slash (place : Cursor) (pastComment : Bool)

/-- What comes after blanks and comments, at most one comment for each of the glyphs given. -/
def beyondTrivia : List Glyph → Bool → Cursor → Beyond
  | [], past, c => .text (skip isSpace c) past
  | _ :: fuel, past, c =>
    let c := skip isSpace c
    if isAt c '/' then
      let c := c.advance 1
      if isAt c '/' then
        let c := c.advance 1
        let line := c.rest.takeWhile fun g => g.isText && !g.is '\n'
        beyondTrivia fuel true (c.advance line.length)
      else if isAt c '*' then
        let c := c.advance 1
        match blockLength c.rest with
        | some n => beyondTrivia fuel true (c.advance n)
        | none => .text (c.advance (c.rest.takeWhile (·.isText)).length) past
      else .slash c past
    else .text c past

/-- Letters of the alphabet; words of other alphabets do not matter after `in`. -/
def isLetter (c : Char) : Bool := ('a' ≤ c && c ≤ 'z') || ('A' ≤ c && c ≤ 'Z') || '\u00aa' ≤ c

/-- Whether a line that starts with an `i` goes on with a new statement, and not with the operators
`in` and `instanceof`. Given what follows the `i`. -/
def startsAnew (gs : List Glyph) : Bool :=
  match gs with
  | n :: rest =>
    if !n.is 'n' then true
    else if !rest.head?.any (·.isIn isLetter) then false
    else if !Glyph.startWith "stanceof".toList rest then true
    else (rest.drop 8).head?.any (·.isIn isLetter)
  | [] => true

/-- Whether a statement may end before a line that starts with the given glyphs. -/
def endsBefore (outlook : Outlook) (line : List Glyph) : Bool :=
  match line with
  | [] => true
  | g :: rest =>
    if !g.valid then true
    else if "\x60,.;*%><=?^|&/:".toList.contains g.char then false
    else if g.char = '\x7b' then !outlook.signature
    else if g.char = '(' || g.char = '[' then !outlook.operator
    else if g.char = '+' then Glyph.startWith ['+'] rest
    else if g.char = '-' then Glyph.startWith ['-'] rest
    else if g.char = '!' then !Glyph.startWith ['='] rest
    else if g.char = 'i' then startsAnew rest
    else true

/-- Whether a statement may end at a place. Before a brace that a colon follows it may only where an
operator may follow: else the brace belongs to a pattern with a type. -/
def look (outlook : Outlook) (c : Cursor) : Verdict :=
  let c := skip (fun ch => isSpace ch && ch ≠ '\n') c
  match c.rest with
  | [] => .ends
  | g :: _ =>
    if !g.isText then .ends
    else if g.is '\x7d' then
      let c := skip isSpace (c.advance 1)
      if isAt c ':' && !outlook.operator then .goesOn c false else .ends
    else if g.is '\n' then
      match beyondTrivia c.rest false (c.advance 1) with
      | .slash c past => .goesOn c past
      | .text c past => if endsBefore outlook c.rest then .ends else .goesOn c past
    else .goesOn c false

end Semicolon

end TypeScript

end AssetLift

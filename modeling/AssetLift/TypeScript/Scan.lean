import AssetLift.TypeScript.Lexeme
import AssetLift.TypeScript.Semicolon

/-!
# Taking tokens off a file

Which token stands at a place depends on the tokens that are acceptable there. Tokens that depend on
what is around them come first; of the others the longest is taken.

* `Scan.Found` — a token with its place.
* `Scan.contextual?` — ends without a semicolon, templates, the question mark of a conditional
  expression, comments in angle brackets.
* `Scan.plain?` — all other tokens.
* `Scan.next?` — the token at a place.
-/

namespace AssetLift

namespace TypeScript

namespace Scan

/-- A token: where it starts, and how many glyphs it takes. -/
structure Found where
  lexeme : Lexeme
  place : Cursor
  length : Nat

/-- The acceptable tokens. -/
abbrev Acceptable := Lexeme → Bool

/-! ## Tokens that depend on their surroundings -/

/-- The question mark of a conditional expression. One that a colon, a comma or a closing
parenthesis follows makes a parameter optional. -/
def ternary? (c : Cursor) : Option Found :=
  let c := Semicolon.skip isSpace c
  if Semicolon.isAt c '?' then
    let after := c.advance 1
    if Semicolon.isAt after '?' || Semicolon.isAt after '.' then none
    else
      let after := Semicolon.skip isSpace after
      if [':', ')', ','].any (Semicolon.isAt after) then none
      else if Semicolon.isAt after '.'
          && !(after.advance 1).rest.head?.any (·.isIn Lexeme.isDigit) then none
      else some ⟨.ternaryMark, c, 1⟩
  else none

/-- A comment that starts with an angle bracket, or that ends one. -/
def htmlComment? (c : Cursor) : Option Found :=
  let c := Semicolon.skip (fun ch => isSpace ch || ch = '\u2028' || ch = '\u2029') c
  if Glyph.startWith "<!--".toList c.rest || Glyph.startWith "-->".toList c.rest then
    let line := c.rest.takeWhile fun g =>
      g.isText && !g.isIn fun ch => ch = '\n' || ch = '\u2028' || ch = '\u2029'
    some ⟨.htmlComment, c, line.length⟩
  else none

/-- The stretch of a template up to an escape, a substitution or its end; none if the file ends
first. -/
def templateText? (c : Cursor) : Option Found :=
  let n := Lexeme.templateLength c.rest
  if 0 < n && (c.rest.drop n).head?.any (·.isText) then some ⟨.templateText, c, n⟩ else none

/-- The token at a place whose presence depends on what is around it. -/
def contextual? (accepts : Acceptable) (c : Cursor) : Option Found :=
  if accepts .templateText then
    if accepts .statementEnd then none else templateText? c
  else if accepts .statementEnd || accepts .signatureEnd then
    match Semicolon.look ⟨accepts .signatureEnd, accepts (.mark "||")⟩ c with
    | .ends => some ⟨.statementEnd, c, 0⟩
    | .goesOn there pastComment =>
      if !pastComment && accepts .ternaryMark && Semicolon.isAt there '?' then ternary? there
      else none
  else if accepts .ternaryMark then ternary? c
  else if !accepts (.mark "||") && !accepts .escape && !accepts .regexText then htmlComment? c
  else none

/-! ## Other tokens -/

/-- A token of a class at a place. -/
def at? (accepts : Acceptable) (c : Cursor) (l : Lexeme) : Option Found :=
  (l.length? c.rest).bind fun n => if accepts l then some ⟨l, c, n⟩ else none

/-- The longer of two tokens, the first if they are of one length. -/
def longer (a b : Option Found) : Option Found :=
  match a, b with
  | some x, some y => if x.length < y.length then b else a
  | some _, none => a
  | none, _ => b

/-- The word at a place: a keyword if it is acceptable there, else an identifier. -/
def word? (isKeyword : String → Option Lexeme) (accepts : Acceptable) (c : Cursor) :
    Option Found :=
  match Lexeme.wordLength c.rest with
  | 0 => none
  | n + 1 =>
    match (isKeyword (String.ofList (Lexeme.wordChars c.rest))).filter accepts with
    | some l => some ⟨l, c, n + 1⟩
    | none => some ⟨.identifier, c, n + 1⟩

/-- A token that follows what is before it at once. -/
def joined? (accepts : Acceptable) (c : Cursor) : Option Found :=
  [.singleText, .doubleText, .regexEnd, .escape].findSome? (at? accepts c)

/-- The longest of the acceptable tokens that do not depend on what is around them. The text of a
regular expression gives way to a comment. -/
def plain? (marks : List Lexeme) (isKeyword : String → Option Lexeme) (accepts : Acceptable)
    (c : Cursor) : Option Found :=
  match joined? accepts c with
  | some found => some found
  | none =>
    let blank := c.skipBlanks
    let free := [.comment, .hashBang, .number, .privateName, .endOfFile] ++ marks
    let found := (free.map (at? accepts blank)).foldl longer (word? isKeyword accepts blank)
    let flags := at? accepts c .regexFlags
    match found, at? accepts c .regexText with
    | some f, some text => if f.lexeme = .comment then some f else some text
    | none, some text => some text
    | found, none => longer flags found

/-- The token at a place. -/
def next? (marks : List Lexeme) (isKeyword : String → Option Lexeme) (accepts : Acceptable)
    (c : Cursor) : Option Found :=
  contextual? accepts c <|> plain? marks isKeyword accepts c

end Scan

end TypeScript

end AssetLift

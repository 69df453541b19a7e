import AssetLift.Grammar.Rule
import AssetLift.TypeScript.Cursor

/-!
# Lexemes

The classes of character sequences that tokens are made of.

* `Lexeme` — the classes.
* `Lexeme.title?` — the name of a token's node, if it has one.
* `Lexeme.length?` — how many of the glyphs at a place a lexeme takes.
-/

namespace AssetLift

namespace TypeScript

/-- A class of character sequences. -/
inductive Lexeme where
  | endOfFile
  | mark (text : String)
  | keyword (text : String)
  /-- A keyword that is a node of its own. -/
  | namedWord (text : String)
  | identifier
  | privateName
  | number
  | comment
  | htmlComment
  | hashBang
  /-- A stretch of a string between single quotes. -/
  | singleText
  /-- A stretch of a string between double quotes. -/
  | doubleText
  | templateText
  | escape
  | regexText
  /-- The slash that ends a regular expression. -/
  | regexEnd
  | regexFlags
  /-- The question mark of a conditional expression. -/
  | ternaryMark
  /-- The end of a statement without a semicolon. -/
  | statementEnd
  /-- The end of a function's head without a body. -/
  | signatureEnd
  deriving DecidableEq, Hashable

namespace Lexeme

/-- The name of a token's node; ends without a semicolon have none. -/
def title? : Lexeme → Option Grammar.Title
  | endOfFile | statementEnd | signatureEnd | templateText | ternaryMark => none
  | mark text | keyword text => some ⟨text, false⟩
  | namedWord text => some ⟨text, true⟩
  | identifier => some ⟨"identifier", true⟩
  | privateName => some ⟨"private_property_identifier", true⟩
  | number => some ⟨"number", true⟩
  | comment => some ⟨"comment", true⟩
  | htmlComment => some ⟨"html_comment", true⟩
  | hashBang => some ⟨"hash_bang_line", true⟩
  | singleText | doubleText => some ⟨"string_fragment", true⟩
  | escape => some ⟨"escape_sequence", true⟩
  | regexText => some ⟨"regex_pattern", true⟩
  | regexEnd => some ⟨"/", false⟩
  | regexFlags => some ⟨"regex_flags", true⟩

/-! ## Words -/

/-- Decimal digits. -/
def isDigit (c : Char) : Bool := '0' ≤ c && c ≤ '9'

/-- Hexadecimal digits. -/
def isHex (c : Char) : Bool := isDigit c || ('a' ≤ c && c ≤ 'f') || ('A' ≤ c && c ≤ 'F')

/-- Octal digits. -/
def isOctal (c : Char) : Bool := '0' ≤ c && c ≤ '7'

/-- Characters that stand for marks and so belong to no word. -/
def punctuation : List Char := ":;\x60\"'@#.,|^&<=>+-*/\\%?!~()[]\x7b\x7d".toList

/-- Whether a character can be part of a word. -/
def isWordChar (c : Char) : Bool :=
  ' ' < c && !isBlank c && !punctuation.contains c

/-- The length of digits in braces, the closing brace included; zero if they are not that. -/
def bracedDigits (gs : List Glyph) : Nat :=
  match gs with
  | g :: rest =>
    let digits := (rest.takeWhile (·.isIn isHex)).length
    if g.is '\x7b' && 0 < digits && Glyph.startWith ['\x7d'] (rest.drop digits) then digits + 2
    else 0
  | [] => 0

/-- Whether glyphs start with `n` hexadecimal digits. -/
def startsWithHex (n : Nat) (gs : List Glyph) : Bool :=
  ((gs.take n).takeWhile (·.isIn isHex)).length = n

/-- The length of a `\u` escape with all its digits; zero if glyphs do not start with one. -/
def codeEscape (gs : List Glyph) : Nat :=
  if Glyph.startWith ['\\', 'u'] gs then
    let rest := gs.drop 2
    if startsWithHex 4 rest then 6
    else
      match bracedDigits rest with
      | 0 => 0
      | n + 1 => n + 3
  else 0

/-- The length of a word of which `skip` more glyphs belong to an escape. A word does not start
with a digit. -/
def wordFrom (first : Bool) : Nat → List Glyph → Nat
  | _, [] => 0
  | skip + 1, _ :: rest => 1 + wordFrom false skip rest
  | 0, g :: rest =>
    if g.isIn (fun c => isWordChar c && !(first && isDigit c)) then 1 + wordFrom false 0 rest
    else
      match codeEscape (g :: rest) with
      | 0 => 0
      | n + 1 => 1 + wordFrom false n rest

/-- The length of the word that glyphs start with. -/
def wordLength (gs : List Glyph) : Nat := wordFrom true 0 gs

/-- The characters of the word that glyphs start with. -/
def wordChars (gs : List Glyph) : List Char := (gs.take (wordLength gs)).map (·.char)

/-- A length that is not zero. -/
def positive? : Nat → Option Nat
  | 0 => none
  | n + 1 => some (n + 1)

/-! ## Numbers -/

/-- The length of digits in which single underscores may stand between two. -/
def digitRun (isDigit : Char → Bool) : List Glyph → Nat
  | g :: h :: rest =>
    if !g.isIn isDigit then 0
    else if h.is '_' then
      match digitRun isDigit rest with
      | 0 => 1
      | n + 1 => n + 3
    else 1 + digitRun isDigit (h :: rest)
  | [g] => if g.isIn isDigit then 1 else 0
  | [] => 0

/-- The length of an exponent; zero if there is none. -/
def exponentLength (gs : List Glyph) : Nat :=
  match gs with
  | e :: rest =>
    if e.is 'e' || e.is 'E' then
      let signed := rest.head?.any fun g => g.is '+' || g.is '-'
      let lead := if signed then 2 else 1
      match digitRun isDigit (gs.drop lead) with
      | 0 => 0
      | n + 1 => lead + n + 1
    else 0
  | [] => 0

/-- The length of a fraction without its point, with an exponent if there is one. -/
def fractionLength (gs : List Glyph) : Nat :=
  let digits := digitRun isDigit gs
  digits + exponentLength (gs.drop digits)

/-- Whether digits can stand before a point: no zero in front but a single one. -/
def leadsPoint (digits : List Glyph) : Bool :=
  match digits with
  | [g] => g.isIn isDigit
  | g :: h :: _ => !g.is '0' || (h.isIn isDigit && !h.is '0')
  | [] => false

/-- The length of digits in another base after a zero and a letter, with an `n` if there is one. -/
def basedLength (letter : Char) (isDigit : Char → Bool) (gs : List Glyph) : Nat :=
  match gs with
  | z :: x :: rest =>
    if z.is '0' && x.isIn (fun c => c.toLower = letter) then
      match digitRun isDigit rest with
      | 0 => 0
      | n + 1 => n + 3 + if Glyph.startWith ['n'] (rest.drop (n + 1)) then 1 else 0
    else 0
  | _ => 0

/-- The length of a decimal number; zero if there is none. -/
def decimalLength (gs : List Glyph) : Nat :=
  let run := digitRun isDigit gs
  let after := gs.drop run
  if run = 0 then
    if Glyph.startWith ['.'] gs && 0 < digitRun isDigit (gs.drop 1) then
      1 + fractionLength (gs.drop 1)
    else 0
  else if Glyph.startWith ['n'] after then run + 1
  else if leadsPoint (gs.take run) then
    if Glyph.startWith ['.'] after then run + 1 + fractionLength (after.drop 1)
    else run + exponentLength after
  else run

/-- The length of a number; zero if there is none. -/
def numberLength (gs : List Glyph) : Nat :=
  [basedLength 'x' isHex gs, basedLength 'b' (fun c => c = '0' || c = '1') gs,
    basedLength 'o' isOctal gs, decimalLength gs].foldl max 0

/-! ## Literals -/

/-- The length of an escape; zero if it lacks its digits. -/
def escapeLength (gs : List Glyph) : Nat :=
  match gs with
  | b :: g :: rest =>
    if !b.is '\\' || !g.isText then 0
    else if g.is 'u' then codeEscape gs
    else if g.is 'x' then if startsWithHex 2 rest then 4 else 0
    else if g.isIn isOctal then
      1 + (((g :: rest).take 3).takeWhile (·.isIn isOctal)).length
    else if (g.is '\r' || g.is '?')
        && rest.head?.any (·.isIn fun c => c = '\n' || c = '\u2028' || c = '\u2029') then 3
    else 2
  | _ => 0

/-- The length of a template's stretch, up to an escape, a substitution or the end of it. -/
def templateLength : List Glyph → Nat
  | g :: rest =>
    if g.is '\x60' || g.is '\\' || !g.isText then 0
    else if g.is '$' && Glyph.startWith ['\x7b'] rest then 0
    else 1 + templateLength rest
  | [] => 0

/-- The length of a string's stretch, up to an escape, a line break or the end of it. -/
def textLength (quote : Char) (gs : List Glyph) : Nat :=
  (gs.takeWhile fun g =>
    g.isText && !(g.is quote || g.is '\\' || g.is '\n' || g.is '\r')).length

/-- The length of a class in a regular expression, given what follows its opening bracket; none if
it is not closed in its line. -/
def regexClass : List Glyph → Option Nat
  | g :: h :: rest =>
    if g.is ']' then some 1
    else if g.is '\n' || !g.isText then none
    else if g.is '\\' then
      if h.is '\n' || !h.isText then none else (· + 2) <$> regexClass rest
    else (· + 1) <$> regexClass (h :: rest)
  | [g] => if g.is ']' then some 1 else none
  | [] => none

/-- The length of a regular expression's body, of which `skip` more glyphs have been read. -/
def regexFrom : Nat → List Glyph → Nat
  | _, [] => 0
  | skip + 1, _ :: rest => 1 + regexFrom skip rest
  | 0, g :: rest =>
    if g.is '/' || g.is '\n' || !g.isText then 0
    else if g.is '\\' then
      match rest with
      | h :: _ => if h.is '\n' || !h.isText then 0 else 1 + regexFrom 1 rest
      | [] => 0
    else if g.is '[' then
      match regexClass rest with
      | some n => 1 + regexFrom n rest
      | none => 0
    else 1 + regexFrom 0 rest

/-- The length of a regular expression's body. -/
def regexLength (gs : List Glyph) : Nat := regexFrom 0 gs

/-! ## The classes -/

/-- How many of the glyphs at a place a lexeme takes; none if it does not stand there. A comment in
angle brackets, the question mark of a conditional expression and ends without a semicolon depend on
what is around them and are not found here. -/
def length? (l : Lexeme) (gs : List Glyph) : Option Nat :=
  match l with
  | endOfFile => if gs.isEmpty then some 0 else none
  | mark text => if Glyph.startWith text.toList gs then some text.length else none
  | keyword text | namedWord text => if wordChars gs = text.toList then some text.length else none
  | identifier => positive? (wordLength gs)
  | privateName =>
    match gs with
    | g :: rest => if g.is '#' then (· + 1) <$> positive? (wordLength rest) else none
    | [] => none
  | number => positive? (numberLength gs)
  | comment => commentLength? gs
  | singleText => positive? (textLength '\'' gs)
  | doubleText => positive? (textLength '"' gs)
  | templateText => positive? (templateLength gs)
  | escape => positive? (escapeLength gs)
  | regexText => positive? (regexLength gs)
  | regexEnd => if Glyph.startWith ['/'] gs then some 1 else none
  | regexFlags => positive? (gs.takeWhile (·.isIn fun c => 'a' ≤ c && c ≤ 'z')).length
  | hashBang =>
    if Glyph.startWith ['#', '!'] gs then
      some (gs.takeWhile fun g => g.isText && !g.is '\n').length
    else none
  | htmlComment | ternaryMark | statementEnd | signatureEnd => none

end Lexeme

end TypeScript

end AssetLift

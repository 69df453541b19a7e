import AssetLift.Bytes
import AssetLift.Text.CodePoint

/-!
# String literals

The text between the delimiters of a string or template literal is read left to right. A backslash
opens an escape; every other character stands for itself. In a template every line break is read as
a line feed first.

* `Literal.escapeAt` — the one escape that starts after a backslash.
* `Literal.cook` — the code points of a body, escapes resolved.
* `Literal.decode` — the text of a body, surrogate halves joined.
-/

namespace AssetLift

namespace Literal

/-- How a literal is written: between quotes, or between backticks. -/
inductive Delimiter where
  | quote
  | backtick
  deriving DecidableEq

/-- The name of a delimiter in reports. -/
def Delimiter.name : Delimiter → String
  | .quote => "quoted"
  | .backtick => "template"

/-- Why a body has no text. -/
inductive Fault where
  /-- An escape names a number past the last code point. -/
  | outOfRange
  /-- An escape names a number of more than 31 bits. -/
  | tooLarge
  /-- A surrogate half stands alone. -/
  | unpaired (unit : CodePoint.BadUnit)
  deriving DecidableEq

/-- The wording of each fault. -/
def Fault.message : Fault → String
  | .outOfRange => "chr() arg not in range(0x110000)"
  | .tooLarge => "Python int too large to convert to C int"
  | .unpaired unit => unit.message

/-! ## Escapes -/

/-- Whether a character is a hexadecimal digit. -/
def isHex (c : Char) : Bool := (Bytes.hexValue? c).isSome

/-- The code point with a given number. -/
def codePoint (n : Nat) : Except Fault CodePoint :=
  if h : n < 0x110000 then .ok ⟨n, h⟩
  else if n < 0x80000000 then .error .outOfRange
  else .error .tooLarge

/-- An escape: the code points it stands for, and how many characters after the backslash write
it. -/
structure Escape where
  points : Except Fault (List CodePoint)
  width : Nat

/-- The escape that names a code point by its number. -/
def Escape.numbered (digits : List Char) (width : Nat) : Escape :=
  ⟨(fun p => [p]) <$> codePoint (Bytes.hexNumber digits), width⟩

/-- What a single character after a backslash stands for. A line break stands for nothing, so that
the literal goes on in the next line. -/
def single (c : Char) : List CodePoint :=
  match c with
  | 'n' => [10]
  | 't' => [9]
  | 'r' => [13]
  | 'b' => [8]
  | 'f' => [12]
  | 'v' => [11]
  | '0' => [0]
  | '\n' | '\r' | '\u2028' | '\u2029' => []
  | _ => [CodePoint.ofChar c]

/-- The escape written by a single character. -/
def Escape.ofChar (c : Char) : Escape := ⟨.ok (single c), 1⟩

/-- The escape of a `u`, given what follows it: digits in braces, or exactly four digits; a `u`
followed by neither stands for itself. -/
def unicodeEscape (rest : List Char) : Escape :=
  match rest with
  | '\x7b' :: more =>
    let digits := more.takeWhile isHex
    match digits, more.dropWhile isHex with
    | _ :: _, '\x7d' :: _ => .numbered digits (digits.length + 3)
    | _, _ => .ofChar 'u'
  | a :: b :: c :: d :: _ =>
    if isHex a && isHex b && isHex c && isHex d then .numbered [a, b, c, d] 5 else .ofChar 'u'
  | _ => .ofChar 'u'

/-- The escape of an `x`, given what follows it: exactly two digits, else it stands for itself. -/
def hexEscape (rest : List Char) : Escape :=
  match rest with
  | a :: b :: _ => if isHex a && isHex b then .numbered [a, b] 3 else .ofChar 'x'
  | _ => .ofChar 'x'

/-- The escape that the characters after a backslash start with; none at the end of the body. -/
def escapeAt : List Char → Option Escape
  | [] => none
  | 'u' :: rest => some (unicodeEscape rest)
  | 'x' :: rest => some (hexEscape rest)
  | '\r' :: '\n' :: _ => some ⟨.ok [], 2⟩
  | c :: _ => some (.ofChar c)

/-! ## Bodies -/

/-- Cooks a body of which the first `skip` characters belong to an escape already read. -/
def cookFrom : Nat → List Char → Except Fault (List CodePoint)
  | _, [] => .ok []
  | skip + 1, _ :: rest => cookFrom skip rest
  | 0, c :: rest =>
    if c = '\\' then
      match escapeAt rest with
      | none => (CodePoint.ofChar c :: ·) <$> cookFrom 0 rest
      | some e => do
        let points ← e.points
        (points ++ ·) <$> cookFrom e.width rest
    else (CodePoint.ofChar c :: ·) <$> cookFrom 0 rest

/-- The code points of a body, escapes resolved. A backslash at the very end stands for itself. -/
def cook (body : List Char) : Except Fault (List CodePoint) := cookFrom 0 body

/-- A body with every line break written as a line feed. -/
def unifyLineBreaks : List Char → List Char
  | [] => []
  | '\r' :: '\n' :: rest => '\n' :: unifyLineBreaks rest
  | c :: rest => (if c = '\r' then '\n' else c) :: unifyLineBreaks rest

/-- The text of a literal's body. -/
def decode (delimiter : Delimiter) (body : String) : Except Fault String := do
  let chars := match delimiter with
    | .quote => body.toList
    | .backtick => unifyLineBreaks body.toList
  let points ← cook chars
  (CodePoint.join points).mapError .unpaired

end Literal

end AssetLift

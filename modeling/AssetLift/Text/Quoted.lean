import AssetLift.Bytes
import AssetLift.Text.CodePoint
import AssetLift.Text.Printable

/-!
# Quoted texts

How a text is shown inside a message: between quotes, with what is not printable escaped. Single
quotes are used unless the text has a single quote and no double quote.

* `Quoted.render` — the quoted text.
* `Quoted.renderPoints` — the same for code points that may be no characters.
* `Quoted.renderBytes` — the same for bytes.
-/

namespace AssetLift

namespace Quoted

/-- The last `width` hexadecimal digits of a number. -/
def hexDigits : Nat → Nat → List Char
  | 0, _ => []
  | width + 1, n => hexDigits width (n / 16) ++ [Nat.digitChar (n % 16)]

/-- A character between quotes. -/
def escape (quote c : Char) : List Char :=
  if c = quote || c = '\\' then ['\\', c]
  else if c = '\n' then ['\\', 'n']
  else if c = '\r' then ['\\', 'r']
  else if c = '\t' then ['\\', 't']
  else if Printable.isPrintable c then [c]
  else if c.toNat < 0x100 then '\\' :: 'x' :: hexDigits 2 c.toNat
  else if c.toNat < 0x10000 then '\\' :: 'u' :: hexDigits 4 c.toNat
  else '\\' :: 'U' :: hexDigits 8 c.toNat

/-- The quote a text is shown between. -/
def quoteFor (cs : List Char) : Char :=
  if cs.contains '\'' && !cs.contains '"' then '"' else '\''

/-- The text between quotes. -/
def render (s : String) : String :=
  let quote := quoteFor s.toList
  String.ofList ([quote] ++ s.toList.flatMap (escape quote) ++ [quote])

/-! ## Code points -/

/-- A code point between quotes. -/
def escapePoint (quote : Char) (p : CodePoint) : List Char :=
  match p.toChar? with
  | some c => escape quote c
  | none => '\\' :: 'u' :: hexDigits 4 p.val

/-- Code points between quotes. -/
def renderPoints (ps : List CodePoint) : String :=
  let quote := quoteFor (CodePoint.chars ps)
  String.ofList ([quote] ++ ps.flatMap (escapePoint quote) ++ [quote])

/-! ## Bytes -/

/-- A byte between quotes: only ASCII is shown as it is. -/
def escapeByte (quote : Char) (b : UInt8) : List Char :=
  if b < 128 then escape quote (Char.ofNat b.toNat) else '\\' :: 'x' :: hexDigits 2 b.toNat

/-- Bytes between quotes. -/
def renderBytes (b : Bytes) : String :=
  let quote := quoteFor (b.map fun x => Char.ofNat x.toNat)
  String.ofList (['b', quote] ++ b.flatMap (escapeByte quote) ++ [quote])

end Quoted

end AssetLift

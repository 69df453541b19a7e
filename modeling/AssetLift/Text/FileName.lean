import AssetLift.Text.Utf8

/-!
# File names

A file system holds names as bytes, and names are read as texts. A byte that is no part of a
character is read as the half of a surrogate pair that stands for it, and is written back from
there. So every name has a text, but not every text is that of a name.

* `FileName.text`, `FileName.bytes` — reading and writing; a name that was read is written back.
* `FileName.fault?` — the first halves in a text that stand for no bytes.
-/

namespace AssetLift

namespace FileName

/-- The half of a surrogate pair that stands for a byte. -/
def escape (b : UInt8) : CodePoint := ⟨0xDC00 + b.toNat, by have := b.toNat_lt; omega⟩

/-- Whether a code point stands for a byte that is no part of a character. -/
def isEscape (p : CodePoint) : Bool := 0xDC80 ≤ p.val && p.val < 0xDD00

/-! ## Writing -/

/-- The bytes of a code point; none for a half that stands for no byte. -/
def bytesOf (p : CodePoint) : Bytes :=
  if isEscape p then [UInt8.ofNat (p.val - 0xDC00)]
  else if p.isHalf then []
  else String.utf8EncodeChar (Char.ofNat p.val)

/-- The bytes of a text. -/
def bytes (t : Text) : Bytes := t.flatMap bytesOf

/-- The fault of a text, the first code point of which stands at `position`. -/
def faultFrom? (position : Nat) : Text → Option Utf8.BadText
  | [] => none
  | p :: rest =>
    if p.isHalf && !isEscape p then
      some ⟨position, 1 + (rest.takeWhile CodePoint.isHalf).length, p⟩
    else faultFrom? (position + 1) rest

/-- Why a text is not that of bytes. -/
def fault? (t : Text) : Option Utf8.BadText := faultFrom? 0 t

/-! ## Reading -/

/-- The character that bytes start with. -/
def charAt? (b : Bytes) : Option Char := b.toByteArray.utf8DecodeChar? 0

/-- The text of bytes without the first `skip`, which belong to a character read before. -/
def textFrom (skip : Nat) : Bytes → Text
  | [] => []
  | b :: rest =>
    match skip with
    | more + 1 => textFrom more rest
    | 0 =>
      match charAt? (b :: rest) with
      | some c => .ofChar c :: textFrom (c.utf8Size - 1) rest
      | none => escape b :: textFrom 0 rest

/-- The text of bytes. -/
def text (b : Bytes) : Text := textFrom 0 b

end FileName

end AssetLift

import AssetLift.Bytes
import AssetLift.Text.CodePoint

/-!
# UTF-8

* `Utf8.decode` — the text of a byte string, or the first place where it is not UTF-8.
* `Utf8.decodeBlocks` — the same for bytes that come in blocks.
* `Utf8.encode` — the bytes of a sequence of code points, or the first surrogates in it, which have
  no bytes.
-/

namespace AssetLift

namespace Utf8

/-! ## Reading -/

/-- Why bytes are not UTF-8. -/
inductive Defect where
  | invalidStart
  | invalidContinuation
  | unexpectedEnd
  deriving DecidableEq

/-- The wording of each defect. -/
def Defect.reason : Defect → String
  | .invalidStart => "invalid start byte"
  | .invalidContinuation => "invalid continuation byte"
  | .unexpectedEnd => "unexpected end of data"

/-- The first place where a byte string is not UTF-8: `count` bytes from `position` on, the first of
which is `byte`. -/
structure BadBytes where
  position : Nat
  count : Nat
  byte : UInt8
  defect : Defect
  deriving DecidableEq

/-- A byte as two hexadecimal digits. -/
def hexByte (b : UInt8) : String :=
  String.ofList [Nat.digitChar (b.toNat / 16), Nat.digitChar (b.toNat % 16)]

/-- The wording of the fault. -/
def BadBytes.message (f : BadBytes) : String :=
  let place :=
    if f.count ≤ 1 then s!"byte 0x{hexByte f.byte} in position {f.position}"
    else s!"bytes in position {f.position}-{f.position + f.count - 1}"
  s!"'utf-8' codec can't decode {place}: " ++ f.defect.reason

/-- Whether a byte may follow the first byte of a character. -/
def isContinuation (b : UInt8) : Bool := 0x80 ≤ b && b ≤ 0xBF

/-- The six bits a continuation byte carries. -/
def payload (b : UInt8) : Nat := b.toNat % 0x40

/-- Whether `b` may stand second after `lead`: the shortest form is demanded, surrogates and values
past the last code point are refused. -/
def secondFits (lead b : UInt8) : Bool :=
  isContinuation b &&
    (if lead = 0xE0 then 0xA0 ≤ b
     else if lead = 0xED then b < 0xA0
     else if lead = 0xF0 then 0x90 ≤ b
     else if lead = 0xF4 then b < 0x90
     else true)

/-- Reads bytes, the first of which stands at `position`. -/
def decodeFrom (position : Nat) : Bytes → Except BadBytes (List Char)
  | [] => .ok []
  | b :: rest =>
    if b < 0x80 then (Char.ofNat b.toNat :: ·) <$> decodeFrom (position + 1) rest
    else if 0xC2 ≤ b && b ≤ 0xDF then
      match rest with
      | [] => .error ⟨position, 1, b, .unexpectedEnd⟩
      | c :: more =>
        if isContinuation c then
          (Char.ofNat (b.toNat % 0x20 * 0x40 + payload c) :: ·) <$> decodeFrom (position + 2) more
        else .error ⟨position, 1, b, .invalidContinuation⟩
    else if 0xE0 ≤ b && b ≤ 0xEF then
      match rest with
      | [] => .error ⟨position, 1, b, .unexpectedEnd⟩
      | c :: more =>
        if secondFits b c then
          match more with
          | [] => .error ⟨position, 2, b, .unexpectedEnd⟩
          | d :: tail =>
            if isContinuation d then
              (Char.ofNat ((b.toNat % 0x10 * 0x40 + payload c) * 0x40 + payload d) :: ·)
                <$> decodeFrom (position + 3) tail
            else .error ⟨position, 2, b, .invalidContinuation⟩
        else .error ⟨position, 1, b, .invalidContinuation⟩
    else if 0xF0 ≤ b && b ≤ 0xF4 then
      match rest with
      | [] => .error ⟨position, 1, b, .unexpectedEnd⟩
      | c :: more =>
        if secondFits b c then
          match more with
          | [] => .error ⟨position, 2, b, .unexpectedEnd⟩
          | d :: tail =>
            if isContinuation d then
              match tail with
              | [] => .error ⟨position, 3, b, .unexpectedEnd⟩
              | e :: last =>
                if isContinuation e then
                  (Char.ofNat (((b.toNat % 8 * 0x40 + payload c) * 0x40 + payload d) * 0x40
                    + payload e) :: ·) <$> decodeFrom (position + 4) last
                else .error ⟨position, 3, b, .invalidContinuation⟩
            else .error ⟨position, 2, b, .invalidContinuation⟩
        else .error ⟨position, 1, b, .invalidContinuation⟩
    else .error ⟨position, 1, b, .invalidStart⟩

/-- The text of a byte string. -/
def decode (b : Bytes) : Except BadBytes String := String.ofList <$> decodeFrom 0 b

/-! ## Reading by blocks -/

/-- The blocks of a byte string; all but the last hold `size` bytes. -/
def blocks (size : Nat) (b : Bytes) : List Bytes :=
  (List.range ((b.length + size - 1) / size)).map fun i => (b.drop (i * size)).take size

/-- The characters at the front of a byte string, and the bytes of a character that its end cuts. -/
def decodeFront (b : Bytes) : Except BadBytes (List Char × Bytes) :=
  match decodeFrom 0 b with
  | .ok cs => .ok (cs, [])
  | .error f =>
    if f.defect = .unexpectedEnd then
      (·, b.drop f.position) <$> decodeFrom 0 (b.take f.position)
    else .error f

/-- Reads blocks one after the other. The bytes of a cut character are kept for the next block, and
a place is counted from the first byte kept. -/
def decodeBlocksAfter (kept : Bytes) : List Bytes → Except BadBytes (List Char)
  | [] => decodeFrom 0 kept
  | b :: rest => do
    let (front, cut) ← decodeFront (kept ++ b)
    return front ++ (← decodeBlocksAfter cut rest)

/-- The text of a byte string that is read by blocks. It is the text that `decode` gives, and of bytes
that are not UTF-8 the place is one within a block. -/
def decodeBlocks (size : Nat) (b : Bytes) : Except BadBytes String :=
  String.ofList <$> decodeBlocksAfter [] (blocks size b)

/-! ## Writing -/

/-- A run of surrogates, which UTF-8 cannot write. -/
structure BadText where
  position : Nat
  count : Nat
  first : CodePoint
  deriving DecidableEq

/-- The last four hexadecimal digits of a number. -/
def hexWord (n : Nat) : String :=
  String.ofList [Nat.digitChar (n / 0x1000 % 16), Nat.digitChar (n / 0x100 % 16),
    Nat.digitChar (n / 16 % 16), Nat.digitChar (n % 16)]

/-- The wording of the fault. -/
def BadText.message (f : BadText) : String :=
  let place :=
    if f.count ≤ 1 then s!"character '\\u{hexWord f.first.val}' in position {f.position}"
    else s!"characters in position {f.position}-{f.position + f.count - 1}"
  s!"'utf-8' codec can't encode {place}: surrogates not allowed"

/-- Writes code points, the first of which stands at `position`. -/
def encodeFrom (position : Nat) : List CodePoint → Except BadText Bytes
  | [] => .ok []
  | p :: rest =>
    if p.isHalf then .error ⟨position, 1 + (rest.takeWhile CodePoint.isHalf).length, p⟩
    else (String.utf8EncodeChar (Char.ofNat p.val) ++ ·) <$> encodeFrom (position + 1) rest

/-- The bytes of a sequence of code points. -/
def encode (ps : List CodePoint) : Except BadText Bytes := encodeFrom 0 ps

end Utf8

end AssetLift

/-!
# Code points and code units

An escape in a string literal may name half of a surrogate pair, so a literal is read into code
points, surrogates included, and only then into a text.

* `Text` — a text that may hold such halves; `CodePoint.shown` — the same where there can be none.
* `CodePoint.toChar?`, `CodePoint.chars` — the characters of code points.
* `CodePoint.units` — the UTF-16 code units of one code point; a surrogate stands for itself.
* `CodePoint.decodeUnits` — the text that a sequence of units writes, or its first unpaired unit.
* `CodePoint.join` — both steps: high and low halves that follow one another become one character.
-/

namespace AssetLift

/-- A Unicode code point, surrogates included. -/
abbrev CodePoint := Fin 0x110000

/-- A text of code points. -/
abbrev Text := List CodePoint

namespace CodePoint

/-- The code point of a character. -/
def ofChar (c : Char) : CodePoint :=
  ⟨c.toNat, by
    have h := c.valid
    simp only [UInt32.isValidChar, Nat.isValidChar] at h
    unfold Char.toNat
    omega⟩

/-- The code points of a text. -/
def ofString (s : String) : Text := s.toList.map ofChar

instance : Coe String Text := ⟨ofString⟩

/-- Whether a code unit is the first half of a surrogate pair. -/
def isHigh (u : Nat) : Bool := 0xD800 ≤ u && u < 0xDC00

/-- Whether a code unit is the second half of a surrogate pair. -/
def isLow (u : Nat) : Bool := 0xDC00 ≤ u && u < 0xE000

/-- Whether a code point is half of a surrogate pair. -/
def isHalf (p : CodePoint) : Bool := isHigh p.val || isLow p.val

/-- The character of a code point. -/
def toChar? (p : CodePoint) : Option Char := if p.isHalf then none else some (Char.ofNat p.val)

/-- Stands for what is no character. -/
def replacement : Char := '\ufffd'

/-- The characters of code points; the replacement stands for halves of surrogate pairs. -/
def chars (ps : List CodePoint) : List Char := ps.map fun p => p.toChar?.getD replacement

/-- The text of code points; the replacement stands for halves of surrogate pairs. -/
def shown (ps : Text) : String := String.ofList (chars ps)

/-- The text of code points, if all are characters. -/
def toString? (ps : List CodePoint) : Option String := String.ofList <$> ps.mapM toChar?

/-- The UTF-16 code units of a code point. -/
def units (p : CodePoint) : List Nat :=
  if p.val < 0x10000 then [p.val]
  else [0xD800 + (p.val - 0x10000) / 0x400, 0xDC00 + (p.val - 0x10000) % 0x400]

/-- The character that a surrogate pair writes. -/
def pair (high low : Nat) : Char :=
  Char.ofNat (0x10000 + (high - 0xD800) * 0x400 + (low - 0xDC00))

/-- Why a code unit cannot be read. -/
inductive UnitDefect where
  /-- A second half with no first half before it. -/
  | strayLow
  /-- A first half that no second half follows. -/
  | brokenPair
  /-- A first half at the very end. -/
  | cutPair
  deriving DecidableEq

/-- The first code unit that cannot be read. -/
structure BadUnit where
  index : Nat
  defect : UnitDefect
  deriving DecidableEq

/-- The wording of each defect. -/
def UnitDefect.reason : UnitDefect → String
  | .strayLow => "illegal encoding"
  | .brokenPair => "illegal UTF-16 surrogate"
  | .cutPair => "unexpected end of data"

/-- The wording of the fault. A byte-order mark of two bytes stands before the first unit. -/
def BadUnit.message (f : BadUnit) : String :=
  let first := 2 + 2 * f.index
  s!"'utf-16-le' codec can't decode bytes in position {first}-{first + 1}: " ++ f.defect.reason

/-- Reads code units from the one with number `index` on. -/
def decodeUnitsFrom (index : Nat) : List Nat → Except BadUnit (List Char)
  | [] => .ok []
  | u :: rest =>
    if isLow u then .error ⟨index, .strayLow⟩
    else if isHigh u then
      match rest with
      | [] => .error ⟨index, .cutPair⟩
      | v :: more =>
        if isLow v then (pair u v :: ·) <$> decodeUnitsFrom (index + 2) more
        else .error ⟨index, .brokenPair⟩
    else (Char.ofNat u :: ·) <$> decodeUnitsFrom (index + 1) rest

/-- The characters that a sequence of code units writes. -/
def decodeUnits (us : List Nat) : Except BadUnit (List Char) := decodeUnitsFrom 0 us

/-- The text of a sequence of code points, surrogate halves joined. -/
def join (ps : List CodePoint) : Except BadUnit String :=
  String.ofList <$> decodeUnits (ps.flatMap units)

end CodePoint

end AssetLift

/-!
# Byte strings

File contents are lists of bytes, and every position in a source file is a byte offset into one.

* `Bytes.slice` — the bytes between two offsets, where an offset below zero counts from the end.
* `Bytes.skipBlanks`, `Bytes.dropTrailingBlanks` — the two searches for a neighbouring separator.
-/

namespace AssetLift

/-- The content of a file. -/
abbrev Bytes := List UInt8

namespace Bytes

/-- The bytes of a text in UTF-8. -/
def ofString (s : String) : Bytes := s.toList.flatMap String.utf8EncodeChar

instance : Coe String Bytes := ⟨ofString⟩

/-! ## Slices -/

/-- The place an offset denotes in a string of `n` bytes: below zero it counts from the end, and it
never leaves the string. -/
def place (n : Nat) (offset : Int) : Nat :=
  if offset < 0 then (n + offset).toNat else min offset.toNat n

/-- The bytes from offset `start` up to offset `stop`; empty when the places are in the wrong
order. -/
def slice (b : Bytes) (start stop : Int) : Bytes :=
  (b.take (place b.length stop)).drop (place b.length start)

/-- The bytes from offset `start` to the end. -/
def sliceFrom (b : Bytes) (start : Int) : Bytes := b.drop (place b.length start)

/-- The bytes before offset `stop`. -/
def sliceTo (b : Bytes) (stop : Int) : Bytes := b.take (place b.length stop)

theorem place_natCast (n k : Nat) : place n k = min k n := by
  have h : ¬ ((k : Int) < 0) := by omega
  simp [place, h]

theorem place_of_le {n k : Nat} (h : k ≤ n) : place n k = k := by
  rw [place_natCast]; omega

/-! ## Blanks and separators -/

/-- The byte that separates the entries of an object. -/
def comma : UInt8 := 44

/-- The six ASCII blanks: tab, line feed, vertical tab, form feed, carriage return and space. -/
def isBlank (b : UInt8) : Bool := b == 32 || (9 ≤ b && b ≤ 13)

/-- How many blanks a string starts with. -/
def leadingBlanks (b : Bytes) : Nat := (b.takeWhile isBlank).length

/-- The string without the blanks at its end. -/
def trimRight (b : Bytes) : Bytes := (b.reverse.dropWhile isBlank).reverse

/-! ## Hexadecimal -/

/-- The value of a hexadecimal digit. -/
def hexValue? (c : Char) : Option Nat :=
  if '0' ≤ c ∧ c ≤ '9' then some (c.toNat - 48)
  else if 'a' ≤ c ∧ c ≤ 'f' then some (c.toNat - 87)
  else if 'A' ≤ c ∧ c ≤ 'F' then some (c.toNat - 55)
  else none

/-- The number that hexadecimal digits write; characters that are none count as zero. -/
def hexNumber (digits : List Char) : Nat :=
  digits.foldl (fun n c => n * 16 + (hexValue? c).getD 0) 0

end Bytes

end AssetLift

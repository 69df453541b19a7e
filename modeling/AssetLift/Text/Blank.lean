/-!
# Blank characters

* `Blank.isBlank` — the white space of Unicode, with the four ASCII separators.
* `Blank.items` — the items of a list that commas separate, trimmed, empty ones left out.
-/

namespace AssetLift

namespace Blank

/-- Whether a character is white space. -/
def isBlank (c : Char) : Bool :=
  let n := c.toNat
  n = 32 || (9 ≤ n && n ≤ 13) || (28 ≤ n && n ≤ 31) || n = 0x85 || n = 0xA0 || n = 0x1680
    || (0x2000 ≤ n && n ≤ 0x200A) || n = 0x2028 || n = 0x2029 || n = 0x202F || n = 0x205F
    || n = 0x3000

/-- The characters without the blanks at the end. -/
def trimEndChars (cs : List Char) : List Char := (cs.reverse.dropWhile isBlank).reverse

/-- The characters without the blanks at both ends. -/
def trimChars (cs : List Char) : List Char := trimEndChars (cs.dropWhile isBlank)

/-- Cuts characters, or what stands for them, at every occurrence of a separator. -/
def splitChars [DecidableEq α] (separator : α) : List α → List (List α)
  | [] => [[]]
  | c :: rest =>
    if c = separator then [] :: splitChars separator rest
    else
      match splitChars separator rest with
      | first :: others => (c :: first) :: others
      | [] => [[c]]

/-- Whether a character ends a line. -/
def endsLine (c : Char) : Bool :=
  let n := c.toNat
  (10 ≤ n && n ≤ 13) || (28 ≤ n && n ≤ 30) || n = 0x85 || n = 0x2028 || n = 0x2029

/-- Cuts characters at the ends of lines. -/
def lines : List Char → List (List Char)
  | [] => [[]]
  | c :: rest =>
    if endsLine c then [] :: lines rest
    else
      match lines rest with
      | first :: others => (c :: first) :: others
      | [] => [[c]]

/-- The items of a comma-separated list, trimmed, without the empty ones. -/
def items (s : String) : List String :=
  ((splitChars ',' s.toList).map trimChars).filterMap fun cs =>
    if cs.isEmpty then none else some (String.ofList cs)

end Blank

end AssetLift

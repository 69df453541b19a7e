import AssetLift.Text.Blank
import AssetLift.Text.CodePoint

/-!
# Kinds of nodes

Every node of a document has a kind, which a tag names or, for a scalar without one, the way it is
written: like a number, a truth value, a moment or nothing, and else it is a text.

* `Kind.ofTag` — the kind that a tag names.
* `Kind.isInt`, `Kind.isFloat`, `Kind.isBool`, `Kind.isNull`, `Kind.isMoment` — how scalars of the
  kinds are written.
* `Kind.ofScalar` — the kind of a scalar by the way it is written.
-/

namespace AssetLift

namespace Yaml

/-- A kind of nodes. -/
inductive Kind where
  | null
  | bool
  | int
  | float
  | text
  | bytes
  | moment
  | list
  | map
  | set
  /-- A list of pairs. -/
  | pairs
  /-- A key that stands for the pairs of another map. -/
  | merge
  /-- A key whose value stands for its map. -/
  | value
  /-- A kind that this library does not know. -/
  | unknown
  deriving DecidableEq, Inhabited

namespace Kind

/-- The namespace of the common tags. -/
def commonTags : String := "tag:yaml.org,2002:"

/-- The kinds by the names of the common tags. -/
def names : List (String × Kind) :=
  [("null", null), ("bool", bool), ("int", int), ("float", float), ("str", text),
    ("binary", bytes), ("timestamp", moment), ("seq", list), ("map", map), ("set", set),
    ("omap", pairs), ("pairs", pairs), ("merge", merge), ("value", value)]

/-- The kind that a tag names. -/
def ofTag (tag : String) : Kind :=
  ((names.find? fun (name, _) => tag = commonTags ++ name).map (·.2)).getD unknown

/-! ## Digits -/

/-- Decimal digits. -/
def isDigit (c : Char) : Bool := '0' ≤ c && c ≤ '9'

/-- Digits of hexadecimal numbers. -/
def isHexDigit (c : Char) : Bool := isDigit c || ('a' ≤ c && c ≤ 'f') || ('A' ≤ c && c ≤ 'F')

/-- The characters after a sign in front. -/
def unsigned (cs : List Char) : List Char :=
  match cs with
  | '-' :: rest => rest
  | '+' :: rest => rest
  | _ => cs

/-- Whether there are some characters, all of a class or underscores. -/
def areDigits (p : Char → Bool) (cs : List Char) : Bool :=
  !cs.isEmpty && cs.all fun c => p c || c = '_'

/-- Whether characters are digits and underscores after a first digit of a class. -/
def startsDigits (p : Char → Bool) (cs : List Char) : Bool :=
  cs.head?.any p && cs.all fun c => isDigit c || c = '_'

/-- Whether characters are a number of at most two digits below sixty. -/
def isSixtieth (cs : List Char) : Bool :=
  match cs with
  | [a] => isDigit a
  | [a, b] => '0' ≤ a && a ≤ '5' && isDigit b
  | _ => false

/-- Whether characters are a number by sixties between colons, from a first digit of a class on. -/
def isSixties (p : Char → Bool) (cs : List Char) : Bool :=
  match Blank.splitChars ':' cs with
  | first :: part :: parts => startsDigits p first && (part :: parts).all isSixtieth
  | _ => false

/-! ## Numbers -/

/-- Whether characters write an integer: binary after `0b`, hexadecimal after `0x`, octal after `0`,
by sixties between colons, and else decimal. -/
def isInt (cs : List Char) : Bool :=
  match unsigned cs with
  | '0' :: 'b' :: rest => areDigits (fun c => c = '0' || c = '1') rest
  | '0' :: 'x' :: rest => areDigits isHexDigit rest
  | ['0'] => true
  | '0' :: rest => areDigits (fun c => '0' ≤ c && c ≤ '7') rest
  | digits => startsDigits isDigit digits || isSixties isDigit digits

/-- Whether characters are an exponent, or none. -/
def isExponent (cs : List Char) : Bool :=
  match cs with
  | [] => true
  | e :: sign :: digits =>
    (e = 'e' || e = 'E') && (sign = '+' || sign = '-') && !digits.isEmpty && digits.all isDigit
  | _ => false

/-- Whether characters write a number with a point. -/
def isFloat (cs : List Char) : Bool :=
  let rest := unsigned cs
  let bare := rest = cs
  match rest.span (· ≠ '.') with
  | (whole, '.' :: after) =>
    let fraction := after.takeWhile fun c => isDigit c || c = '_'
    let tail := after.drop fraction.length
    if whole.isEmpty then
      ["inf", "Inf", "INF"].contains (String.ofList after)
        || (bare && ["nan", "NaN", "NAN"].contains (String.ofList after))
        || (bare && fraction.head?.any isDigit && isExponent tail)
    else
      (startsDigits isDigit whole && isExponent tail)
        || (isSixties isDigit whole && tail.isEmpty)
  | _ => false

/-! ## Words -/

/-- The words for true and for false, in small letters. -/
def truths : List (String × Bool) :=
  [("yes", true), ("no", false), ("true", true), ("false", false), ("on", true), ("off", false)]

/-- A word in small letters, with a capital in front, and in capitals. -/
def spellings (word : String) : List String :=
  [word, word.capitalize, word.map Char.toUpper]

/-- Whether a word is a truth value. -/
def isBool (s : String) : Bool := truths.any fun (word, _) => (spellings word).contains s

/-- Whether a word stands for nothing. -/
def isNull (s : String) : Bool := s = "~" || s = "" || (spellings "null").contains s

/-! ## Moments -/

/-- Takes `least` to `most` digits off the front. -/
def digits? (least most : Nat) (cs : List Char) : Option (List Char × List Char) :=
  let taken := (cs.take most).takeWhile isDigit
  if least ≤ taken.length then some (taken, cs.drop taken.length) else none

/-- Takes a character off the front. -/
def char? (c : Char) : List Char → Option (List Char)
  | d :: rest => if c = d then some rest else none
  | [] => none

/-- The texts of a moment's parts. A date alone has no hour. -/
structure MomentParts where
  year : List Char
  month : List Char
  day : List Char
  hour : List Char := []
  minute : List Char := []
  second : List Char := []
  fraction : List Char := []
  /-- Whether the clock is behind, the hours and the minutes; all empty for the common clock. -/
  zone : Option (Bool × List Char × List Char) := none
  deriving DecidableEq

/-- Whether a character is a blank inside a line. -/
def isInlineBlank (c : Char) : Bool := c = ' ' || c = '\t'

/-- The zone at the end of a moment, if there is one. -/
def zone? (cs : List Char) : Option (Option (Bool × List Char × List Char)) :=
  match cs.dropWhile isInlineBlank with
  | [] => if cs.isEmpty then some none else none
  | ['Z'] => some (some (false, [], []))
  | sign :: rest =>
    if sign = '+' || sign = '-' then do
      let (hours, rest) ← digits? 1 2 rest
      let minutes ← match rest with
        | [] => some []
        | ':' :: more => do
          let (minutes, rest) ← digits? 2 2 more
          if rest.isEmpty then some minutes else none
        | _ => none
      some (some (sign = '-', hours, minutes))
    else none

/-- The time of day that follows a date. -/
def clock? (p : MomentParts) (cs : List Char) : Option MomentParts := do
  let blanks := (cs.takeWhile isInlineBlank).length
  let cs ← match cs with
    | 'T' :: rest => some rest
    | 't' :: rest => some rest
    | _ => if 0 < blanks then some (cs.drop blanks) else none
  let (hour, cs) ← digits? 1 2 cs
  let cs ← char? ':' cs
  let (minute, cs) ← digits? 2 2 cs
  let cs ← char? ':' cs
  let (second, cs) ← digits? 2 2 cs
  let (fraction, cs) := match cs with
    | '.' :: rest => rest.span isDigit
    | _ => ([], cs)
  let zone ← zone? cs
  some { p with hour, minute, second, fraction, zone }

/-- The parts of a moment that characters write. -/
def momentParts? (cs : List Char) : Option MomentParts := do
  let (year, cs) ← digits? 4 4 cs
  let cs ← char? '-' cs
  let (month, cs) ← digits? 1 2 cs
  let cs ← char? '-' cs
  let (day, cs) ← digits? 1 2 cs
  let date : MomentParts := { year, month, day }
  if cs.isEmpty then some date else clock? date cs

/-- Whether characters write a moment; a date alone has two digits for month and day. -/
def isMoment (cs : List Char) : Bool :=
  match momentParts? cs with
  | some p => !p.hour.isEmpty || (p.month.length = 2 && p.day.length = 2)
  | none => false

/-! ## Resolution -/

/-- A text without a line feed at its end, if something is left. -/
def withoutLastBreak (cs : List Char) : List Char :=
  match cs.reverse with
  | '\n' :: c :: rest => (c :: rest).reverse
  | _ => cs

/-- The kind of a scalar by the way it is written. A line feed at its end does not count. -/
def ofScalar (points : List CodePoint) : Kind :=
  let cs := withoutLastBreak (CodePoint.chars points)
  let s := String.ofList cs
  if isBool s then bool
  else if isFloat cs then float
  else if isInt cs then int
  else if s = "<<" then merge
  else if isNull s then null
  else if isMoment cs then moment
  else if s = "=" then value
  else text

end Kind

end Yaml

end AssetLift

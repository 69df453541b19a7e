import AssetLift.Config.Value
import AssetLift.Text.Digit
import AssetLift.Text.Lowercase
import AssetLift.Yaml.Kind
import AssetLift.Yaml.Token

/-!
# The meaning of scalars

The value that the text of a scalar writes, given the kind of the scalar. A tag can give any text any
kind, so each kind says what it makes of a text that is not written like it.

* `Scalar.int`, `Scalar.float`, `Scalar.bool`, `Scalar.bytes`, `Scalar.moment` — the values of each
  kind.
* `Scalar.value` — the value of a text of a kind.
-/

namespace AssetLift

namespace Yaml

namespace Scalar

/-- A text, which may hold halves of surrogate pairs. -/
abbrev Text := List CodePoint

/-- A text without underscores. -/
def clean (t : Text) : Text := t.filter (· ≠ CodePoint.ofChar '_')

/-- Whether a text starts with a minus sign, and the text without its sign; there has to be a
character. -/
def signed (t : Text) : Except Fault (Bool × Text) :=
  match t with
  | [] => .error .noCharacter
  | p :: rest =>
    if p = CodePoint.ofChar '-' then .ok (true, rest)
    else if p = CodePoint.ofChar '+' then .ok (false, rest)
    else .ok (false, t)

/-- The parts of a text between colons. -/
def parts (t : Text) : List Text :=
  t.foldr (fun p acc =>
    if p = CodePoint.ofChar ':' then [] :: acc
    else
      match acc with
      | first :: others => (p :: first) :: others
      | [] => [[p]]) [[]]

/-! ## Integers -/

/-- The value of a digit or letter as a digit. -/
def digitValue? (c : Char) : Option Nat :=
  match Digit.value? c with
  | some n => some n
  | none =>
    if 'a' ≤ c ∧ c ≤ 'z' then some (c.toNat - 87)
    else if 'A' ≤ c ∧ c ≤ 'Z' then some (c.toNat - 55)
    else none

/-- The number that digits below a base write, if there are some. -/
def digitsIn? (base : Nat) (cs : List Char) : Option Nat :=
  if cs.isEmpty then none
  else cs.foldlM (fun n c => do
    let d ← digitValue? c
    if d < base then some (n * base + d) else none) 0

/-- The letter that may follow a zero in front of the digits of a base. -/
def baseLetter : Nat → Option Char
  | 2 => some 'b'
  | 8 => some 'o'
  | 16 => some 'x'
  | _ => none

/-- Digits without the zero and the letter that tell their base. -/
def withoutBase (base : Nat) (cs : List Char) : List Char :=
  match cs with
  | '0' :: letter :: rest =>
    if baseLetter base = some letter.toLower then rest else cs
  | _ => cs

/-- The integer that a text in a base writes. Blanks around it do not count. -/
def inBase (base : Nat) (t : Text) : Except Fault Int := do
  let cs := Blank.trimChars (CodePoint.chars t)
  let (negative, cs) := match cs with
    | '-' :: rest => (true, rest)
    | '+' :: rest => (false, rest)
    | _ => (false, cs)
  let digits := withoutBase base cs
  match digitsIn? base digits with
  | some n =>
    if base = 10 && Value.maxDigits < digits.length then
      throw (.badValue (s!"Exceeds the limit ({Value.maxDigits} digits) for integer string conversion: " ++
        s!"value has {digits.length} digits; " ++
        "use sys.set_int_max_str_digits() to increase the limit"))
    return if negative then -(n : Int) else n
  | none =>
    throw (.badValue
      s!"invalid literal for int() with base {base}: {Quoted.renderPoints t}")

/-- The integer without its sign: binary after `0b`, hexadecimal after `0x`, octal after `0`, by
sixties between colons, and else decimal. -/
def magnitude (t : Text) : Except Fault Int :=
  match CodePoint.chars (t.take 2) with
  | [] => .error .noCharacter
  | ['0', 'b'] => inBase 2 (t.drop 2)
  | ['0', 'x'] => inBase 16 (t.drop 2)
  | '0' :: _ => if t.length = 1 then .ok 0 else inBase 8 t
  | _ =>
    match parts t with
    | [_] => inBase 10 t
    | several => do
      let numbers ← several.mapM (inBase 10)
      return numbers.foldl (fun n d => n * 60 + d) 0

/-- The integer that a text writes. -/
def int (t : Text) : Except Fault Int := do
  let (negative, rest) ← signed (clean t)
  let n ← magnitude rest
  return if negative then -n else n

/-! ## Numbers with a point -/

/-- The number that decimal digits write. -/
def decimal (cs : List Char) : Nat := cs.foldl (fun n c => n * 10 + (Digit.value? c).getD 0) 0

/-- An exponent beyond which every number with `digits` digits is zero or infinite. -/
def clampExponent (digits : Nat) (e : Int) : Int :=
  max (-(2000 + digits : Int)) (min 2000 e)

/-- The number of a whole part, a fraction and an exponent. -/
def ofParts (negative : Bool) (whole fraction : List Char) (e : Int) : Binary64 :=
  let digits := whole ++ fraction
  .ofDecimal negative (decimal digits) (clampExponent digits.length (e - fraction.length))

/-- The exponent after a mantissa, if it is one or nothing. -/
def exponent? (cs : List Char) : Option Int :=
  match cs with
  | [] => some 0
  | e :: rest =>
    let (negative, digits) := match rest with
      | '-' :: digits => (true, digits)
      | '+' :: digits => (false, digits)
      | _ => (false, rest)
    if (e = 'e' || e = 'E') && !digits.isEmpty && digits.all Digit.isDigit then
      some (if negative then -(decimal digits : Int) else decimal digits)
    else none

/-- The number with a point that characters write, if they write one. -/
def float? (cs : List Char) : Option Binary64 :=
  let cs := Blank.trimChars cs
  let (negative, cs) := match cs with
    | '-' :: rest => (true, rest)
    | '+' :: rest => (false, rest)
    | _ => (false, cs)
  let word := String.ofList (Lowercase.ofChars cs)
  if word = "inf" || word = "infinity" then some (.infinity negative)
  else if word = "nan" then some .nan
  else
    let (whole, rest) := cs.span Digit.isDigit
    let (fraction, tail) := match rest with
      | '.' :: after => after.span Digit.isDigit
      | _ => ([], rest)
    if whole.isEmpty && fraction.isEmpty then none
    else (exponent? tail).map (ofParts negative whole fraction)

/-- The number with a point that a text writes. -/
def floatOf (t : Text) : Except Fault Binary64 :=
  match float? (CodePoint.chars t) with
  | some x => .ok x
  | none => .error (.badValue s!"could not convert string to float: {Quoted.renderPoints t}")

/-- A natural number as a number with a point. -/
def ofNat (n : Nat) : Binary64 := .ofFraction false n 1

/-- The sum of numbers, the first of which counts once and each one sixty times as much as the one
before it. -/
def sixties (numbers : List Binary64) : Binary64 :=
  (numbers.foldl (fun (sum, weight) x => (sum.add (x.mul (ofNat weight)), weight * 60))
    (ofNat 0, 1)).1

/-- The number with a point that a text writes: infinite, none, by sixties between colons, or
decimal. -/
def float (t : Text) : Except Fault Binary64 := do
  let (negative, rest) ← signed (Lowercase.ofPoints (clean t))
  let x ← match String.ofList (CodePoint.chars rest), parts rest with
    | ".inf", _ => pure (Binary64.infinity false)
    | ".nan", _ => pure Binary64.nan
    | _, [_] => floatOf rest
    | _, several => do
      let numbers ← several.mapM floatOf
      pure (sixties numbers.reverse)
  return if negative then x.negate else x

/-! ## Truth values -/

/-- The truth value that a word names. -/
def bool (t : Text) : Except Fault Bool :=
  let word := Lowercase.ofPoints t
  match Kind.truths.lookup (String.ofList (CodePoint.chars word)) with
  | some b => .ok b
  | none => .error (.unknownWord word)

/-! ## Bytes -/

/-- The value of a character that writes six bits. -/
def sixBits? (c : Char) : Option Nat :=
  if 'A' ≤ c ∧ c ≤ 'Z' then some (c.toNat - 65)
  else if 'a' ≤ c ∧ c ≤ 'z' then some (c.toNat - 71)
  else if '0' ≤ c ∧ c ≤ '9' then some (c.toNat + 4)
  else if c = '+' then some 62
  else if c = '/' then some 63
  else none

/-- Bytes written by four characters for every three. `place` characters of the current four have
been read, `left` are the bits not yet written, and `pads` padding characters came last. Other
characters are skipped; padding that completes four characters ends the bytes. -/
def decodeFrom (place left pads : Nat) : List Char → Option Bytes
  | [] => if place = 0 then some [] else none
  | c :: rest =>
    if c = '=' then
      if 2 ≤ place ∧ 4 ≤ place + pads + 1 then some []
      else decodeFrom place left (if 2 ≤ place then pads + 1 else pads) rest
    else
      match sixBits? c with
      | none => decodeFrom place left pads rest
      | some n =>
        match place with
        | 0 => decodeFrom 1 n 0 rest
        | 1 => (UInt8.ofNat (left * 4 + n / 16) :: ·) <$> decodeFrom 2 (n % 16) 0 rest
        | 2 => (UInt8.ofNat (left * 16 + n / 4) :: ·) <$> decodeFrom 3 (n % 4) 0 rest
        | _ => (UInt8.ofNat (left * 64 + n) :: ·) <$> decodeFrom 0 0 0 rest

/-- The bytes that a text of ASCII characters writes. -/
def bytes (t : Text) : Except Fault Bytes :=
  if t.all (·.val < 128) then
    match decodeFrom 0 0 0 (CodePoint.chars t) with
    | some b => .ok b
    | none => .error .malformed
  else .error .malformed

/-! ## Moments -/

/-- Millionths of a second, of which the first six digits count. -/
def micros (fraction : List Char) : Nat := decimal ((fraction ++ List.replicate 6 '0').take 6)

/-- The moment that a text writes, or the date alone. -/
def moment (t : Text) : Except Fault Value := do
  match Kind.momentParts? (Kind.withoutLastBreak (CodePoint.chars t)) with
  | none => throw .noMoment
  | some p =>
    let date : Date := ⟨decimal p.year, decimal p.month, decimal p.day⟩
    if p.hour.isEmpty then
      match date.fault? with
      | some f => throw (.badValue f)
      | none => return .date date
    else
      let clock : Clock := ⟨decimal p.hour, decimal p.minute, decimal p.second, micros p.fraction⟩
      let ahead := p.zone.map fun (behind, hours, minutes) =>
        let n : Int := decimal hours * 60 + decimal minutes
        if behind then -n else n
      .moment <$> (Moment.make date clock ahead).mapError .badValue

/-! ## All kinds -/

/-- The value of a text of a kind. -/
def value (k : Kind) (t : Text) : Except Fault Value :=
  match k with
  | .null => .ok .null
  | .bool => .bool <$> bool t
  | .int => .int <$> int t
  | .float => .float <$> float t
  | .text => .ok (.ofPoints t)
  | .bytes => .bytes <$> bytes t
  | .moment => moment t
  | _ => .error .malformed

end Scalar

end Yaml

end AssetLift

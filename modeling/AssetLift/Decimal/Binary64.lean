import AssetLift.Decimal.Rounding

/-!
# Binary floating point

Numbers of 53 significant bits, exact in natural numbers: `m · 2^q` with a sign.

* `Binary64.ofDecimal` — the number nearest to a decimal, ties to even.
* `Binary64.add`, `Binary64.mul` — sums and products, rounded the same way.
* `Binary64.shortest` — the fewest decimal digits that read back as the number.
* `Binary64.text` — how a number is written: positional from `1e-4` up to `1e16`.
-/

namespace AssetLift

/-- A floating-point number. -/
inductive Binary64 where
  /-- The number `±m · 2^q`. -/
  | finite (negative : Bool) (m : Nat) (q : Int)
  | infinity (negative : Bool)
  | nan
  deriving DecidableEq

namespace Binary64

/-! ## Reading decimals -/

/-- The number of bits of a natural number. -/
def bits (n : Nat) : Nat := if n = 0 then 0 else n.log2 + 1

/-- The least exponent of the last bit. -/
def minExponent : Int := -1074

/-- The fraction `num / den` scaled by `2^(-q)`, as a fraction. -/
def scaled (num den : Nat) (q : Int) : Nat × Nat :=
  if 0 ≤ q then (num, den * Nat.pow 2 q.toNat) else (num * Nat.pow 2 (-q).toNat, den)

/-- The floating-point number nearest to `num / den`. -/
def ofFraction (negative : Bool) (num den : Nat) : Binary64 :=
  if num = 0 then finite negative 0 minExponent
  else
    let guess : Int := (bits num : Int) - bits den - 53
    let fits (q : Int) : Bool := let (a, b) := scaled num den q; roundDiv a b < Nat.pow 2 53
    let q := max minExponent (if fits guess then guess else guess + 1)
    let (a, b) := scaled num den q
    let m := roundDiv a b
    if Nat.pow 2 1024 ≤ (if 0 ≤ q then m * Nat.pow 2 q.toNat else m / Nat.pow 2 (-q).toNat) then
      infinity negative
    else finite negative m q

/-- The floating-point number nearest to `digits · 10^exponent`. -/
def ofDecimal (negative : Bool) (digits : Nat) (exponent : Int) : Binary64 :=
  if 0 ≤ exponent then ofFraction negative (digits * Nat.pow 10 exponent.toNat) 1
  else ofFraction negative digits (Nat.pow 10 (-exponent).toNat)

/-- The integer that a number is. -/
def toInt? : Binary64 → Option Int
  | finite negative m q =>
    let (num, den) := if 0 ≤ q then (m * Nat.pow 2 q.toNat, 1) else (m, Nat.pow 2 (-q).toNat)
    if num % den = 0 then some (if negative then -(num / den : Nat) else (num / den : Nat))
    else none
  | _ => none

/-! ## Arithmetic -/

/-- A number with the other sign. -/
def negate : Binary64 → Binary64
  | finite negative m q => finite (!negative) m q
  | infinity negative => infinity (!negative)
  | nan => nan

/-- The number nearest to `n · 2^q`; `zeroSign` is the sign of a zero. -/
def ofScaled (zeroSign : Bool) (n : Int) (q : Int) : Binary64 :=
  let negative := if n = 0 then zeroSign else n < 0
  if 0 ≤ q then ofFraction negative (n.natAbs * Nat.pow 2 q.toNat) 1
  else ofFraction negative n.natAbs (Nat.pow 2 (-q).toNat)

/-- A significand with its sign. -/
def signed (negative : Bool) (m : Nat) : Int := if negative then -(m : Int) else m

/-- The sum of two numbers. -/
def add : Binary64 → Binary64 → Binary64
  | nan, _ => nan
  | _, nan => nan
  | infinity a, infinity b => if a = b then infinity a else nan
  | infinity a, _ => infinity a
  | _, infinity b => infinity b
  | finite a m q, finite b n r =>
    let low := min q r
    ofScaled (a && b)
      (signed a (m * Nat.pow 2 (q - low).toNat) + signed b (n * Nat.pow 2 (r - low).toNat)) low

/-- The product of two numbers. -/
def mul : Binary64 → Binary64 → Binary64
  | nan, _ => nan
  | _, nan => nan
  | infinity a, infinity b => infinity (a != b)
  | infinity a, finite b n _ => if n = 0 then nan else infinity (a != b)
  | finite a m _, infinity b => if m = 0 then nan else infinity (a != b)
  | finite a m q, finite b n r => ofScaled (a != b) (signed a m * signed b n) (q + r)

/-! ## Shortest digits -/

/-- The two multiples of `10^e` around a positive number, in units of `10^e`. -/
def neighbours (m : Nat) (q e : Int) : Nat × Nat :=
  let (a, b) := scaled m 1 (-q)
  let (a, b) := if 0 ≤ e then (a, b * Nat.pow 10 e.toNat) else (a * Nat.pow 10 (-e).toNat, b)
  (a / b, a / b + 1)

/-- Whether `d · 10^e` reads back as `m · 2^q`. -/
def readsBack (m : Nat) (q : Int) (d : Nat) (e : Int) : Bool :=
  match ofDecimal false d e with
  | finite _ m' q' =>
    let low := min q q'
    m * Nat.pow 2 (q - low).toNat = m' * Nat.pow 2 (q' - low).toNat
  | _ => false

/-- How far `d · 10^e` is from `m · 2^q`, times a factor that depends on `q` and `e` alone. -/
def distance (m : Nat) (q : Int) (d : Nat) (e : Int) : Nat :=
  let left := m * Nat.pow 2 q.toNat * Nat.pow 10 (-e).toNat
  let right := d * Nat.pow 10 e.toNat * Nat.pow 2 (-q).toNat
  if left ≤ right then right - left else left - right

/-- The first of the grids `10^e`, `10^(e-1)`, … with a point that reads back, and the nearest such
point on it, of two the even one. -/
def shortestFrom (m : Nat) (q : Int) : Nat → Int → Nat × Int
  | 0, e => ((neighbours m q e).1, e)
  | fuel + 1, e =>
    let (low, high) := neighbours m q e
    let lowFits := low ≠ 0 && readsBack m q low e
    let highFits := readsBack m q high e
    if lowFits && highFits then
      let below := distance m q low e
      let above := distance m q high e
      if above < below || (above = below && high % 2 = 0) then (high, e) else (low, e)
    else if lowFits then (low, e)
    else if highFits then (high, e)
    else shortestFrom m q fuel (e - 1)

/-- The digits of a number and the exponent of the last one. -/
def shortest (m : Nat) (q : Int) : Nat × Int :=
  let top : Int := ((bits m : Int) + q) * 30103 / 100000 + 2
  shortestFrom m q 25 top

/-! ## Writing -/

/-- The digits of a number without the zeros at the end, and how many those were. -/
def stripZeros : Nat → Nat → Nat × Nat
  | 0, n => (n, 0)
  | fuel + 1, n =>
    if n ≠ 0 ∧ n % 10 = 0 then
      let (k, zeros) := stripZeros fuel (n / 10)
      (k, zeros + 1)
    else (n, 0)

/-- A number of zeros. -/
def zeros (n : Nat) : String := String.ofList (List.replicate n '0')

/-- Digits with the decimal point after the first `point` of them. -/
def positional (digits : String) (point : Int) : String :=
  let n := digits.length
  if point ≤ 0 then "0." ++ zeros (-point).toNat ++ digits
  else if (n : Int) ≤ point then digits ++ zeros (point.toNat - n) ++ ".0"
  else
    String.ofList (digits.toList.take point.toNat) ++ "."
      ++ String.ofList (digits.toList.drop point.toNat)

/-- Digits with an exponent of at least two digits. -/
def scientific (digits : String) (exponent : Int) : String :=
  let fraction := String.ofList (digits.toList.drop 1)
  let body := String.ofList (digits.toList.take 1) ++ (if fraction = "" then "" else "." ++ fraction)
  let size := toString exponent.natAbs
  body ++ "e" ++ (if exponent < 0 then "-" else "+") ++ (if size.length < 2 then "0" ++ size else size)

/-- How a number is written. -/
def text : Binary64 → String
  | nan => "nan"
  | infinity negative => if negative then "-inf" else "inf"
  | finite negative m q =>
    let sign := if negative then "-" else ""
    if m = 0 then sign ++ "0.0"
    else
      let (d, e) := shortest m q
      let (d, dropped) := stripZeros 400 d
      let digits := toString d
      let point : Int := digits.length + e + dropped
      sign ++ (if -4 < point ∧ point ≤ 16 then positional digits point
        else scientific digits (point - 1))

end Binary64

end AssetLift

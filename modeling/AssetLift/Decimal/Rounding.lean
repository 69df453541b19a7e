/-!
# Rounding

* `roundDiv` — a quotient rounded to the nearest integer.
-/

namespace AssetLift

/-- A quotient rounded to the nearest integer, a half to the even neighbour. -/
def roundDiv (num den : Nat) : Nat :=
  let quotient := num / den
  let twice := 2 * (num % den)
  if twice < den then quotient
  else if den < twice then quotient + 1
  else quotient + quotient % 2

end AssetLift

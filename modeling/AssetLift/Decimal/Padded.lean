/-!
# Numbers of a fixed width

* `padded` — a number with zeros in front.
-/

namespace AssetLift

/-- A number with zeros in front up to a width. -/
def padded (width n : Nat) : String :=
  let digits := toString n
  String.ofList (List.replicate (width - digits.length) '0') ++ digits

end AssetLift

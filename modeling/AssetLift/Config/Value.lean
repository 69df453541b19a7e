import AssetLift.Config.Moment
import AssetLift.Decimal.Binary64
import AssetLift.Text.Quoted

/-!
# Configuration values

A configuration file may hold a value of any shape under any key, so configuration values are
dynamic: they have a shape, a truth value and a text.

* `Value` — the shapes.
* `Value.truthy` — whether a value counts as given.
* `Value.sameKey` — whether two keys are one.
* `Value.toText` — a value as a text; a text stands for itself.
* `Value.textFault?` — why a value has no text: an integer is too long, or values stand too deep.
-/

namespace AssetLift

/-- A configuration value. -/
inductive Value where
  | null
  | bool (b : Bool)
  | int (n : Int)
  | float (x : Binary64)
  | text (s : String)
  /-- A text in which halves of surrogate pairs stand. -/
  | broken (points : List CodePoint)
  | bytes (b : Bytes)
  | date (d : Date)
  | moment (m : Moment)
  | list (items : List Value)
  | pair (first second : Value)
  | map (pairs : List (Value × Value))
  | set (members : List Value)
  /-- A list or a map around this place, once more. -/
  | again (isMap : Bool)
  deriving Inhabited

namespace Value

/-- The text of code points. -/
def ofPoints (ps : List CodePoint) : Value :=
  match CodePoint.toString? ps with
  | some s => text s
  | none => broken ps

mutual

/-- Whether two values are the same. -/
def same : Value → Value → Bool
  | null, null => true
  | bool a, bool b => a == b
  | int a, int b => a == b
  | float a, float b => a == b
  | text a, text b => a == b
  | broken a, broken b => a == b
  | bytes a, bytes b => a == b
  | date a, date b => a == b
  | moment a, moment b => a == b
  | list as, list bs => sameAll as bs
  | pair a b, pair a' b' => same a a' && same b b'
  | map as, map bs => samePairs as bs
  | set as, set bs => sameAll as bs
  | again a, again b => a == b
  | _, _ => false

/-- Whether two lists of values are the same. -/
def sameAll : List Value → List Value → Bool
  | [], [] => true
  | a :: as, b :: bs => same a b && sameAll as bs
  | _, _ => false

/-- Whether two lists of pairs are the same. -/
def samePairs : List (Value × Value) → List (Value × Value) → Bool
  | [], [] => true
  | (k, v) :: as, (k', v') :: bs => same k k' && same v v' && samePairs as bs
  | _, _ => false

end

instance : BEq Value := ⟨same⟩

/-- The name of a value's shape in messages. -/
def shape : Value → String
  | null => "NoneType"
  | bool _ => "bool"
  | int _ => "int"
  | float _ => "float"
  | text _ => "str"
  | broken _ => "str"
  | bytes _ => "bytes"
  | date _ => "date"
  | moment _ => "datetime"
  | list _ => "list"
  | pair _ _ => "tuple"
  | map _ => "dict"
  | set _ => "set"
  | again isMap => if isMap then "dict" else "list"

/-- The full name of a value's shape, with the family it belongs to. -/
def fullShape (v : Value) : String :=
  match v with
  | date _ => "datetime." ++ v.shape
  | moment _ => "datetime." ++ v.shape
  | _ => v.shape

/-- Whether a value counts as given: nothing, false, zero and what is empty do not. -/
def truthy : Value → Bool
  | null => false
  | bool b => b
  | int n => n ≠ 0
  | float (.finite _ m _) => m ≠ 0
  | float _ => true
  | text s => s ≠ ""
  | broken ps => !ps.isEmpty
  | bytes b => !b.isEmpty
  | date _ => true
  | moment _ => true
  | list vs => !vs.isEmpty
  | pair _ _ => true
  | map ps => !ps.isEmpty
  | set vs => !vs.isEmpty
  | again _ => true

/-! ## Keys -/

/-- The shape of the first part of a value that keeps it from being a key. -/
def keyHindrance? : Value → Option String
  | list _ => some "list"
  | map _ => some "dict"
  | set _ => some "set"
  | again isMap => some (if isMap then "dict" else "list")
  | pair a b => keyHindrance? a <|> keyHindrance? b
  | _ => none

/-- The integer that a value equals: truth values and whole floats equal one too. -/
def whole? : Value → Option Int
  | bool b => some (if b then 1 else 0)
  | int n => some n
  | float x => x.toInt?
  | _ => none

/-- Whether two keys are one. -/
def sameKey (a b : Value) : Bool :=
  match a.whole?, b.whole? with
  | some m, some n => m == n
  | none, none =>
    match a, b with
    | moment m, moment n => m.sameInstant n
    | _, _ => a == b
  | _, _ => false

/-! ## Texts -/

/-- A value without parts, as it is shown inside another. -/
def shownAtom : Value → String
  | null => "None"
  | bool b => if b then "True" else "False"
  | int n => toString n
  | float x => x.text
  | text s => Quoted.render s
  | broken ps => Quoted.renderPoints ps
  | bytes b => Quoted.renderBytes b
  | date d => d.shown
  | moment m => m.shown
  | again isMap => if isMap then "\x7b...\x7d" else "[...]"
  | _ => ""

mutual

/-- A value as it is shown inside another. -/
def shown : Value → String
  | list vs => "[" ++ ", ".intercalate (shownAll vs) ++ "]"
  | pair a b => "(" ++ shown a ++ ", " ++ shown b ++ ")"
  | map ps => "\x7b" ++ ", ".intercalate (shownPairs ps) ++ "\x7d"
  | set [] => "set()"
  | set (v :: vs) => "\x7b" ++ ", ".intercalate (shown v :: shownAll vs) ++ "\x7d"
  | v => shownAtom v

/-- The items of a list as they are shown. -/
def shownAll : List Value → List String
  | [] => []
  | v :: vs => shown v :: shownAll vs

/-- The pairs of a map as they are shown. -/
def shownPairs : List (Value × Value) → List String
  | [] => []
  | (k, v) :: ps => (shown k ++ ": " ++ shown v) :: shownPairs ps

end

/-- A value as a text. -/
def toText : Value → String
  | text s => s
  | broken ps => String.ofList (CodePoint.chars ps)
  | date d => d.text
  | moment m => m.text
  | v => v.shown

/-- How many decimal digits an integer may have that is read or written. -/
def maxDigits : Nat := 4300

/-- Why a value has no text. -/
inductive TextFault where
  /-- An integer has too many digits. -/
  | tooManyDigits
  /-- Values stand too deep inside one another. -/
  | tooDeep
  deriving DecidableEq

/-- The wording of each fault. -/
def TextFault.message : TextFault → String
  | .tooManyDigits => s!"Exceeds the limit ({maxDigits} digits) for integer string conversion; " ++
    "use sys.set_int_max_str_digits() to increase the limit"
  | .tooDeep => "maximum recursion depth exceeded while getting the repr of an object"

/-- How many values deep a moment is shown: its clock, and how far that is ahead, are values too. -/
def momentLevels (m : Moment) : Nat :=
  match m.ahead with
  | none => 1
  | some a => if a = 0 then 2 else 3

mutual

/-- The first fault that a value is shown with, where values can be shown `room` deep. A set is shown
as a list within. -/
def shownFault? (room : Nat) (v : Value) : Option TextFault :=
  if room = 0 then some .tooDeep
  else
    match v with
    | int n => if n.natAbs < Nat.pow 10 maxDigits then none else some .tooManyDigits
    | moment m => if room < momentLevels m then some .tooDeep else none
    | list vs => shownFaultIn? (room - 1) vs
    | pair a b => shownFault? (room - 1) a <|> shownFault? (room - 1) b
    | map ps => shownFaultAmong? (room - 1) ps
    | set [] => none
    | set (v :: vs) =>
      if room = 1 then some .tooDeep
      else shownFault? (room - 2) v <|> shownFaultIn? (room - 2) vs
    | _ => none

/-- The first fault that some values are shown with. -/
def shownFaultIn? (room : Nat) : List Value → Option TextFault
  | [] => none
  | v :: vs => shownFault? room v <|> shownFaultIn? room vs

/-- The first fault that some pairs are shown with. -/
def shownFaultAmong? (room : Nat) : List (Value × Value) → Option TextFault
  | [] => none
  | (k, v) :: ps => shownFault? room k <|> shownFault? room v <|> shownFaultAmong? room ps

end

/-- Why a value has no text, if it has none. A text stands for itself, and neither a date nor a moment
is shown for its text. -/
def textFault? (room : Nat) : Value → Option TextFault
  | text _ => none
  | broken _ => none
  | date _ => none
  | moment _ => none
  | v => shownFault? room v

/-- The text of a value between quotes. -/
def quotedText : Value → String
  | broken ps => Quoted.renderPoints ps
  | v => Quoted.render v.toText

end Value

/-! ## Maps -/

/-- The pairs of a map from keys to values; no key occurs twice. -/
abbrev Config := List (Value × Value)

namespace Config

/-- The value of a key. -/
def get? (c : Config) (key : String) : Option Value := c.lookup (.text key)

/-- Sets the value of a key; a key that is there keeps its place. -/
def put (c : Config) (key value : Value) : Config :=
  match c with
  | [] => [(key, value)]
  | (k, v) :: rest =>
    if k.sameKey key then (k, value) :: rest else (k, v) :: put rest key value

/-- The pairs of one map over those of another. -/
def overlay (overrides base : Config) : Config := overrides.foldl (fun c p => c.put p.1 p.2) base

end Config

end AssetLift

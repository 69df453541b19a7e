import AssetLift.CommandLine.Spec
import AssetLift.Text.Digit
import AssetLift.Text.Quoted

/-!
# Reading a command line

Each argument is first told to be a switch or not, and then the arguments are taken from the left. A
switch may be shortened, carry its value after an equals sign, and be bundled with others behind one
dash. After a double dash nothing is a switch.

* `Spec.classify` — what an argument is.
* `Spec.read` — the switches and the operand given, and the arguments that nothing takes.
-/

namespace AssetLift

namespace CommandLine

/-- Why a command line is not followed. -/
inductive Stop where
  /-- The help is asked for. -/
  | help (spec : Spec)
  /-- The command line is wrong. -/
  | misuse (spec : Spec) (message : String)
  deriving DecidableEq

/-- A switch that an argument names, with the text that the argument carries behind the name. -/
structure Hit where
  name : String
  switch : Switch
  attached : Option (List Char) := none
  deriving DecidableEq

/-- An argument. -/
inductive Argument where
  | plain (text : String)
  /-- The double dash. -/
  | divider
  /-- A switch, which may be unknown. -/
  | switch (text : String) (hit : Option Hit)
  deriving DecidableEq

/-- The text of an argument. -/
def Argument.text : Argument → String
  | plain text => text
  | divider => "--"
  | switch text _ => text

/-! ## Telling switches -/

/-- Whether a text is a negative number, with digits of any script. A line feed may follow. -/
def isNegativeNumber : List Char → Bool
  | '-' :: digits =>
    match digits.span Digit.isDigit with
    | (whole, []) => !whole.isEmpty
    | (whole, ['\n']) => !whole.isEmpty
    | (_, '.' :: fraction) =>
      let rest := fraction.dropWhile Digit.isDigit
      fraction.head?.any Digit.isDigit && (rest.isEmpty || rest = ['\n'])
    | _ => false
  | _ => false

/-- A text cut at its first equals sign. -/
def splitValue (cs : List Char) : List Char × Option (List Char) :=
  match cs.span (· ≠ '=') with
  | (name, _ :: value) => (name, some value)
  | (name, []) => (name, none)

namespace Spec

/-- The switches that an argument may name by a part of their name. -/
def hits (s : Spec) : List Char → List Hit
  | '-' :: '-' :: rest =>
    let (name, attached) := splitValue ('-' :: '-' :: rest)
    s.byName.filterMap fun (n, w) =>
      if name.isPrefixOf n.toList then some ⟨n, w, attached⟩ else none
  | '-' :: c :: rest =>
    s.byName.filterMap fun (n, w) =>
      if n.toList = ['-', c] then some ⟨n, w, some rest⟩
      else if ('-' :: c :: rest).isPrefixOf n.toList then some ⟨n, w, none⟩
      else none
  | _ => []

/-- The switch that an argument names in full. -/
def exactHit? (s : Spec) (text : String) : Option Hit :=
  match s.find? text with
  | some w => some ⟨text, w, none⟩
  | none =>
    match splitValue text.toList with
    | (name, some attached) =>
      (s.find? (String.ofList name)).map fun w => ⟨String.ofList name, w, some attached⟩
    | (_, none) => none

/-- What an argument before the double dash is. -/
def classify (s : Spec) (text : String) : Except Stop Argument :=
  let cs := text.toList
  if cs.head? ≠ some '-' || cs.length = 1 then .ok (.plain text)
  else
    match s.exactHit? text with
    | some hit => .ok (.switch text (some hit))
    | none =>
      match s.hits cs with
      | [hit] => .ok (.switch text (some hit))
      | [] =>
        if isNegativeNumber cs || cs.contains ' ' then .ok (.plain text)
        else .ok (.switch text none)
      | several =>
        .error (.misuse s (s!"ambiguous option: {text} could match " ++
          ", ".intercalate (several.map (·.name))))

/-- What each argument is. -/
def classifyAll (s : Spec) : List String → Except Stop (List Argument)
  | [] => .ok []
  | text :: rest =>
    if text = "--" then .ok (.divider :: rest.map .plain)
    else do return (← s.classify text) :: (← s.classifyAll rest)

end Spec

/-! ## Switches with what they carry -/

/-- A switch that was given. -/
structure Given where
  switch : Switch
  value : Option String := none
  deriving DecidableEq

/-- What one argument gives: switches, and a last one that takes its value from the next argument. -/
structure Bundle where
  given : List Given := []
  pending : Option Switch := none

namespace Spec

/-- The fault of a switch. -/
def faultOf (s : Spec) (w : Switch) (message : String) : Stop :=
  .misuse s s!"argument {w.title}: {message}"

/-- The switches that a switch's name and the text behind it give. Behind a single dash, the text of
a switch without a value names further switches, a letter each. -/
def unbundle (s : Spec) (w : Switch) (long : Bool) (text : List Char) : Except Stop Bundle :=
  match w.effect with
  | .value _ => .ok { given := [⟨w, some (String.ofList text)⟩] }
  | _ =>
    let ignored : Except Stop Bundle :=
      .error (s.faultOf w s!"ignored explicit argument {Quoted.render (String.ofList text)}")
    match text with
    | [] => ignored
    | c :: more =>
      if long then ignored
      else
        match s.find? (String.ofList ['-', c]), more with
        | none, _ => ignored
        | some next, [] => .ok { given := [⟨w, none⟩], pending := some next }
        | some next, d :: value =>
          (fun b => { b with given := ⟨w, none⟩ :: b.given }) <$>
            s.unbundle next false (d :: value)

/-- What an argument that names a switch gives. -/
def bundle (s : Spec) (h : Hit) : Except Stop Bundle :=
  match h.attached with
  | none => .ok { pending := some h.switch }
  | some a => s.unbundle h.switch ("--".isPrefixOf h.name) a

end Spec

/-! ## Taking arguments -/

/-- What a command line gives. -/
structure Reading where
  given : List Given := []
  operand : Option (List String) := none
  extras : List String := []

namespace Reading

/-- Takes switches; the one for help ends the reading. -/
def give (s : Spec) (r : Reading) : List Given → Except Stop Reading
  | [] => .ok r
  | g :: gs =>
    if g.switch.effect = .help then .error (.help s)
    else give s { r with given := r.given ++ [g] } gs

/-- Whether a switch was given. -/
def marked (r : Reading) (name : String) : Bool := r.given.any (·.switch.names.contains name)

/-- The value that a switch was given last. -/
def value? (r : Reading) (name : String) : Option String :=
  (r.given.reverse.find? (·.switch.names.contains name)).bind (·.value)

end Reading

/-- What an operand takes from the front, and what it leaves. -/
def Operand.take : Operand → List Argument → Option (List String × List Argument)
  | .word _ _, .plain s :: .divider :: rest => some ([s], rest)
  | .word _ _, .plain s :: rest => some ([s], rest)
  | .word _ _, .divider :: .plain s :: rest => some ([s], rest)
  | .command _ _, .plain s :: rest => some (s :: rest.map (·.text), [])
  | .command _ _, .divider :: .plain s :: rest => some ("--" :: s :: rest.map (·.text), [])
  | _, _ => none

namespace Spec

/-- Takes a switch and its value, and tells what is left. -/
def takeSwitch (s : Spec) (h : Hit) (rest : List Argument) (r : Reading) :
    Except Stop (Reading × List Argument) := do
  let b ← s.bundle h
  match b.pending with
  | none => return (← r.give s b.given, rest)
  | some w =>
    match w.effect, rest with
    | .value _, .plain v :: rest => return (← r.give s (b.given ++ [⟨w, some v⟩]), rest)
    | .value _, _ => throw (s.faultOf w "expected one argument")
    | _, _ => return (← r.give s (b.given ++ [⟨w, none⟩]), rest)

/-- Takes arguments from the left, in at most `fuel` steps. -/
def takeFrom (s : Spec) : Nat → List Argument → Reading → Except Stop Reading
  | 0, _, r => .ok r
  | _ + 1, [], r => .ok r
  | fuel + 1, a :: rest, r =>
    match a with
    | .switch text none => s.takeFrom fuel rest { r with extras := r.extras ++ [text] }
    | .switch _ (some h) => do
      let (r, rest) ← s.takeSwitch h rest r
      s.takeFrom fuel rest r
    | _ =>
      match r.operand, s.operand.take (a :: rest) with
      | none, some (taken, rest) => s.takeFrom fuel rest { r with operand := some taken }
      | _, _ => s.takeFrom fuel rest { r with extras := r.extras ++ [a.text] }

/-- Reads a command line. An operand must be there. -/
def read (s : Spec) (arguments : List String) : Except Stop (List String × Reading) := do
  let classified ← s.classifyAll arguments
  let r ← s.takeFrom classified.length classified {}
  match r.operand with
  | some operand => return (operand, r)
  | none => throw (.misuse s s!"the following arguments are required: {s.operand.name}")

end Spec

end CommandLine

end AssetLift

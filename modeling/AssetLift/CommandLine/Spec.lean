/-!
# What a command line can hold

A program takes switches, which start with a dash, and one operand: a word, or a command with all
the words after it.

* `Switch`, `Operand`, `Spec` — what a program takes.
-/

namespace AssetLift

namespace CommandLine

/-- What a switch does. -/
inductive Effect where
  /-- It shows the help and ends the run. -/
  | help
  /-- It is on when it is given. -/
  | mark
  /-- It takes a value, which the help calls by a name. -/
  | value (placeholder : String)
  deriving DecidableEq

/-- A switch. -/
structure Switch where
  /-- Its names, with their dashes. -/
  names : List String
  effect : Effect
  help : String
  deriving DecidableEq

/-- The name of a switch in messages. -/
def Switch.title (s : Switch) : String := "/".intercalate s.names

/-- The one argument that is not a switch. -/
inductive Operand where
  | word (name help : String)
  /-- The name of a command with a help text, and all the words after it. -/
  | command (name : String) (choices : List (String × String))
  deriving DecidableEq

/-- The name of an operand in messages. -/
def Operand.name : Operand → String
  | .word name _ => name
  | .command name _ => name

/-- What a program takes. -/
structure Spec where
  program : String
  description : Option String
  switches : List Switch
  operand : Operand
  deriving DecidableEq

namespace Spec

/-- The switches by their names, in order. -/
def byName (s : Spec) : List (String × Switch) :=
  s.switches.flatMap fun w => w.names.map fun n => (n, w)

/-- The switch with a name. -/
def find? (s : Spec) (name : String) : Option Switch := s.byName.lookup name

end Spec

end CommandLine

end AssetLift

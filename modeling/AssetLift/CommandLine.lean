import AssetLift.CommandLine.Help
import AssetLift.CommandLine.Reading

/-!
# The command line

What the program takes: a command, with the directory it works on, and switches before the command.

* `CommandLine.program`, `CommandLine.migrate` — what the program and its command take.
* `CommandLine.parse` — what a command line asks for.
-/

namespace AssetLift

namespace CommandLine

/-- What a command line asks for: the migration of a directory. -/
structure Invocation where
  config : String
  verbose : Bool
  root : String
  deriving DecidableEq

/-- The switch that shows the help. -/
def helpSwitch : Switch := ⟨["-h", "--help"], .help, "show this help message and exit"⟩

/-- What the program takes. -/
def program : Spec where
  program := "i2f"
  description := some "Move inline Angular component templates and styles into external files"
  switches :=
    [helpSwitch,
      ⟨["--config"], .value "CONFIG",
        "YAML settings file (default: ./config.yaml, ignored if missing)"⟩,
      ⟨["--verbose"], .mark, "Show debug diagnostics"⟩]
  operand := .command "command" [("migrate", "Migrate every *.component.ts under ROOT")]

/-- What the command takes. -/
def migrate : Spec where
  program := "i2f migrate"
  description := none
  switches := [helpSwitch]
  operand := .word "root" "Directory to scan"

/-- The configuration file that is looked for when none is given. -/
def defaultConfig : String := "config.yaml"

/-- The fault of a command that there is not. -/
def unknownCommand (name : String) : Stop :=
  .misuse program
    s!"argument command: invalid choice: {Quoted.render name} (choose from 'migrate')"

/-- What a command line asks for. -/
def parse (arguments : List String) : Except Stop Invocation := do
  let (words, outer) ← program.read arguments
  let command := words.headD ""
  if command ≠ "migrate" then throw (unknownCommand command)
  let (root, inner) ← migrate.read words.tail
  let extras := outer.extras ++ inner.extras
  if !extras.isEmpty then
    throw (.misuse program ("unrecognized arguments: " ++ " ".intercalate extras))
  return {
    config := (outer.value? "--config").getD defaultConfig
    verbose := outer.marked "--verbose"
    root := root.headD "" }

end CommandLine

end AssetLift

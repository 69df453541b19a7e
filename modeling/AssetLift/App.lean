import AssetLift.CommandLine
import AssetLift.FaultKind
import AssetLift.Publication
import AssetLift.Summary

/-!
# The program

A run of the program as a function of its arguments, the environment, the files and the terminal.

* `App.Host` — what a run takes from the libraries and the machine around it.
* `App.Result` — the status a run ends with, and what it prints.
* `App.run` — a run, with the files it leaves. A crash is a fault that the program does not reckon
  with.
-/

namespace AssetLift

namespace App

/-- What a run takes from the libraries and the machine around it. -/
structure Host where
  /-- The reader of configuration files. -/
  read : Yaml.Reader
  /-- The grammar of source files. -/
  grammar : Source.Grammar
  /-- How deep a value may stand in others whose text is asked for. -/
  room : Nat
  /-- How many levels the search for candidates can go down. -/
  levels : Nat

/-- What a run shows. -/
structure Result where
  status : Nat
  output : String := ""
  errors : String := ""

/-- A fault that ends a run halfway. -/
inductive Crash where
  | loading (fault : Config.LoadFault)
  | settings (fault : Settings.Fault)
  | discovery (fault : Discovery.Fault)
  | markup (fault : Markup.Fault)

instance : Reportable Markup.Fault where
  kind
    | .noDigits => .value
    | _ => .markup
  message := (·.message)

instance : Reportable Crash where
  kind
    | .loading f => Reportable.kind f
    | .settings f => Reportable.kind f
    | .discovery f => Reportable.kind f
    | .markup f => Reportable.kind f
  message
    | .loading f => Reportable.message f
    | .settings f => Reportable.message f
    | .discovery f => Reportable.message f
    | .markup f => Reportable.message f

/-- The margin of usage and help within the terminal. -/
def margin : Nat := 2

/-- What is shown when a command line is not followed. -/
def stopped (width : Nat) : CommandLine.Stop → Result
  | .help spec => { status := 0, output := spec.help (width - margin) }
  | .misuse spec message =>
    { status := 2
      errors := spec.usage (width - margin) ++ s!"{spec.program}: error: {message}\n" }

/-- What to say about a fault of a configuration; a fault of another kind is a crash. -/
def complain [Reportable ε] (crash : ε → Crash) (f : ε) : Except Crash (Except String α) :=
  if (Reportable.kind f).isConfiguration then .ok (.error (CodePoint.shown (Reportable.message f)))
  else .error (crash f)

/-- The settings of a configuration file, or what to say about them. -/
def settingsOf (host : Host) (env : Environment) (t : FileTree) (path : String) :
    Except Crash (Except String Settings) :=
  match Config.load host.read env t path with
  | .error f => complain .loading f
  | .ok config =>
    match Settings.ofConfig host.room config with
    | .ok s => .ok (.ok s)
    | .error f => complain .settings f

/-- What is printed around and about a migration that has shown messages. -/
def account (c : Console) (messages : String) (r : Report) : Except Markup.Fault String := do
  let opening := c.banner ++ (← c.startProcess "Inline template migration")
  let summary ← Summary.render c r c.verbose
  let closing ← c.endProcess (if r.succeeded then "Migration complete" else "Migration aborted")
  return opening ++ messages ++ summary ++ closing

/-- A migration with settings, and what is printed around it. -/
def start (host : Host) (c : Console) (t : FileTree) (root : String) (settings : Settings) :
    Except Crash (Result × FileTree) := do
  let setup : Migration.Setup := { settings, grammar := host.grammar, levels := host.levels }
  let (p, t) ← (Migration.runTo setup (some c.sink) "" t (.ofString root)).mapError .discovery
  let output ← (account c p.held p.report).mapError .markup
  return ({ status := if p.report.succeeded then 0 else 1, output }, t)

/-- A migration that a command line asks for. -/
def migrate (host : Host) (env : Environment) (t : FileTree) (width : Nat)
    (i : CommandLine.Invocation) : Except Crash (Result × FileTree) := do
  let c : Console := { width, verbose := i.verbose }
  match ← settingsOf host env t i.config with
  | .error detail =>
    let text := s!"Cannot load configuration {i.config}: {detail}"
    return ({ status := 1, output := c.message .fatal text }, t)
  | .ok settings => start host c t i.root settings

/-- A run of the program. -/
def run (host : Host) (env : Environment) (t : FileTree) (width : Nat) (arguments : List String) :
    Except Crash (Result × FileTree) :=
  match CommandLine.parse arguments with
  | .error stop => .ok (stopped width stop, t)
  | .ok i => migrate host env t width i

end App

end AssetLift

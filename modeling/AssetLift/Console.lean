import AssetLift.Sink
import AssetLift.Terminal.Markup
import AssetLift.Terminal.Panel

/-!
# The console

What a run prints besides its summary. A message has a level in front and is never broken; other
texts are markup and are broken at the width of the terminal.

* `Console.message` — a message of a level; those for debugging need a verbose console.
* `Console.emit` — a diagnostic as a message; `Console.sink` shows one after the other.
* `Console.print` — markup.
* `Console.startProcess`, `Console.endProcess`, `Console.banner` — the frame of a run.
-/

namespace AssetLift

/-- A terminal to print to. -/
structure Console where
  /-- The cells of a line. -/
  width : Nat
  /-- Whether messages for debugging are shown. -/
  verbose : Bool := false

/-- The levels of messages. -/
inductive Level where
  | step
  | debug
  | info
  | success
  | warning
  | error
  | fatal
  deriving DecidableEq

namespace Level

/-- The name of a level in front of a message. -/
def label : Level → String
  | step => "STEP"
  | debug => "DEBUG"
  | info => "INFO"
  | success => "SUCCESS"
  | warning => "WARNING"
  | error => "ERROR"
  | fatal => "FATAL"

/-- The level that diagnostics of a severity are shown with. -/
def ofSeverity : Severity → Level
  | .debug => debug
  | .info => info
  | .warn => warning
  | .error => error
  | .fatal => fatal

end Level

namespace Console

/-- The text of lines, each with its end. -/
def unlines (lines : List Flow.Line) : String :=
  String.ofList (lines.flatMap (· ++ ['\n']))

/-- Whether the console shows messages of a level. -/
def shows (c : Console) (l : Level) : Bool := c.verbose || l ≠ .debug

/-- A message of a level. Its text stands for itself, and its lines are not broken. -/
def message (c : Console) (l : Level) (text : String) : String :=
  if c.shows l then unlines (Flow.sourceLines s!"[{l.label}]: {text}") else ""

/-- A diagnostic as a message. -/
def emit (c : Console) (d : Diagnostic) : String :=
  c.message (.ofSeverity d.severity) (CodePoint.shown d.text)

/-- The console as a sink, which holds what is shown. -/
def sink (c : Console) : Sink String := ⟨fun shown d => shown ++ c.emit d⟩

/-- The lines that markup shows. -/
def print (c : Console) (markup : String) : Except Markup.Fault String :=
  (fun text => unlines (Flow.layout c.width .fold .natural text)) <$> Markup.plain markup

/-- The announcement of a process. -/
def startProcess (c : Console) (title : String) : Except Markup.Fault String :=
  c.print s!"\n🚀 {title} Start\n"

/-- The end of a process. -/
def endProcess (c : Console) (text : String) : Except Markup.Fault String :=
  c.print s!"\n🏁 {text}\n"

/-! ## The banner -/

/-- The picture of the banner. -/
def art : String :=
  "\n".intercalate
    ["",
      "   _  ___   __",
      "  (_)|_  ) / _|   inline  template: \x60...\x60   styles: [\x60...\x60]",
      "  | | / / |  _|      │",
      "  |_|/___||_|        ▼",
      "                  templateUrl: './x.html'   styleUrls: ['./x.scss']",
      "    "]

/-- The banner of a run. -/
def banner (c : Console) : String :=
  unlines (Panel.render { title := "Inline-to-File", body := art } c.width)

end Console

end AssetLift

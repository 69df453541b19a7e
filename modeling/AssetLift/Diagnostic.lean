import AssetLift.Path
import AssetLift.Text.Quoted

/-!
# Diagnostics

What a migration has to say, in the order it says it.

* `Diagnostic` — a message with its severity, and the file and the kind of finding it is about.
* `Diagnostic.text` — the message with the file in front.
-/

namespace AssetLift

/-- How much a message matters. -/
inductive Severity where
  | debug
  | info
  | warn
  | error
  | fatal
  deriving DecidableEq

/-- What kind of finding a message is about. -/
inductive DiagnosticKind where
  | notCandidate
  | alreadyMigrated
  | noLiteral
  | unusableLiteral
  | missingNode
  | targetFileExists
  | perUnitFault
  | enumerationFault
  deriving DecidableEq

/-- A name that no severity or kind has. -/
structure UnknownName where
  name : String
  /-- What was asked for. -/
  category : String
  deriving DecidableEq

/-- The wording of the fault. -/
def UnknownName.message (f : UnknownName) : String :=
  s!"{Quoted.render f.name} is not a valid {f.category}"

namespace Severity

/-- Every severity, the least first. -/
def all : List Severity := [debug, info, warn, error, fatal]

/-- The name of a severity. -/
def name : Severity → String
  | debug => "debug"
  | info => "info"
  | warn => "warn"
  | error => "error"
  | fatal => "fatal"

/-- The severity with a given name. -/
def ofName (s : String) : Except UnknownName Severity :=
  match all.find? (·.name = s) with
  | some severity => .ok severity
  | none => .error ⟨s, "Severity"⟩

theorem ofName_name (s : Severity) : ofName s.name = .ok s := by cases s <;> rfl

end Severity

namespace DiagnosticKind

/-- Every kind. -/
def all : List DiagnosticKind :=
  [notCandidate, alreadyMigrated, noLiteral, unusableLiteral, missingNode, targetFileExists,
    perUnitFault, enumerationFault]

/-- The name of a kind. -/
def name : DiagnosticKind → String
  | notCandidate => "not_candidate"
  | alreadyMigrated => "already_migrated"
  | noLiteral => "no_literal"
  | unusableLiteral => "unusable_literal"
  | missingNode => "missing_node"
  | targetFileExists => "target_file_exists"
  | perUnitFault => "per_unit_fault"
  | enumerationFault => "enumeration_fault"

/-- The kind with a given name. -/
def ofName (s : String) : Except UnknownName DiagnosticKind :=
  match all.find? (·.name = s) with
  | some kind => .ok kind
  | none => .error ⟨s, "DiagnosticKind"⟩

theorem ofName_name (k : DiagnosticKind) : ofName k.name = .ok k := by cases k <;> rfl

end DiagnosticKind

/-- A message. -/
structure Diagnostic where
  severity : Severity
  message : Text
  /-- The file it is about. -/
  path : Option Path := none
  /-- The kind of finding it is about. -/
  kind : Option DiagnosticKind := none
  deriving DecidableEq

namespace Diagnostic

/-- The message with the file in front. -/
def text (d : Diagnostic) : Text :=
  match d.path with
  | none => d.message
  | some p => p.text ++ ": " ++ d.message

/-- The messages of a given severity. -/
def ofSeverity (s : Severity) (ds : List Diagnostic) : List Diagnostic :=
  ds.filter (·.severity = s)

/-- The messages of a given kind. -/
def ofKind (k : DiagnosticKind) (ds : List Diagnostic) : List Diagnostic :=
  ds.filter (·.kind = some k)

end Diagnostic

end AssetLift

import AssetLift.Config.Value

/-!
# Readers of documents

A configuration file is a document, and whoever runs the program brings a reader for it.

* `Yaml.Fault` — why a document cannot be read.
* `Yaml.Reader` — gives the value of a document's text.
-/

namespace AssetLift

namespace Yaml

/-- Why a document cannot be read. -/
inductive Fault where
  /-- It does not follow the rules of documents. -/
  | malformed
  /-- A value is written by the rules and yet is none. -/
  | badValue (detail : String)
  /-- An escape names a number of more than 31 bits. -/
  | tooLarge
  /-- A word is no truth value. -/
  | unknownWord (word : List CodePoint)
  /-- A number is written without characters. -/
  | noCharacter
  /-- A moment is not written like one. -/
  | noMoment
  /-- A moment is written as a map. -/
  | notText
  deriving DecidableEq

/-- The wording of a fault. -/
def Fault.message : Fault → String
  | .malformed => "malformed document"
  | .badValue detail => detail
  | .tooLarge => "Python int too large to convert to C int"
  | .unknownWord word => Quoted.renderPoints word
  | .noCharacter => "string index out of range"
  | .noMoment => "'NoneType' object has no attribute 'groupdict'"
  | .notText => "expected string or bytes-like object, got 'list'"

/-- Gives the value of a document's text. -/
abbrev Reader := String → Except Fault Value

end Yaml

end AssetLift

import AssetLift.Block
import AssetLift.Commit
import AssetLift.Config.Load
import AssetLift.Diagnostic
import AssetLift.Discovery
import AssetLift.Entry
import AssetLift.Removal
import AssetLift.Source

/-!
# Kinds of faults

Every fault of the library has a kind, whose name reports can give, and a wording.

* `FaultKind` — the kinds, and which of them a migration reckons with.
* `Reportable` — a fault with its kind and its wording.
-/

namespace AssetLift

/-- The kinds of faults. -/
inductive FaultKind where
  | value
  | shape
  | index
  | key
  | overflow
  | member
  | decoding
  | encoding
  | os
  | notFound
  | fileExists
  | notDirectory
  | isDirectory
  | parse
  | missingNode
  | conflict
  | enumeration
  | markup
  | document
  | recursion
  deriving DecidableEq

namespace FaultKind

/-- The name of a kind in reports. -/
def name : FaultKind → String
  | value => "ValueError"
  | shape => "TypeError"
  | index => "IndexError"
  | key => "KeyError"
  | overflow => "OverflowError"
  | member => "AttributeError"
  | decoding => "UnicodeDecodeError"
  | encoding => "UnicodeEncodeError"
  | os => "OSError"
  | notFound => "FileNotFoundError"
  | fileExists => "FileExistsError"
  | notDirectory => "NotADirectoryError"
  | isDirectory => "IsADirectoryError"
  | parse => "ParseError"
  | missingNode => "MissingNodeError"
  | conflict => "PatchConflictError"
  | enumeration => "EnumerationError"
  | markup => "MarkupError"
  | document => "YAMLError"
  | recursion => "RecursionError"

/-- Whether a fault of the kind concerns the file at hand, and not the program itself: the file
system, its text, or its structure. -/
def isExpected : FaultKind → Bool
  | decoding | os | notFound | fileExists | notDirectory | isDirectory => true
  | parse | missingNode | conflict | enumeration => true
  | value | shape | index | key | overflow | member | encoding | markup
  | document | recursion => false

/-- Whether a fault of the kind concerns what a configuration file holds, or that it cannot be
read. -/
def isConfiguration : FaultKind → Bool
  | value | decoding | encoding | os | notFound | fileExists | notDirectory | isDirectory => true
  | document => true
  | shape | index | key | overflow | member | parse | missingNode | conflict | enumeration
  | markup | recursion => false

/-- The kind of a file system error. -/
def ofErrno : Errno → FaultKind
  | .notFound => notFound
  | .fileExists => fileExists
  | .notDirectory => notDirectory
  | .isDirectory => isDirectory
  | .busy => os
  | .nameTooLong => os
  | .tooManyLinks => os

end FaultKind

/-- Faults that can be reported. -/
class Reportable (ε : Type) where
  kind : ε → FaultKind
  message : ε → Text

/-! ## The faults of the library -/

instance : Reportable Span.Backwards := ⟨fun _ => .value, (·.message)⟩

instance : Reportable Edit.Outside := ⟨fun _ => .value, (·.message)⟩

instance : Reportable Entry.Fault := ⟨fun _ => .value, (·.message)⟩

instance : Reportable Entry.Missing := ⟨fun _ => .missingNode, (·.detail)⟩

instance : Reportable Settings.Fault where
  kind
    | .badQuote _ => .value
    | .notIterable _ => .shape
    | .noText .tooManyDigits => .value
    | .noText .tooDeep => .recursion
  message := (·.message)

instance : Reportable Target.NoFile := ⟨fun _ => .index, (·.message)⟩

instance : Reportable Patch.Conflict := ⟨fun _ => .conflict, (·.message)⟩

instance : Reportable UnknownName := ⟨fun _ => .value, (·.message)⟩

instance : Reportable Utf8.BadBytes := ⟨fun _ => .decoding, (·.message)⟩

instance : Reportable Block.Fault := ⟨fun _ => .member, (·.message)⟩

instance : Reportable Removal.Fault where
  kind
    | .offsetTooLarge => .overflow
    | .span _ => .value
    | .edit _ => .value
    | .unwritable _ => .encoding
  message := (·.message)

instance : Reportable Literal.Fault where
  kind
    | .outOfRange => .value
    | .tooLarge => .overflow
    | .unpaired _ => .decoding
  message := (·.message)

instance : Reportable IoFault where
  kind
    | .errno e _ => .ofErrno e
    | .move e _ _ => .ofErrno e
    | .device _ => .os
    | .embeddedNul => .value
    | .unencodable _ => .encoding
  message := (·.message)

instance : Reportable Yaml.Fault where
  kind
    | .malformed => .document
    | .badValue _ => .value
    | .tooLarge => .overflow
    | .unknownWord _ => .key
    | .noCharacter => .index
    | .noMoment => .member
    | .notText => .shape
  message := (·.message)

instance : Reportable Config.LoadFault where
  kind
    | .io f => Reportable.kind f
    | .bytes f => Reportable.kind f
    | .document f => Reportable.kind f
    | .notMap _ _ => .value
  message := (·.message)

instance : Reportable Lowering.Fault where
  kind
    | .bytes f => Reportable.kind f
    | .literal f => Reportable.kind f
    | .span f => Reportable.kind f
    | .unresolved _ => .key
  message
    | .bytes f => f.message
    | .literal f => f.message
    | .span f => f.message
    | .unresolved id => toString id

instance : Reportable Source.Fault where
  kind
    | .parse _ => .parse
    | .lowering f => Reportable.kind f
  message
    | .parse f => f.message
    | .lowering f => Reportable.message f

instance : Reportable Discovery.Fault where
  kind
    | .io f => Reportable.kind f
    | .badSkip _ => .shape
    | .absent _ => .enumeration
    | .notDirectory _ => .enumeration
    | .unlistable _ _ => .enumeration
    | .tooDeep => .recursion
  message := (·.message)

end AssetLift

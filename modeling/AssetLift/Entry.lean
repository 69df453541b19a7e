import AssetLift.Block

/-!
# Entries

An entry is a named pair of a configuration block together with what can be extracted from it.

* `Entry.make` — an entry whose own range lies inside its full range.
* `Entry.inspect?` — the entry with a given name in a block.
* `Entry.relocate` — the pair an entry came from, if it is still there.
-/

namespace AssetLift

/-- What can be extracted from an entry. -/
inductive EntryValue where
  /-- One literal. -/
  | scalar (text : String)
  /-- A list of literals. -/
  | list (texts : List String)
  /-- Nothing. -/
  | other
  deriving DecidableEq

namespace EntryValue

/-- The texts to extract, in source order. -/
def texts : EntryValue → List String
  | scalar t => [t]
  | list ts => ts
  | other => []

/-- Whether the value is made of literals alone. -/
def usable : EntryValue → Bool
  | other => false
  | _ => true

/-- The name of a value's shape in reports. -/
def kind : EntryValue → String
  | scalar _ => "scalarLiteral"
  | list _ => "listLiteral"
  | other => "other"

/-- The texts of nodes that are all literals. -/
def literals? : List Node → Option (List String)
  | [] => some []
  | .literal value _ _ :: rest => (value :: ·) <$> literals? rest
  | _ :: _ => none

/-- What a pair's value offers; lists are looked into only when `allowList` is set. -/
def ofNode (allowList : Bool) : Option Node → EntryValue
  | some (.literal value _ _) => scalar value
  | some (.array elements _) =>
    if allowList then
      match literals? elements with
      | some texts => list texts
      | none => other
    else other
  | _ => other

end EntryValue

/-- A named pair of a block. -/
structure Entry where
  name : String
  value : EntryValue
  /-- The pair with the blanks and comments in front of it. -/
  full : Span
  /-- The pair alone. -/
  core : Span
  covered : full.covers core = true
  deriving DecidableEq

namespace Entry

/-- Why an entry cannot be formed. -/
inductive Fault where
  | span (fault : Span.Backwards)
  /-- The pair does not lie inside its full range. -/
  | outside (name : String) (core full : Span)
  deriving DecidableEq

/-- The wording of each fault. -/
def Fault.message : Fault → String
  | .span f => f.message
  | .outside name core full =>
    s!"Entry '{name}': core range {core.text} outside full range {full.text}"

/-- The entry with the given ranges. -/
def make (name : String) (value : EntryValue) (full core : Span) : Except Fault Entry :=
  if h : full.covers core = true then .ok ⟨name, value, full, core, h⟩
  else .error (.outside name core full)

/-- The entry of a pair. -/
def ofProperty (allowList : Bool) (p : Block.Property) : Except Fault Entry := do
  let full ← (Span.ofEnds p.fullStart p.span.stop).mapError .span
  make p.key (.ofNode allowList p.value) full p.span

/-- The entry with a given name, if the block has one. -/
def inspect? (b : Block) (name : String) (allowList : Bool) : Except Fault (Option Entry) :=
  match b.property? name with
  | none => .ok none
  | some p => some <$> ofProperty allowList p

/-- A pair that an entry was made from is no longer in the block. -/
structure Missing where
  detail : String
  deriving DecidableEq

/-- The fault for an entry with a given name. -/
def Missing.ofName (name : String) : Missing :=
  ⟨s!"property '{name}' not found in the configuration block after extraction"⟩

/-- The pair an entry was made from. -/
def relocate (b : Block) (e : Entry) : Except Missing Block.Property :=
  match b.property? e.name with
  | some p => if p.span = e.core then .ok p else .error (.ofName e.name)
  | none => .error (.ofName e.name)

end Entry

end AssetLift

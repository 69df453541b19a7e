import AssetLift.Node

/-!
# Configuration blocks

The block of a component is the object literal that its class decorator is called with.

* `Block.find?` — the block of the first class that carries the decorator.
* `Block.property?` — the first pair of a block with a given key.
-/

namespace AssetLift

/-- The object literal that configures a component. -/
structure Block where
  properties : List Node
  separators : List Nat
  span : Span

namespace Block

/-- The block as a source node. -/
def toNode (b : Block) : Node := .object b.properties b.separators b.span

/-- The block a decorator is called with, if it is called by `name` and with that argument alone. -/
def ofDecorator? (name : String) : Node → Option Block
  | .decorator (some callee) [.object properties separators span] _ =>
    if callee = name then some ⟨properties, separators, span⟩ else none
  | _ => none

/-- The block of a class: that of its first matching decorator. -/
def ofClass? (name : String) : Node → Option Block
  | .classDecl _ decorators _ _ => decorators.findSome? (ofDecorator? name)
  | _ => none

/-- A property whose value is absent was met before a block. -/
inductive Fault where
  | absentValue
  deriving DecidableEq

/-- The wording of the fault. -/
def Fault.message : Fault → String
  | .absentValue => "'NoneType' object has no attribute 'children'"

/-- The block of the first class that has one, in the order of a walk. -/
def firstIn (name : String) : List (Option Node) → Except Fault (Option Block)
  | [] => .ok none
  | none :: _ => .error .absentValue
  | some n :: rest =>
    match ofClass? name n with
    | some b => .ok (some b)
    | none => firstIn name rest

/-- The block of a source file. -/
def find? (name : String) (root : Node) : Except Fault (Option Block) := firstIn name root.walk

/-! ## Properties -/

/-- A `key: value` pair of a block. -/
structure Property where
  key : String
  value : Option Node
  /-- From the first token of the pair to the last. -/
  span : Span
  /-- Where the token before the pair ends. -/
  fullStart : Nat

/-- The pair that a node is, if its key is `name`. -/
def Property.ofNode? (name : String) : Node → Option Property
  | .property (some key) value span fullStart =>
    if key = name then some ⟨key, value, span, fullStart⟩ else none
  | _ => none

/-- The first pair of the block whose key is the identifier `name`. -/
def property? (b : Block) (name : String) : Option Property :=
  b.properties.findSome? (Property.ofNode? name)

/-- Whether the block has a pair with the key `name`. -/
def has (b : Block) (name : String) : Bool := (b.property? name).isSome

end Block

end AssetLift

import AssetLift.Literal
import AssetLift.Span

/-!
# Source nodes

The part of a source file's structure that the migration looks at: classes with their decorators,
object and array literals, strings. Everything else keeps only its kind and its parts.

* `Node` — the closed set of variants.
* `Node.parts` — a node's parts in order; a property whose value is absent has an absent part.
* `Node.walk` — every node of a tree, each before its parts.
-/

namespace AssetLift

/-- A node of a source file's structure. -/
inductive Node where
  /-- A string, or a template without substitutions. -/
  | literal (value : String) (delimiter : Literal.Delimiter) (span : Span)
  | array (elements : List Node) (span : Span)
  /-- A `key: value` pair. The key is known when it is a plain identifier; `fullStart` is where the
  token before the pair ends. -/
  | property (key : Option String) (value : Option Node) (span : Span) (fullStart : Nat)
  /-- An object literal with the offsets of its commas. -/
  | object (properties : List Node) (separators : List Nat) (span : Span)
  /-- A decorator; `callee` is the identifier it calls. -/
  | decorator (callee : Option String) (arguments : List Node) (span : Span)
  | classDecl (name : Option String) (decorators : List Node) (members : List Node) (span : Span)
  | other (kind : String) (nodes : List Node) (span : Span)

namespace Node

/-- The range of a node. -/
def span : Node → Span
  | literal _ _ s => s
  | array _ s => s
  | property _ _ s _ => s
  | object _ _ s => s
  | decorator _ _ s => s
  | classDecl _ _ _ s => s
  | other _ _ s => s

/-- The parts of a node in order; a class's decorators stand before its members. -/
def parts : Node → List (Option Node)
  | literal _ _ _ => []
  | array es _ => es.map some
  | property _ v _ _ => [v]
  | object ps _ _ => ps.map some
  | decorator _ as _ => as.map some
  | classDecl _ ds ms _ => (ds ++ ms).map some
  | other _ ns _ => ns.map some

/-! ## Size -/

mutual

/-- The number of nodes of a tree. -/
def size : Node → Nat
  | literal _ _ _ => 1
  | array es _ => 1 + sizeAll es
  | property _ v _ _ => 1 + sizeOpt v
  | object ps _ _ => 1 + sizeAll ps
  | decorator _ as _ => 1 + sizeAll as
  | classDecl _ ds ms _ => 1 + sizeAll ds + sizeAll ms
  | other _ ns _ => 1 + sizeAll ns

/-- The number of nodes of a list of trees. -/
def sizeAll : List Node → Nat
  | [] => 0
  | n :: ns => size n + sizeAll ns

/-- The number of nodes of a tree that may be absent. -/
def sizeOpt : Option Node → Nat
  | none => 0
  | some n => size n

end

/-- The work left on a stack of trees. -/
def stackSize : List (Option Node) → Nat
  | [] => 0
  | n :: ns => sizeOpt n + stackSize ns

@[simp] theorem stackSize_append (as bs : List (Option Node)) :
    stackSize (as ++ bs) = stackSize as + stackSize bs := by
  induction as with
  | nil => simp [stackSize]
  | cons a as ih => simp [stackSize, ih]; omega

theorem stackSize_map_some (ns : List Node) : stackSize (ns.map some) = sizeAll ns := by
  induction ns with
  | nil => simp [stackSize, sizeAll]
  | cons n ns ih => simp [stackSize, sizeAll, sizeOpt, ih]

theorem sizeAll_append (as bs : List Node) : sizeAll (as ++ bs) = sizeAll as + sizeAll bs := by
  induction as with
  | nil => simp [sizeAll]
  | cons a as ih => simp [sizeAll, ih]; omega

theorem size_eq_succ_parts (n : Node) : n.size = 1 + stackSize n.parts := by
  cases n <;> simp only [size, parts, stackSize, stackSize_map_some, sizeAll_append] <;> omega

/-! ## Walking -/

/-- Takes the tree on top of the stack, then puts its parts there. The walk ends at an absent
part. -/
def walkStack : List (Option Node) → List (Option Node)
  | [] => []
  | none :: _ => [none]
  | some n :: rest => some n :: walkStack (n.parts ++ rest)
termination_by stack => stackSize stack
decreasing_by
  simp only [stackSize_append, stackSize, sizeOpt]; rw [size_eq_succ_parts n]; omega

/-- Every node of a tree, each before its parts and the parts from left to right, up to the first
absent one. -/
def walk (n : Node) : List (Option Node) := walkStack [some n]

/-! ## Description -/

/-- What a value is called in a report. -/
def describe : Option Node → String
  | some (array _ _) => "array with non-literal elements"
  | some (other kind _ _) =>
    if kind = "template_string" then "template string with interpolation"
    else kind.map fun c => if c = '_' then ' ' else c
  | some (literal _ _ _) => "StringLiteral"
  | some (property _ _ _ _) => "Property"
  | some (object _ _ _) => "ObjectLiteral"
  | some (decorator _ _ _) => "Decorator"
  | some (classDecl _ _ _ _) => "ClassDeclaration"
  | none => "NoneType"

end Node

end AssetLift

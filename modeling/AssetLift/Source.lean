import AssetLift.Node.Lowering

/-!
# Reading a source file

A source file is read in two steps: the grammar gives a concrete tree, and a tree without faults is
lowered to source nodes.

* `Source.node` — the source node of a concrete tree.
-/

namespace AssetLift

namespace Source

/-- Turns the bytes of a file into a concrete tree, faults included. -/
abbrev Grammar := Bytes → Cst

/-- Why a source file cannot be read. -/
inductive Fault where
  /-- It does not follow the grammar. -/
  | parse (fault : Cst.Fault)
  | lowering (fault : Lowering.Fault)
  deriving DecidableEq

/-- The source node of the concrete tree of a file. -/
def node (source : Bytes) (tree : Cst) : Except Fault Node := do
  let tree ← (Cst.check source tree).mapError .parse
  (Lowering.lower source tree).mapError .lowering

end Source

end AssetLift

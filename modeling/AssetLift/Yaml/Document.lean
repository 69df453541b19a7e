import AssetLift.Yaml.Node
import AssetLift.Yaml.Scalar

/-!
# Configuration documents

The value that a document writes. Each node is given its meaning once, level by level from the root,
and the value is then unfolded from the graph of meanings. A list or map that is a part of itself is
unfolded up to the place where it comes round.

* `Cell` — the meaning of a node, which names its parts by place.
* `Meaning.ofGraph` — the meanings of the nodes of a graph.
* `Unfolding.unfold` — the value at a place.
* `Document.read` — the value of a document's text; a document without content writes nothing.
-/

namespace AssetLift

namespace Yaml

/-- The meaning of a node. -/
inductive Cell where
  | atom (v : Value)
  | list (items : List Nat)
  | pairs (items : List (Nat × Nat))
  | map (pairs : List (Nat × Nat))
  | set (members : List Nat)
  deriving Inhabited

/-! ## Meanings -/

/-- The state of giving nodes a meaning: the nodes, the meanings so far, and the places of lists and
maps whose parts have none yet. -/
structure Meaning where
  nodes : Array Node
  cells : Array (Option Cell)
  waiting : List Nat := []

namespace Meaning

/-- Giving a meaning may fail. -/
abbrev Step := StateT Meaning (Except Fault)

/-- Gives up. -/
def reject : Step α := throw .malformed

/-- The node at a place. -/
def nodeAt (place : Nat) : Step Node := do
  match (← get).nodes[place]? with
  | some n => return n
  | none => reject

/-- The meaning of the node at a place. -/
def cellAt? (place : Nat) : Step (Option Cell) := do return ((← get).cells[place]?).join

/-- Gives the node at a place a meaning. -/
def setCell (place : Nat) (c : Cell) : Step Unit :=
  modify fun m => { m with cells := m.cells.setIfInBounds place (some c) }

/-- Puts another node in a place. -/
def setNode (place : Nat) (n : Node) : Step Unit :=
  modify fun m => { m with nodes := m.nodes.setIfInBounds place n }

/-! ## Maps -/

/-- The pairs of the map at a place, if there is a map. -/
def pairsAt? (place : Nat) : Step (Option (List (Nat × Nat))) := do
  match ← nodeAt place with
  | .map _ pairs => return some pairs
  | _ => return none

/-- Sets the pairs of the map at a place. -/
def setPairs (place : Nat) (pairs : List (Nat × Nat)) : Step Unit := do
  setNode place (.map (← nodeAt place).kind pairs)

/-- Whether the node at a place is of a kind. -/
def isKind (k : Kind) (place : Nat) : Step Bool := do return (← nodeAt place).kind = k

/-- A key that would stand for its map is a text in a map of its own. -/
def plainKey (place : Nat) : Step Unit := do
  match ← nodeAt place with
  | .scalar .value text => setNode place (.scalar .text text)
  | _ => return ()

/-- The places of the maps that a merging key brings in, the last of a list first. -/
def mergedMaps (place : Nat) : Step (List Nat) := do
  match ← nodeAt place with
  | .map _ _ => return [place]
  | .list _ items => return items.reverse
  | .scalar _ _ => reject

/-- Puts the pairs of merged maps in front of those of the map at a place. At most `fuel` maps are
merged into one another. -/
def flatten : Nat → Nat → Step Unit
  | 0, _ => reject
  | fuel + 1, place => do
    match ← pairsAt? place with
    | none => reject
    | some pairs =>
      let merging ← pairs.filterM fun p => isKind .merge p.1
      let own ← pairs.filterM fun p => do return !(← isKind .merge p.1)
      own.forM fun p => plainKey p.1
      setPairs place own
      let merged ← merging.mapM fun p => do
        let maps ← mergedMaps p.2
        maps.forM (flatten fuel)
        return (← maps.mapM pairsAt?).flatMap (·.getD [])
      setPairs place (merged.flatten ++ own)

/-! ## Scalars -/

/-- The text of the scalar at a place. A map can give a text with the key that stands for it. -/
def textAt : Nat → Nat → Step Scalar.Text
  | 0, _ => reject
  | fuel + 1, place => do
    match ← nodeAt place with
    | .scalar _ text => return text
    | .map _ pairs =>
      match ← pairs.findM? fun p => isKind .value p.1 with
      | some p => textAt fuel p.2
      | none => reject
    | .list _ _ => reject

/-- Whether nodes of a kind have parts. -/
def hasParts : Kind → Bool
  | .list => true
  | .map => true
  | .set => true
  | .pairs => true
  | _ => false

/-- Gives the node at a place a meaning, if it has none. One with parts has to wait for them. -/
def visit (place : Nat) : Step Unit := do
  if (← cellAt? place).isSome then return ()
  let n ← nodeAt place
  if hasParts n.kind then
    setCell place (.list [])
    modify fun m => { m with waiting := m.waiting ++ [place] }
  else
    if n.kind = .unknown || n.kind = .merge || n.kind = .value then reject
    let text ← textAt ((← get).nodes.size + 1) place
    match n with
    | .map .moment _ => throw .notText
    | _ => setCell place (.atom (← Scalar.value n.kind text))

/-! ## Parts -/

/-- The key at a place, which has no parts. -/
def keyAt (place : Nat) : Step Value := do
  match ← cellAt? place with
  | some (.atom v) => return v
  | _ => reject

/-- Adds a pair to those of a map. A key that is there keeps its place and gets the value. -/
def putPair (kept : List (Value × Nat × Nat)) (key : Value) (pair : Nat × Nat) :
    List (Value × Nat × Nat) :=
  match kept with
  | [] => [(key, pair)]
  | e :: rest =>
    if e.1.sameKey key then (e.1, e.2.1, pair.2) :: rest else e :: putPair rest key pair

/-- Gives the pairs of a map a meaning. Of two pairs with one key the first key and the last value
count. -/
def visitPairs (pairs : List (Nat × Nat)) : Step (List (Nat × Nat)) := do
  let kept ← pairs.foldlM (fun kept pair => do
    visit pair.1
    let key ← keyAt pair.1
    visit pair.2
    return putPair kept key pair) []
  return kept.map (·.2)

/-- The only pair of the map at a place. -/
def onlyPair (place : Nat) : Step (Nat × Nat) := do
  match ← pairsAt? place with
  | some [p] =>
    visit p.1
    visit p.2
    return p
  | _ => reject

/-- The parts of the node at a place. -/
def parts (place : Nat) : Step Cell := do
  let n ← nodeAt place
  match n.kind, n with
  | .list, .list _ items =>
    items.forM visit
    return .list items
  | .pairs, .list _ items => .pairs <$> items.mapM onlyPair
  | .map, .map _ _ => .map <$> mapPairs place
  | .set, .map _ _ => (fun ps => .set (ps.map (·.1))) <$> mapPairs place
  | _, _ => reject
where
  mapPairs (place : Nat) : Step (List (Nat × Nat)) := do
    flatten ((← get).nodes.size + 1) place
    visitPairs ((← pairsAt? place).getD [])

/-- Gives the nodes that wait a meaning, the first one first; at most `fuel`. -/
def settle : Nat → Step Unit
  | 0 => return ()
  | fuel + 1 => do
    match (← get).waiting with
    | [] => return ()
    | place :: rest =>
      modify fun m => { m with waiting := rest }
      setCell place (← parts place)
      settle fuel

/-- The meanings of the nodes of a graph. -/
def ofGraph (g : Graph) : Except Fault (Array (Option Cell)) := do
  let start : Meaning := { nodes := g.nodes, cells := Array.replicate g.nodes.size none }
  let (_, m) ← (do visit g.root; settle g.nodes.size : Step Unit).run start
  return m.cells

end Meaning

/-! ## Values -/

/-- A value, and the places around it that it comes round to. -/
structure Unfolded where
  value : Value
  rounds : List Nat := []

namespace Unfolding

/-- The values of places that are no part of themselves, and of which no part comes round to a place
around them: these values are the same wherever they stand. -/
abbrev Known := StateM (List (Nat × Value))

/-- The value at a place, with the places around it. At most `fuel` levels. -/
def unfold (cells : Array (Option Cell)) : Nat → List Nat → Nat → Known Unfolded
  | 0, _, _ => return { value := .null }
  | fuel + 1, around, place => do
    let inner := unfold cells fuel (place :: around)
    let keep (value : Value) (rounds : List Nat) : Known Unfolded := do
      if rounds.isEmpty then modify ((place, value) :: ·)
      return { value, rounds := rounds.filter (· ≠ place) }
    let both (p : Nat × Nat) : Known ((Value × Value) × List Nat) := do
      let a ← inner p.1
      let b ← inner p.2
      return ((a.value, b.value), a.rounds ++ b.rounds)
    match (cells[place]?).join with
    | none => return { value := .null }
    | some (.atom v) => return { value := v }
    | some cell =>
      if around.contains place then
        let isMap := match cell with
          | .map _ => true
          | _ => false
        return { value := .again isMap, rounds := [place] }
      match (← get).lookup place with
      | some v => return { value := v }
      | none =>
        match cell with
        | .atom v => return { value := v }
        | .list items =>
          let us ← items.mapM inner
          keep (.list (us.map (·.value))) (us.flatMap (·.rounds))
        | .set items =>
          let us ← items.mapM inner
          keep (.set (us.map (·.value))) (us.flatMap (·.rounds))
        | .pairs items =>
          let us ← items.mapM both
          keep (.list (us.map fun u => .pair u.1.1 u.1.2)) (us.flatMap (·.2))
        | .map items =>
          let us ← items.mapM both
          keep (.map (us.map (·.1))) (us.flatMap (·.2))

end Unfolding

namespace Document

/-- The value of a place on its own. -/
def valueAt (cells : Array (Option Cell)) (place : Nat) : StateM (List (Nat × Value)) Value :=
  (·.value) <$> Unfolding.unfold cells (cells.size + 1) [] place

/-- The value of the root. The values of a map's keys are unfolded each on its own. -/
def rootValue (cells : Array (Option Cell)) (root : Nat) : Value :=
  match (cells[root]?).join with
  | some (.map pairs) =>
    let values := pairs.mapM fun (k, v) => do
      return (← valueAt cells k, ← valueAt cells v)
    .map (values.run []).1
  | _ => ((valueAt cells root).run []).1

/-- The value of a document's text. -/
def read (text : String) : Except Fault Value := do
  let (ts, fault) := tokens text.toList
  match ← Graph.ofTokens? ts fault with
  | none => return .null
  | some g => return rootValue (← Meaning.ofGraph g) g.root

end Document

end Yaml

end AssetLift

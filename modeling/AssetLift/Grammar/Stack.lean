import AssetLift.Grammar.State
import AssetLift.Grammar.Tree

/-!
# Stacks of a reading

What has been read and not yet put together. Where readings of the same text have met again in one
state, a layer of the stack has several layers below it.

* `Layer` — the top of a stack.
* `Layer.pop` — the ways to take the parts of a form off a stack.
* `Layer.merge` — one stack for two readings that have met.
-/

namespace AssetLift

namespace Grammar

/-- The top of a stack: its state, the place reached in the text, the weight of all below it, and
what stands below it. -/
inductive Layer (π : Type) where
  | mk (id : Nat) (state : State) (place : π) (weight : Int) (links : List (Layer π × Tree))

namespace Layer

variable {π : Type}

/-- Tells a layer from others. -/
def id : Layer π → Nat
  | mk id _ _ _ _ => id

/-- The state of a layer. -/
def state : Layer π → State
  | mk _ state _ _ _ => state

/-- The place that a layer has reached. -/
def place : Layer π → π
  | mk _ _ place _ _ => place

/-- The weight of all trees of a stack. -/
def weight : Layer π → Int
  | mk _ _ _ weight _ => weight

/-- What stands below a layer. -/
def links : Layer π → List (Layer π × Tree)
  | mk _ _ _ _ links => links

/-- A layer on top of another. -/
def push (id : Nat) (state : State) (place : π) (tree : Tree) (under : Layer π) : Layer π :=
  mk id state place (under.weight + tree.weight) [(under, tree)]

/-! ## Popping -/

/-- A way down a stack: where it has come to, how many parts it lacks, and the trees on it. -/
structure Way (π : Type) where
  layer : Layer π
  lacking : Nat
  trees : List Tree

variable {τ : Type} (T : Table τ)

/-- One layer further down; trivia are no parts. -/
def Way.step (w : Way π) (link : Layer π × Tree) : Way π :=
  ⟨link.1, if link.2.isTrivia T then w.lacking else w.lacking - 1, link.2 :: w.trees⟩

/-- Goes down all ways by one layer. Ways that are complete are given first, then those that go on,
new ones last. -/
def stepAll : List (Way π) → List (Way π) × List (Way π) × List (Way π)
  | [] => ([], [], [])
  | w :: ws =>
    let (complete, going, new) := stepAll ws
    if w.lacking = 0 then (w :: complete, going, new)
    else
      match w.layer.links with
      | [] => (complete, going, new)
      | link :: links => (complete, w.step T link :: going, links.map (w.step T) ++ new)

/-- Goes down all ways, at most `fuel` layers. -/
def walk : Nat → List (Way π) → List (Way π)
  | 0, _ => []
  | fuel + 1, ws =>
    if ws.isEmpty then []
    else
      let (complete, going, new) := stepAll T ws
      complete ++ walk fuel (going ++ new)

/-- Puts a way to those that end in the same layer. -/
def gather (w : Way π) : List (Layer π × List (List Tree)) → List (Layer π × List (List Tree))
  | [] => [(w.layer, [w.trees])]
  | (layer, found) :: rest =>
    if layer.id = w.layer.id then (layer, found ++ [w.trees]) :: rest
    else (layer, found) :: gather w rest

/-- The ways to take the parts of a form off a stack, by the layer they end in. -/
def pop (fuel count : Nat) (l : Layer π) : List (Layer π × List (List Tree)) :=
  (walk T fuel [⟨l, count, []⟩]).foldl (fun found w => gather w found) []

/-- The ways down to the bottom of a stack. -/
def bottom : Nat → List (Way π) → List (List Tree)
  | 0, _ => []
  | fuel + 1, ws =>
    ws.flatMap fun w =>
      match w.layer.links with
      | [] => [w.trees]
      | links => bottom fuel (links.map fun (l, t) => ⟨l, 0, t :: w.trees⟩)

/-! ## Merging -/

/-- How many layers a stack may have below one layer. -/
def maxLinks : Nat := 8

/-- Whether two stacks have met: they are in one state at one place. -/
def hasMet (offset : π → Nat) (a b : Layer π) : Bool :=
  offset a.place = offset b.place && a.state = b.state

mutual

/-- Adds a way down to a layer, at most `fuel` layers deep. If it starts like one that is there, the
two are made one further down. -/
def addLink (offset : π → Nat) : Nat → Layer π → Layer π × Tree → Layer π
  | 0, l, _ => l
  | fuel + 1, l, link =>
    if link.1.id = l.id then l
    else
      match l with
      | mk id state place weight links =>
        let total := link.1.weight + link.2.weight
        match joinLinks offset fuel link links with
        | some joined => mk id state place (max weight total) joined
        | none =>
          if links.length ≥ maxLinks then l
          else mk id state place (max weight total) (links ++ [link])

/-- Makes a way down one with the first that starts like it. -/
def joinLinks (offset : π → Nat) :
    Nat → Layer π × Tree → List (Layer π × Tree) → Option (List (Layer π × Tree))
  | 0, _, _ => none
  | _ + 1, _, [] => none
  | fuel + 1, link, (b, t) :: rest =>
    if t.isAlike T link.2 && b.id = link.1.id then
      some ((b, if link.2.weight > t.weight then link.2 else t) :: rest)
    else if t.isAlike T link.2 && hasMet offset b link.1 then
      some ((addLinks offset fuel b link.1.links, t) :: rest)
    else ((b, t) :: ·) <$> joinLinks offset fuel link rest

/-- Adds ways down to a layer. -/
def addLinks (offset : π → Nat) : Nat → Layer π → List (Layer π × Tree) → Layer π
  | 0, l, _ => l
  | _ + 1, l, [] => l
  | fuel + 1, l, link :: links => addLinks offset fuel (addLink offset fuel l link) links

end

/-- How deep two stacks are compared when they are made one. -/
def mergeDepth : Nat := 200

/-- One stack for two readings that have met. -/
def merge (offset : π → Nat) (a b : Layer π) : Layer π := addLinks T offset mergeDepth a b.links

end Layer

end Grammar

end AssetLift

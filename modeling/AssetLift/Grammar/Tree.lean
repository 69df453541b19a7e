import AssetLift.Grammar.Table

/-!
# Trees of a numbered grammar

What has been read, token by token and form by form.

* `Tree` — a token, or a form with its parts.
* `Tree.order` — an order on trees, by the numbers of their symbols.
* `Tree.isBetter` — which of two readings of the same text is kept.
-/

namespace AssetLift

namespace Grammar

/-- What has been read. -/
inductive Tree where
  | leaf (token start stop : Nat)
  | node (form start stop : Nat) (weight : Int) (parts : List Tree)
  deriving Inhabited

namespace Tree

/-- Where a tree starts. -/
def start : Tree → Nat
  | leaf _ start _ => start
  | node _ start _ _ _ => start

/-- Where a tree ends. -/
def stop : Tree → Nat
  | leaf _ _ stop => stop
  | node _ _ stop _ _ => stop

/-- The weight of all forms of a tree. -/
def weight : Tree → Int
  | leaf _ _ _ => 0
  | node _ _ _ weight _ => weight

/-- The parts of a tree. -/
def parts : Tree → List Tree
  | leaf _ _ _ => []
  | node _ _ _ _ parts => parts

/-- Whether a tree is a token that may stand anywhere. -/
def isTrivia {τ : Type} (T : Table τ) : Tree → Bool
  | leaf token _ _ => T.trivia.contains token
  | node _ _ _ _ _ => false

/-- A form with its parts; without parts it stands at the given place. -/
def ofParts (form : Nat) (weight : Int) (place : Nat) (parts : List Tree) : Tree :=
  node form ((parts.head?.map start).getD place) ((parts.getLast?.map stop).getD place)
    (parts.foldl (fun sum part => sum + part.weight) weight) parts

variable {τ : Type} (T : Table τ)

/-- The number of a tree's symbol; tokens come before symbols with a form. -/
def code : Tree → Nat
  | leaf token _ _ => token
  | node form _ _ _ _ => T.tokens.size + (T.forms.getD form default).symbol

mutual

/-- The order of trees: by symbol, by the number of parts, then by the parts. -/
def order : Tree → Tree → Ordering
  | leaf t _ _, u => compare t (u.code T)
  | node f s e w ps, u =>
    ((compare (code T (node f s e w ps)) (u.code T)).then
      (compare ps.length u.parts.length)).then (orderAll ps u.parts)

/-- The order of lists of trees of the same length. -/
def orderAll : List Tree → List Tree → Ordering
  | [], _ => .eq
  | _ :: _, [] => .eq
  | t :: ts, u :: us => (order t u).then (orderAll ts us)

end

/-- Whether another reading is better than a tree: it is heavier, or as heavy and earlier in the
order. -/
def isBetter (old new : Tree) : Bool :=
  if new.weight > old.weight then true
  else if old.weight > new.weight then false
  else order T old new = .gt

/-- Whether two trees stand for the same stretch of text. -/
def isAlike (a b : Tree) : Bool :=
  a.code T = b.code T && a.start = b.start && a.stop = b.stop
    && a.parts.length = b.parts.length

end Tree

end Grammar

end AssetLift

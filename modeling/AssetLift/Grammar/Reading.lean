import AssetLift.Grammar.Stack

/-!
# Reading a text

All readings that the actions of a state allow are followed side by side, token by token. A reading
that has no action left is given up as long as another goes on; readings that meet again in one
state go on as one.

* `Scanner` — how tokens are taken off a text.
* `Reading.advance` — reads one token in one of the readings.
* `Reading.condense` — gives up and puts together readings between two tokens.
* `read` — the trees of a whole text: its tree, with the trivia around it.
-/

namespace AssetLift

namespace Grammar

/-- A token taken off a text. -/
structure Scanned (π : Type) where
  token : Nat
  /-- The token to take instead if that one has no action. -/
  other : Option Nat
  start : Nat
  stop : Nat
  next : π

/-- How tokens are taken off a text: the offset of a place, and the token at a place where some are
acceptable. -/
structure Scanner (π : Type) where
  offset : π → Nat
  scan : Tokens → π → Option (Scanned π)

/-- Whether a reading goes on. -/
inductive Standing where
  | active
  /-- There was no action for its next token. -/
  | stuck
  /-- It has ended, or another has taken its place. -/
  | over
  deriving DecidableEq

/-- One of the readings of a text. -/
structure Head (π : Type) where
  layer : Layer π
  standing : Standing := .active

/-- The readings of a text, and the trees of the best that is complete. -/
structure Reading (π : Type) where
  heads : Array (Head π)
  fresh : Nat
  complete : Option (List Tree) := none

namespace Reading

/-- How many readings are followed beyond the next token. -/
def maxHeads : Nat := 6

/-- How many more there may be in between. -/
def maxExcess : Nat := 4

variable {π τ : Type} (T : Table τ) (S : Scanner π)

/-- The reading of a text from its start. -/
def start (place : π) : Reading π :=
  ⟨#[⟨.mk 0 (.initial T) place 0 [], .active⟩], 1, none⟩

/-- Changes one of the readings. -/
def setHead (r : Reading π) (v : Nat) (h : Head π) : Reading π :=
  { r with heads := r.heads.setIfInBounds v h }

/-- Changes the standing of one of the readings. -/
def setStanding (r : Reading π) (v : Nat) (standing : Standing) : Reading π :=
  { r with heads := r.heads.modify v fun h => { h with standing } }

/-- Puts a tree on top of a stack. -/
def push (r : Reading π) (l : Layer π) (state : State) (place : π) (tree : Tree) :
    Reading π × Layer π :=
  ({ r with fresh := r.fresh + 1 }, l.push r.fresh state place tree)

/-- Whether two readings have met. -/
def haveMet (a b : Head π) : Bool :=
  a.standing = .active && b.standing = .active && a.layer.hasMet S.offset b.layer

/-! ## Putting parts together -/

/-- The parts of a form, and the trivia after them. -/
def splitTrivia (trees : List Tree) : List Tree × List Tree :=
  let trailing := (trees.reverse.takeWhile (·.isTrivia T)).reverse
  (trees.take (trees.length - trailing.length), trailing)

/-- The best of the ways to put parts together, and the trivia after it. -/
def bestWay (form place : Nat) (ways : List (List Tree)) : Tree × List Tree :=
  let made := ways.map fun trees =>
    let (parts, trailing) := splitTrivia T trees
    (Tree.ofParts form 0 place parts, trailing)
  match made with
  | [] => (.ofParts form 0 place [], [])
  | m :: ms => ms.foldl (fun best m => if best.1.isBetter T m.1 then m else best) m

/-- Adds a reading, unless it has met one of the others but `v`. -/
def addHead (r : Reading π) (v : Nat) (h : Head π) : Reading π :=
  match (List.range r.heads.size).find? fun j =>
      j ≠ v && r.heads[j]?.any (haveMet S · h) with
  | some j =>
    { r with heads := r.heads.modify j fun old =>
        { old with layer := old.layer.merge T S.offset h.layer } }
  | none => { r with heads := r.heads.push h }

/-- Adds the reading in which a form is done, for one of the layers its parts started on. -/
def addReduced (r : Reading π) (v form : Nat) (top : Layer π)
    (way : Layer π × List (List Tree)) : Reading π :=
  let gone := r.heads.countP (·.standing = .over)
  if r.heads.size > maxHeads + maxExcess + gone then r
  else
    let f := T.form form
    let (made, trailing) := bestWay T form (S.offset top.place) way.2
    let tree := match made with
      | .node form start stop weight parts => .node form start stop (weight + f.weight) parts
      | leaf => leaf
    let state := way.1.state.next T (.symbol f.symbol)
    let (r, layer) := r.push way.1 state top.place tree
    let (r, layer) := trailing.foldl (fun (r, layer) t =>
      Reading.push r layer state top.place t) (r, layer)
    r.addHead T S v ⟨layer, .active⟩

/-- Follows the action that a form is done, as new readings. -/
def reduce (fuel : Nat) (r : Reading π) (v form : Nat) (top : Layer π) : Reading π :=
  (top.pop T fuel (T.form form).parts.size).foldl (fun r way => r.addReduced T S v form top way) r

/-- Notes a complete reading if it is better than the one noted before. -/
def accept (fuel : Nat) (r : Reading π) (top : Layer π) : Reading π :=
  let main (trees : List Tree) : Tree := (trees.find? (!·.isTrivia T)).getD default
  (Layer.bottom fuel [⟨top, 0, []⟩]).foldl (fun r trees =>
    match r.complete with
    | none => { r with complete := some trees }
    | some old =>
      if (main old).isBetter T (main trees) then { r with complete := some trees } else r) r

/-! ## Reading a token -/

/-- What has become of a reading after the actions for a token. -/
inductive Followed where
  /-- The token has been read, or the text is done. -/
  | finished
  /-- Forms were done; the reading at the given place goes on with the same token, if there is one. -/
  | reduced (newest : Option Nat)

/-- Follows the actions for a token. -/
def follow (fuel : Nat) (r : Reading π) (v : Nat) (top : Layer π) (t : Scanned π)
    (newest : Option Nat) : List Action → Reading π × Followed
  | [] => (r, .reduced newest)
  | .reduce form :: rest =>
    let added := r.reduce T S fuel v form top
    let newest := if r.heads.size < added.heads.size then some r.heads.size else newest
    follow fuel added v top t newest rest
  | .shift next :: _ =>
    let (r, layer) := r.push top next t.next (.leaf t.token t.start t.stop)
    (r.setHead v ⟨layer, .active⟩, .finished)
  | .accept :: _ => ((r.accept T fuel top).setStanding v .over, .finished)

/-- Puts the reading at place `i` in the place of reading `v`. -/
def replaceBy (r : Reading π) (v i : Nat) : Reading π :=
  match r.heads[i]? with
  | some h => { r with heads := (r.heads.setIfInBounds v h).eraseIdxIfInBounds i }
  | none => r

/-- Reads a token in reading `v`, through at most `fuel` forms that are done before it. -/
def settle (depth : Nat) : Nat → Reading π → Nat → Scanned π → Reading π
  | 0, r, v, _ => r.setStanding v .stuck
  | fuel + 1, r, v, t =>
    match r.heads[v]? with
    | none => r
    | some h =>
      let top := h.layer
      match top.state.actions T t.token with
      | [] =>
        if T.trivia.contains t.token then
          let (r, layer) := r.push top top.state t.next (.leaf t.token t.start t.stop)
          r.setHead v ⟨layer, .active⟩
        else
          match t.other with
          | some other => settle depth fuel r v { t with token := other, other := none }
          | none => r.setStanding v .stuck
      | acts =>
        match r.follow T S depth v top t none acts with
        | (r, .finished) => r
        | (r, .reduced (some i)) => settle depth fuel (r.replaceBy v i) v t
        | (r, .reduced none) => r.setStanding v .over

/-- Reads one token in reading `v`. -/
def advance (fuel : Nat) (r : Reading π) (v : Nat) : Reading π :=
  match r.heads[v]? with
  | none => r
  | some h =>
    match S.scan (h.layer.state.acceptable T) h.layer.place with
    | none => r.setStanding v .stuck
    | some t => r.settle T S fuel fuel v t

/-! ## Between two tokens -/

/-- Puts a reading among those before it: it is made one with the first that it has met, and goes
before the first that weighs less than `weight`, which then takes its place further on. -/
def insertHead (weight : Int) (h : Head π) : List (Head π) → List (Head π)
  | [] => [h]
  | g :: gs =>
    if haveMet S g h then { g with layer := g.layer.merge T S.offset h.layer } :: gs
    else if g.layer.weight < weight then h :: insertHead weight g gs
    else g :: insertHead weight h gs

/-- Keeps the readings that go on, the heaviest first, and not too many. -/
def condense (r : Reading π) : Reading π :=
  let active := r.heads.toList.filter (·.standing = .active)
  let kept := active.foldl (fun heads h => insertHead T S h.layer.weight h heads) []
  { r with heads := (kept.take maxHeads).toArray }

/-- The offset that a reading has reached. -/
def reached (r : Reading π) (v : Nat) : Nat :=
  (r.heads[v]?.map fun h => S.offset h.layer.place).getD 0

/-- Whether a reading goes on. -/
def isActive (r : Reading π) (v : Nat) : Bool := r.heads[v]?.any (·.standing = .active)

/-- Reads tokens in reading `v` until it has come further than the readings before it. -/
def catchUp (depth : Nat) : Nat → Reading π → Nat → Nat → Reading π × Nat
  | 0, r, _, last => (r, last)
  | fuel + 1, r, v, last =>
    if r.isActive v then
      let r := r.advance T S depth v
      let here := r.reached S v
      if last < here || (0 < v && here = last) then (r, here) else catchUp depth fuel r v last
    else (r, last)

/-- Lets the readings from `v` on come further, one after the other. -/
def sweep (depth : Nat) : Nat → Reading π → Nat → Nat → Reading π × Nat
  | 0, r, _, last => (r, last)
  | fuel + 1, r, v, last =>
    if v < r.heads.size then
      let (r, last) := catchUp T S depth depth r v last
      sweep depth fuel r (v + 1) last
    else (r, last)

/-- Reads on until no reading is left. -/
def run (depth : Nat) : Nat → Reading π → Nat → Reading π
  | 0, r, _ => r
  | fuel + 1, r, last =>
    let (r, last) := r.sweep T S depth depth 0 last
    let r := r.condense T S
    if r.heads.isEmpty then r else run depth fuel r last

end Reading

/-- The trees of a text: its tree, with the trivia before and after it; none if the text does not
follow the grammar. `depth` bounds the number of steps between two tokens. -/
def read {π τ : Type} (T : Table τ) (S : Scanner π) (depth : Nat) (place : π) :
    Option (List Tree) :=
  ((Reading.start T place).run T S depth depth 0).complete

end Grammar

end AssetLift

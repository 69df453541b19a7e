import AssetLift.Yaml.Kind
import AssetLift.Yaml.Token

/-!
# Nodes of a configuration document

A document is a graph of scalars, lists and maps, before scalars are given a meaning. A node that an
alias names is a part of every node with the alias, and may be a part of itself.

* `Node`, `Graph` — the nodes, which name their parts by place, and all nodes of a document.
* `Graph.ofTokens?` — the graph of a document's tokens, if there is a document.
-/

namespace AssetLift

namespace Yaml

/-- A node of a document. Its parts are places in the graph. -/
inductive Node where
  | scalar (kind : Kind) (text : List CodePoint)
  | list (kind : Kind) (items : List Nat)
  | map (kind : Kind) (pairs : List (Nat × Nat))
  deriving DecidableEq, Inhabited

/-- The kind of a node. -/
def Node.kind : Node → Kind
  | .scalar k _ => k
  | .list k _ => k
  | .map k _ => k

/-- The nodes of a document, and the place of the one that holds all others. -/
structure Graph where
  nodes : Array Node
  root : Nat

namespace Graph

/-- The state of reading: the tokens left and the fault after them, the nodes so far, the places
that have names, and what the handles of tags stand for. -/
structure Reading where
  tokens : List Token
  fault : Option Fault := none
  nodes : Array Node := #[]
  anchors : List (String × Nat) := []
  handles : List (String × String) := []

/-- Reading may fail. -/
abbrev Reader := StateT Reading (Except Fault)

/-- Gives up. -/
def reject : Reader α := throw .malformed

/-- The next token. -/
def peek : Reader Token := do
  let r ← get
  match r.tokens, r.fault with
  | t :: _, _ => return t
  | [], some f => throw f
  | [], none => return .streamEnd

/-- Drops the next token. -/
def skip : Reader Unit := modify fun r => { r with tokens := r.tokens.tail }

/-- Drops the next token if it is the given one; says whether it was. -/
def skipIf (t : Token) : Reader Bool := do
  if (← peek) = t then
    skip
    return true
  else return false

/-- Drops the given token, which has to be next. -/
def expect (t : Token) : Reader Unit := do if !(← skipIf t) then reject

/-! ## Properties -/

/-- What handles stand for unless a directive says otherwise. -/
def commonHandles : List (String × String) := [("!", "!"), ("!!", Kind.commonTags)]

/-- The full name of a tag. -/
def tagText (t : Tag) : Reader String := do
  match t.handle with
  | none => return t.suffix
  | some handle =>
    let r ← get
    match r.handles.lookup handle, commonHandles.lookup handle with
    | some target, _ => return target ++ t.suffix
    | none, some target => return target ++ t.suffix
    | none, none => reject

/-- The anchor and the tag in front of a node, in any order. -/
def properties : Reader (Option String × Option String) := do
  match ← peek with
  | .anchor name =>
    skip
    match ← peek with
    | .tag t =>
      skip
      return (some name, some (← tagText t))
    | _ => return (some name, none)
  | .tag t =>
    skip
    let text ← tagText t
    match ← peek with
    | .anchor name =>
      skip
      return (some name, some text)
    | _ => return (none, some text)
  | _ => return (none, none)

/-- Refuses a name that a node already has. -/
def checkName (name : Option String) : Reader Unit := do
  match name with
  | some n => if ((← get).anchors.lookup n).isSome then reject
  | none => return ()

/-- Adds a node, and gives it a name. -/
def add (name : Option String) (n : Node) : Reader Nat := do
  let r ← get
  let place := r.nodes.size
  set { r with
    nodes := r.nodes.push n
    anchors := name.toList.map (·, place) ++ r.anchors }
  return place

/-- Puts another node in a place. -/
def replace (place : Nat) (n : Node) : Reader Nat := do
  modify fun r => { r with nodes := r.nodes.setIfInBounds place n }
  return place

/-- The kind of a list or a map: the tag's, or its own if the tag leaves it open. -/
def kindOf (own : Kind) (tag : Option String) : Kind :=
  match tag with
  | none => own
  | some t => if t = "!" then own else Kind.ofTag t

/-- The kind of a scalar. Without a tag a plain scalar is what it is written like; with a tag that
leaves it open, every scalar is. -/
def scalarKind (tag : Option String) (text : List CodePoint) (plain : Bool) : Kind :=
  if plain then kindOf (Kind.ofScalar text) tag
  else
    match tag with
    | none => .text
    | some _ => kindOf (Kind.ofScalar text) tag

/-- Adds a scalar. -/
def addScalar (name tag : Option String) (text : List CodePoint) (plain : Bool) : Reader Nat :=
  add name (.scalar (scalarKind tag text plain) text)

/-- Adds a node that nothing was written for. -/
def absent : Reader Nat := addScalar none none [] true

/-- Adds a list whose items are read after it has its name. -/
def addList (name tag : Option String) (items : Reader (List Nat)) : Reader Nat := do
  let kind := kindOf .list tag
  let place ← add name (.list kind [])
  replace place (.list kind (← items))

/-- Adds a map whose pairs are read after it has its name. -/
def addMap (name tag : Option String) (pairs : Reader (List (Nat × Nat))) : Reader Nat := do
  let kind := kindOf .map tag
  let place ← add name (.map kind [])
  replace place (.map kind (← pairs))

/-! ## Nodes -/

/-- The tokens before which a value can be missing in a block map. -/
def endsBlockItem (t : Token) : Bool := t = .key || t = .value || t = .blockEnd

mutual

/-- A node. Block collections are read only if `block` is set, and lists without an indentation of
their own only if `flush` is. -/
def read : Nat → Bool → Bool → Reader Nat
  | 0, _, _ => reject
  | fuel + 1, block, flush => do
    match ← peek with
    | .alias name =>
      skip
      match (← get).anchors.lookup name with
      | some place => return place
      | none => reject
    | _ =>
      let (name, tag) ← properties
      let t ← peek
      checkName name
      if flush ∧ t = .blockEntry then addList name tag (flushItems fuel)
      else
        match t with
        | .scalar text plain =>
          skip
          addScalar name tag text plain
        | .flowListStart =>
          skip
          addList name tag (flowItems fuel true)
        | .flowMapStart =>
          skip
          addMap name tag (flowPairs fuel true)
        | .blockListStart =>
          if !block then reject
          skip
          addList name tag (blockItems fuel)
        | .blockMapStart =>
          if !block then reject
          skip
          addMap name tag (blockPairs fuel)
        | _ => if name.isSome || tag.isSome then addScalar name tag [] true else reject

/-- The entries of a block list. -/
def blockItems : Nat → Reader (List Nat)
  | 0 => reject
  | fuel + 1 => do
    if ← skipIf .blockEntry then
      let t ← peek
      let item ← if t = .blockEntry ∨ t = .blockEnd then absent else read fuel true false
      return item :: (← blockItems fuel)
    else
      expect .blockEnd
      return []

/-- The entries of a list that stands as far out as the map around it. -/
def flushItems : Nat → Reader (List Nat)
  | 0 => reject
  | fuel + 1 => do
    if ← skipIf .blockEntry then
      let t ← peek
      let item ← if t = .blockEntry ∨ endsBlockItem t then absent else read fuel true false
      return item :: (← flushItems fuel)
    else return []

/-- The pairs of a block map. -/
def blockPairs : Nat → Reader (List (Nat × Nat))
  | 0 => reject
  | fuel + 1 => do
    if ← skipIf .key then
      let k ← if endsBlockItem (← peek) then absent else read fuel true true
      let v ←
        if ← skipIf .value then
          if endsBlockItem (← peek) then absent else read fuel true true
        else absent
      return (k, v) :: (← blockPairs fuel)
    else
      expect .blockEnd
      return []

/-- The entries of a flow list. An entry with a colon is a map of one pair. -/
def flowItems : Nat → Bool → Reader (List Nat)
  | 0, _ => reject
  | fuel + 1, first => do
    if ← skipIf .flowListEnd then return []
    else
      if !first then expect .flowEntry
      let t ← peek
      if t = .flowListEnd then
        skip
        return []
      else if t = .key then
        skip
        let t ← peek
        let k ←
          if t = .value ∨ t = .flowEntry ∨ t = .flowListEnd then absent
          else read fuel false false
        let v ← flowValue fuel .flowListEnd
        let item ← add none (.map .map [(k, v)])
        return item :: (← flowItems fuel false)
      else
        let item ← read fuel false false
        return item :: (← flowItems fuel false)

/-- The pairs of a flow map. An entry without a colon is a key alone. -/
def flowPairs : Nat → Bool → Reader (List (Nat × Nat))
  | 0, _ => reject
  | fuel + 1, first => do
    if ← skipIf .flowMapEnd then return []
    else
      if !first then expect .flowEntry
      let t ← peek
      if t = .flowMapEnd then
        skip
        return []
      else if t = .key then
        skip
        let t ← peek
        let k ←
          if t = .value ∨ t = .flowEntry ∨ t = .flowMapEnd then absent
          else read fuel false false
        let v ← flowValue fuel .flowMapEnd
        return (k, v) :: (← flowPairs fuel false)
      else
        let k ← read fuel false false
        let v ← absent
        return (k, v) :: (← flowPairs fuel false)

/-- The value of a pair in a flow collection. -/
def flowValue : Nat → Token → Reader Nat
  | 0, _ => reject
  | fuel + 1, closing => do
    if ← skipIf .value then
      let t ← peek
      if t = .flowEntry ∨ t = closing then absent else read fuel false false
    else absent

end

/-! ## Documents -/

/-- Reads directives. A document tells its version once, which has to be one of the first, and no
handle gets two meanings. -/
def directives : Nat → Bool → Reader Unit
  | 0, _ => return ()
  | fuel + 1, versioned => do
    match ← peek with
    | .version major =>
      if versioned || major ≠ 1 then reject
      skip
      directives fuel true
    | .handle name target =>
      let r ← get
      if (r.handles.lookup name).isSome then reject
      set { r with handles := (name, target) :: r.handles }
      skip
      directives fuel versioned
    | .remark =>
      skip
      directives fuel versioned
    | _ => return ()

/-- Drops the marks that end a document. -/
def skipEnds : Nat → Reader Unit
  | 0 => return ()
  | fuel + 1 => do if ← skipIf .documentEnd then skipEnds fuel

/-- Whether a token is a directive. -/
def isDirective : Token → Bool
  | .version _ => true
  | .handle _ _ => true
  | .remark => true
  | _ => false

/-- Whether a token stands where a document's content would. -/
def endsContent : Token → Bool
  | .version _ => true
  | .handle _ _ => true
  | .remark => true
  | .documentStart => true
  | .documentEnd => true
  | .streamEnd => true
  | _ => false

/-- The place of the only document, if there is one. -/
def document : Reader (Option Nat) := do
  let fuel := 2 * (← get).tokens.length + 4
  let t ← peek
  if t = .streamEnd then return none
  let root ←
    if isDirective t || t = .documentStart then do
      directives fuel false
      expect .documentStart
      if endsContent (← peek) then absent else read fuel true false
    else read fuel true false
  skipEnds fuel
  expect .streamEnd
  return some root

/-- The graph of a document's tokens and the fault after them; none if there is no document. -/
def ofTokens? (tokens : List Token) (fault : Option Fault) : Except Fault (Option Graph) := do
  let (root, r) ← document.run { tokens, fault }
  return root.map fun root => ⟨r.nodes, root⟩

end Graph

end Yaml

end AssetLift

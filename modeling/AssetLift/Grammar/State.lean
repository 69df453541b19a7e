import AssetLift.Grammar.Table

/-!
# States of reading

While a text is read, a state says which forms may be under way, how far each has been read, and
which tokens may follow it. Nothing is prepared but the table: a state is made when it is reached.

* `Item`, `State` — forms under way.
* `State.next` — the state after one more part.
* `State.acceptable` — the tokens that may come next.
* `State.actions` — what to do before a token. Ranks decide between reading on and being done; if
  they leave several actions, all of them are followed.
-/

namespace AssetLift

namespace Grammar

/-- A form read up to a point, and the tokens that may follow the whole of it. -/
structure Item where
  form : Nat
  done : Nat
  ahead : Tokens
  deriving DecidableEq

/-- The forms under way, those least read first. -/
structure State where
  items : List Item
  deriving DecidableEq

/-- What to do before a token. -/
inductive Action where
  /-- Read the token. -/
  | shift (next : State)
  /-- A form is done. -/
  | reduce (form : Nat)
  /-- The text is done. -/
  | accept
  deriving DecidableEq

namespace Table

variable {τ : Type} (T : Table τ)

/-- A form by number. -/
def form (i : Nat) : Form := T.forms.getD i default

/-- The next part of an item. -/
def nextPart? (i : Item) : Option Part.Code := (T.form i.form).part? i.done

/-- The tokens that may come after the next part of an item. -/
def afterNext (i : Item) : Tokens :=
  match (T.form i.form).part? (i.done + 1) with
  | some part => firstOf T.first part
  | none => i.ahead

/-- The rank of an item: that of the last step read. -/
def rankOf (i : Item) : Rank × Option Side :=
  match i.done with
  | 0 => (.unranked, none)
  | n + 1 => (T.form i.form).ranks.getD n (.unranked, none)

/-- What follows the second symbol at the start of the first. -/
def following? (outer inner : Nat) : Option Following :=
  (T.following.getD outer #[]).getD inner none

/-- The forms that start with a part. -/
def startingWith : Part.Code → List Nat
  | .token i => T.byToken.getD i []
  | .symbol i => T.bySymbol.getD i []

/-! ## Ranks -/

/-- Whether an entry in a line of ranks is meant by a rank or by one of some symbols. -/
def isMeant (r : Rank) (symbols : List Nat) : Precedent → Bool
  | .named name => r = .named name
  | .symbol name => symbols.any fun i => T.names.getD i "" = name

/-- How a line of ranks orders two readings, of which some may have been met in it. -/
def orderIn (a b : Rank × List Nat) : Bool → Bool → List Precedent → Option Ordering
  | _, _, [] => none
  | metA, metB, e :: rest =>
    if T.isMeant a.1 a.2 e then
      if metB then some .lt else orderIn a b true metB rest
    else if T.isMeant b.1 b.2 e then
      if metA then some .gt else orderIn a b metA true rest
    else orderIn a b metA metB rest

/-- How two readings are ordered: by level if they have one, else by the first line of ranks that
tells. -/
def order (a b : Rank × List Nat) : Ordering :=
  let byLine := (T.precedence.findSome? (T.orderIn a b false false)).getD .eq
  match a.1, b.1 with
  | .level m, .level n => if m ≠ 0 || n ≠ 0 then compare m n else byLine
  | .level m, .unranked => if m ≠ 0 then compare m 0 else byLine
  | .unranked, .level n => if n ≠ 0 then compare 0 n else byLine
  | _, _ => byLine

end Table

namespace State

variable {τ : Type} (T : Table τ)

/-- The state before a text. The form of an empty text is done at once. -/
def initial : State :=
  let whole : Item := ⟨0, 0, .single T.final⟩
  let empty := (List.range T.forms.size).filter fun i => (T.form i).parts.isEmpty
  ⟨whole :: empty.map (⟨·, 0, .single T.final⟩)⟩

/-! ## Reading a part -/

/-- Adds the tokens that follow a symbol. -/
def addOpening (symbol : Nat) (after : Tokens) : List (Nat × Tokens) → List (Nat × Tokens)
  | [] => [(symbol, after)]
  | (s, t) :: rest =>
    if s = symbol then (s, t.union after) :: rest else (s, t) :: addOpening symbol after rest

/-- The symbols that may come next, with the tokens that may follow them. -/
def openings (s : State) : List (Nat × Tokens) :=
  s.items.foldl (fun found i =>
    match T.nextPart? i with
    | some (.symbol symbol) => addOpening symbol (T.afterNext i) found
    | _ => found) []

/-- What may follow a symbol that one of the openings starts with. -/
def aheadOf? (found : List (Nat × Tokens)) (symbol : Nat) : Option Tokens :=
  found.foldl (fun known (outer, after) =>
    match T.following? outer symbol with
    | none => known
    | some f =>
      let own := if f.inherits then f.tokens.union after else f.tokens
      some ((known.getD .empty).union own)) none

/-- The state after one more part. -/
def next (s : State) (part : Part.Code) : State :=
  let found := s.openings T
  let begun := (T.startingWith part).filterMap fun i =>
    (aheadOf? T found (T.form i).symbol).map (⟨i, 1, ·⟩)
  let continued := s.items.filterMap fun i =>
    if T.nextPart? i = some part then some { i with done := i.done + 1 } else none
  ⟨begun ++ continued⟩

/-- The tokens that may come next. -/
def acceptable (s : State) : Tokens :=
  s.items.foldl (fun known i =>
    match T.nextPart? i with
    | some part => known.union (Table.firstOf T.first part)
    | none => known.union i.ahead) T.trivia

/-! ## Actions -/

/-- The forms that are done before a token, of those that compete the highest. -/
structure Finished where
  forms : List Nat := []
  rank : Rank := .unranked
  symbols : List Nat := []
  sides : List (Option Side) := []

/-- Whether two forms give the same node. -/
def sameNode (a b : Form) : Bool :=
  a.symbol = b.symbol && a.parts.size = b.parts.size && a.weight = b.weight
    && a.titles = b.titles && a.roles = b.roles

/-- Adds a finished item: a higher one takes the place of others, a lower one is left out. -/
def Finished.add (f : Finished) (i : Item) : Finished :=
  let (rank, side) := T.rankOf i
  let symbol := (T.form i.form).symbol
  if f.forms.isEmpty then ⟨[i.form], rank, [symbol], [side]⟩
  else
    match T.order (rank, [symbol]) (f.rank, f.symbols) with
    | .gt => ⟨[i.form], rank, [symbol], [side]⟩
    | .lt => f
    | .eq =>
      let known := f.forms.any fun j => sameNode (T.form j) (T.form i.form)
      ⟨if known then f.forms else f.forms ++ [i.form], rank, symbol :: f.symbols,
        side :: f.sides⟩

/-- The items that are done before a token. -/
def finished (s : State) (token : Nat) : List Item :=
  s.items.filter fun i => (T.nextPart? i).isNone && i.ahead.contains token

/-- The items under way that read on with a token. -/
def unfinished (s : State) (token : Nat) : List Item :=
  s.items.filter fun i => 0 < i.done
    && (T.nextPart? i).any fun part => (Table.firstOf T.first part).contains token

/-- The action of a form that is done. -/
def actionOf (form : Nat) : Action := if form = 0 then .accept else .reduce form

/-- The actions that ranks leave when forms that are done compete with reading on. -/
def settle (f : Finished) (done under : List Item) (shift : Action) : List Action :=
  let reductions := f.forms.map actionOf
  let symbols := (done ++ under).map fun i => (T.form i.form).symbol
  let isRepetition := symbols.all (· = symbols.headD 0)
    && isRepeated (T.names.getD (symbols.headD 0) "")
  if isRepetition then reductions
  else
    let orders := under.map fun i =>
      T.order ((T.rankOf i).1, [(T.form i.form).symbol]) (f.rank, f.symbols)
    let more := orders.contains .gt
    let less := orders.contains .lt
    if more && !less then [shift]
    else if less && !more then reductions
    else if !less && !more then
      if f.sides.all (· = some .left) then reductions
      else if f.sides.all (· = some .right) then [shift]
      else reductions ++ [shift]
    else reductions ++ [shift]

/-- What to do before a token. -/
def actions (s : State) (token : Nat) : List Action :=
  let done := s.finished T token
  let f := done.foldl (fun f i => f.add T i) {}
  let next := s.next T (.token token)
  if next.items.isEmpty then f.forms.map actionOf
  else if done.isEmpty then [.shift next]
  else settle T f done (s.unfinished T token) (.shift next)

end State

end Grammar

end AssetLift

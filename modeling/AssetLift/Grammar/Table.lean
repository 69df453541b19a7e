import Std.Data.HashMap
import AssetLift.Grammar.Production

/-!
# Numbered grammars

Tokens, symbols and productions of a grammar by number, with what can be said of them beforehand:
the tokens that each symbol starts with, and what may follow a symbol that stands at the start of
another.

* `Tokens` — sets of tokens.
* `Table` — a numbered grammar.
* `Table.ofGrammar` — numbers a grammar.
-/

namespace AssetLift

namespace Grammar

/-! ## Sets of tokens -/

/-- A set of tokens, given by their numbers. -/
structure Tokens where
  bits : Nat
  deriving DecidableEq

namespace Tokens

/-- No token. -/
def empty : Tokens := ⟨0⟩

/-- One token. -/
def single (i : Nat) : Tokens := ⟨1 <<< i⟩

/-- The tokens of either set. -/
def union (a b : Tokens) : Tokens := ⟨a.bits ||| b.bits⟩

/-- Whether a token is in a set. -/
def contains (s : Tokens) (i : Nat) : Bool := s.bits.testBit i

@[simp] theorem contains_empty (i : Nat) : empty.contains i = false := by
  simp [empty, contains]

@[simp] theorem contains_union (a b : Tokens) (i : Nat) :
    (a.union b).contains i = (a.contains i || b.contains i) := by
  simp [union, contains]

@[simp] theorem contains_single (i j : Nat) : (single i).contains j = decide (i = j) := by
  simp only [single, contains, Nat.shiftLeft_eq, Nat.one_mul]
  rw [Nat.testBit_two_pow]

end Tokens

/-! ## Tables -/

/-- A part by number. -/
inductive Part.Code where
  | token (i : Nat)
  | symbol (i : Nat)
  deriving DecidableEq

/-- A production by number. -/
structure Form where
  symbol : Nat
  parts : Array Part.Code
  ranks : Array (Rank × Option Side)
  titles : Array (Option Title)
  roles : Array (Option String)
  weight : Int
  deriving Inhabited

/-- The part at a place. -/
def Form.part? (f : Form) (i : Nat) : Option Part.Code := f.parts[i]?

/-- What may follow a symbol at the start of another: some tokens, and perhaps all that may follow
the other. -/
structure Following where
  tokens : Tokens
  inherits : Bool
  deriving DecidableEq

/-- A numbered grammar. -/
structure Table (τ : Type) where
  tokens : Array τ
  names : Array String
  /-- Which symbols give nodes. -/
  shown : Array Bool
  forms : Array Form
  /-- The forms that start with a token. -/
  byToken : Array (List Nat)
  /-- The forms that start with a symbol. -/
  bySymbol : Array (List Nat)
  /-- The tokens that a symbol starts with. -/
  first : Array Tokens
  /-- What follows the second symbol at the start of the first, if it can stand there. -/
  following : Array (Array (Option Following))
  final : Nat
  trivia : Tokens
  precedence : List (List Precedent)

namespace Table

/-! ## Tokens that symbols start with -/

/-- Adds to every symbol the tokens that its forms start with, by what is known. -/
def firstRound (forms : Array Form) (known : Array Tokens) : Array Tokens :=
  forms.foldl (fun known (f : Form) =>
    match f.part? 0 with
    | none => known
    | some (.token i) => known.modify f.symbol (·.union (.single i))
    | some (.symbol i) => known.modify f.symbol (·.union (known.getD i .empty))) known

/-- Rounds of `firstRound` until nothing is new. -/
def firstFix (forms : Array Form) : Nat → Array Tokens → Array Tokens
  | 0, known => known
  | fuel + 1, known =>
    let next := firstRound forms known
    if next = known then known else firstFix forms fuel next

/-! ## What follows at the start of a symbol -/

/-- The symbols that a symbol's forms start with, each with the part after it. -/
abbrev Openings := Array (List (Nat × Option Part.Code))

/-- The openings of every symbol. -/
def openingsOf (count : Nat) (forms : Array Form) : Openings :=
  forms.foldl (fun table (f : Form) =>
    match f.part? 0 with
    | some (.symbol i) =>
      table.modify f.symbol fun seen =>
        let opening := (i, f.part? 1)
        if seen.contains opening then seen else opening :: seen
    | _ => table) (Array.replicate count [])

/-- The tokens a part starts with. -/
def firstOf (first : Array Tokens) : Part.Code → Tokens
  | .token i => .single i
  | .symbol i => first.getD i .empty

/-- Works off a list of symbols that stand at the start of a symbol, each with what follows it. -/
def followFrom (first : Array Tokens) (openings : Openings) :
    Nat → List (Nat × Following) → Array (Option Following) → Array (Option Following)
  | 0, _, known => known
  | _ + 1, [], known => known
  | fuel + 1, (symbol, f) :: rest, known =>
    let old := (known.getD symbol none).getD ⟨.empty, false⟩
    let new : Following := ⟨old.tokens.union f.tokens, old.inherits || f.inherits⟩
    if (known.getD symbol none) = some new then followFrom first openings fuel rest known
    else
      let more := (openings.getD symbol []).map fun (inner, next) =>
        match next with
        | some part => (inner, ⟨firstOf first part, false⟩)
        | none => (inner, f)
      followFrom first openings fuel (more ++ rest) (known.set! symbol (some new))

/-! ## Numbering -/

/-- The numbers of things in the order in which they come. -/
def numbering {α : Type} [BEq α] [Hashable α] (xs : List α) : Std.HashMap α Nat × Array α :=
  xs.foldl (fun (numbers, seen) x =>
    if numbers.contains x then (numbers, seen) else (numbers.insert x seen.size, seen.push x))
    (∅, #[])

/-- The parts of sequences that are tokens. -/
def tokensOf {τ : Type} (sequences : List (Sequence τ)) : List τ :=
  sequences.flatMap fun s => s.steps.filterMap fun step =>
    match step.part with
    | .token t => some t
    | .symbol _ => none

/-- The name of the symbol for a whole text with its end. -/
def wholeName : String := "*"

/-- Numbers a grammar. Its first form is that of a whole text. -/
def ofGrammar {τ : Type} [BEq τ] [Hashable τ] (g : Grammar τ) : Table τ :=
  let bySymbol := productionsBySymbol g
  let start := (bySymbol.head?.map (·.1)).getD wholeName
  let all : List (String × List (Sequence τ)) :=
    (wholeName, [⟨[{ part := .symbol start }], 0⟩]) :: bySymbol
  let (tokenNumbers, tokens) :=
    numbering (g.final :: all.flatMap (fun (_, ss) => tokensOf ss) ++ g.trivia)
  let (names, nameArray) := numbering (all.map (·.1))
  let code : Part τ → Part.Code
    | .token t => .token (tokenNumbers.getD t 0)
    | .symbol name => .symbol (names.getD name 0)
  let forms := (all.flatMap fun (name, ss) => ss.map fun s =>
    ({ symbol := names.getD name 0
       parts := (s.steps.map fun t => code t.part).toArray
       ranks := (s.steps.map fun t => (t.rank, t.side)).toArray
       titles := (s.steps.map (·.title)).toArray
       roles := (s.steps.map (·.role)).toArray
       weight := s.weight } : Form)).toArray
  let count := nameArray.size
  let first := firstFix forms (count + 1) (Array.replicate count .empty)
  let openings := openingsOf count forms
  let starters (size : Nat) (pick : Part.Code → Option Nat) : Array (List Nat) :=
    (forms.toList.zipIdx.foldl (fun table (f, i) =>
      match (f.part? 0).bind pick with
      | some j => table.modify j (i :: ·)
      | none => table) (Array.replicate size [])).map List.reverse
  { tokens
    names := nameArray
    shown := nameArray.map fun name =>
      !(name.startsWith "_" || name.startsWith "*" || g.silent.contains name)
    forms
    byToken := starters tokens.size fun | .token i => some i | .symbol _ => none
    bySymbol := starters count fun | .symbol i => some i | .token _ => none
    first
    following := (Array.range count).map fun i =>
      followFrom first openings (count * forms.size) [(i, ⟨.empty, true⟩)]
        (Array.replicate count none)
    final := tokenNumbers.getD g.final 0
    trivia := (g.trivia.map fun t => Tokens.single (tokenNumbers.getD t 0)).foldl .union .empty
    precedence := g.precedence }

end Table

end Grammar

end AssetLift

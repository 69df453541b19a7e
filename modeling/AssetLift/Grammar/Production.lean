import AssetLift.Grammar.Rule

/-!
# Productions

The rules of a grammar as plain productions: a symbol and the steps it consists of.

* `Rule.unfoldMany` — repetition becomes a symbol of its own, one for each repeated rule.
* `Rule.sequences` — the sequences of steps that a rule stands for.
* `productions` — the productions of a grammar, symbols that are replaced by their rules left out.
-/

namespace AssetLift

namespace Grammar

/-- What a step reads. -/
inductive Part (τ : Type) where
  | token (t : τ)
  | symbol (name : String)
  deriving BEq

/-- A step of a production. -/
structure Step (τ : Type) where
  part : Part τ
  rank : Rank := .unranked
  side : Option Side := none
  title : Option Title := none
  role : Option String := none
  deriving BEq

/-- The steps of one reading, and its weight. -/
structure Sequence (τ : Type) where
  steps : List (Step τ)
  weight : Int := 0
  deriving BEq

/-- Of two weights the heavier, whatever their signs. -/
def heavier (a b : Int) : Int := if a.natAbs < b.natAbs then b else a

namespace Sequence

variable {τ : Type}

/-- One reading after another. -/
def append (a b : Sequence τ) : Sequence τ := ⟨a.steps ++ b.steps, heavier a.weight b.weight⟩

/-- Changes the last step. -/
def mapLast (f : Step τ → Step τ) (s : Sequence τ) : Sequence τ :=
  match s.steps.reverse with
  | [] => s
  | last :: before => { s with steps := (f last :: before).reverse }

end Sequence

/-! ## Repetition -/

/-- The repeated rules met so far. -/
abbrev Repeated (τ : Type) := List (Rule τ)

/-- The symbol of a repeated rule. -/
def repeatedName (n : Nat) : String := s!"*{n}"

/-- Whether a symbol stands for a repeated rule. -/
def isRepeated (name : String) : Bool := name.startsWith "*"

namespace Rule

variable {τ : Type} [BEq τ]

mutual

/-- The rule with a symbol in the place of every repetition. -/
def unfoldMany : Rule τ → StateM (Repeated τ) (Rule τ)
  | blank => return blank
  | token t => return token t
  | symbol name => return symbol name
  | seq rs => return seq (← unfoldAll rs)
  | alt rs => return alt (← unfoldAll rs)
  | many r => do
    let inner ← unfoldMany r
    let known ← get
    match known.findIdx? (· == inner) with
    | some i => return symbol (repeatedName i)
    | none =>
      set (known ++ [inner])
      return symbol (repeatedName known.length)
  | role name r => return role name (← unfoldMany r)
  | titled title r => return titled title (← unfoldMany r)
  | ranked rank side r => return ranked rank side (← unfoldMany r)
  | weighted weight r => return weighted weight (← unfoldMany r)

/-- The same for a list of rules. -/
def unfoldAll : List (Rule τ) → StateM (Repeated τ) (List (Rule τ))
  | [] => return []
  | r :: rs => return (← unfoldMany r) :: (← unfoldAll rs)

end

/-- The rule of the symbol of a repeated rule: two stretches of it, or the rule once. -/
def ofRepeated (n : Nat) (r : Rule τ) : Rule τ :=
  alt [seq [symbol (repeatedName n), symbol (repeatedName n)], r]

end Rule

/-! ## Sequences -/

/-- What the rules around a rule say of its steps. -/
structure Surrounding where
  rank : Rank := .unranked
  side : Option Side := none
  title : Option Title := none
  role : Option String := none

namespace Rule

variable {τ : Type}

/-- The step of a part. -/
def stepOf (s : Surrounding) (p : Part τ) : Sequence τ :=
  ⟨[⟨p, s.rank, s.side, s.title, s.role⟩], 0⟩

mutual

/-- The sequences of steps that a rule stands for. The last step of a ranked rule has the rank of
what follows it, unless nothing does. -/
def sequences (around : Surrounding) (atEnd : Bool) : Rule τ → List (Sequence τ)
  | blank => [⟨[], 0⟩]
  | token t => [stepOf around (.token t)]
  | symbol name => [stepOf around (.symbol name)]
  | seq rs => sequencesAll around atEnd rs
  | alt rs => sequencesAny around atEnd rs
  | many r => sequences around atEnd r
  | role name r => sequences { around with role := some name } atEnd r
  | titled title r => sequences { around with title := some title } atEnd r
  | ranked rank side r =>
    let rank' := if rank = .unranked then around.rank else rank
    let inner := sequences { around with rank := rank', side := side <|> around.side } atEnd r
    if atEnd then inner
    else inner.map (·.mapLast fun s => { s with rank := around.rank, side := around.side })
  | weighted weight r =>
    (sequences around atEnd r).map fun s => { s with weight := heavier weight s.weight }

/-- The sequences of rules in order. -/
def sequencesAll (around : Surrounding) (atEnd : Bool) : List (Rule τ) → List (Sequence τ)
  | [] => [⟨[], 0⟩]
  | [r] => sequences around atEnd r
  | r :: rs =>
    let rest := sequencesAll around atEnd rs
    (sequences around false r).flatMap fun s => rest.map s.append

/-- The sequences of rules of which one is taken. -/
def sequencesAny (around : Surrounding) (atEnd : Bool) : List (Rule τ) → List (Sequence τ)
  | [] => []
  | r :: rs => sequences around atEnd r ++ sequencesAny around atEnd rs

end

end Rule

/-! ## Symbols that are replaced -/

/-- The sequences of the symbols that are replaced by their rules. -/
abbrev Replacements (τ : Type) := List (String × List (Sequence τ))

/-- The steps of a replacement in the place of a step: a title and a role of that step go to all of
them, its rank and side to the last one if it has none. -/
def Sequence.inPlaceOf {τ : Type} (step : Step τ) (s : Sequence τ) : Sequence τ :=
  let steps := s.steps.map fun t =>
    { t with title := step.title <|> t.title, role := step.role <|> t.role }
  Sequence.mapLast
    (fun t => { t with
      rank := if t.rank = .unranked then step.rank else t.rank
      side := t.side <|> step.side })
    ⟨steps, s.weight⟩

/-- The sequences in which replaced symbols have given way to their rules, at most `fuel` deep. -/
def Sequence.replaced {τ : Type} (table : Replacements τ) : Nat → Sequence τ → List (Sequence τ)
  | 0, s => [s]
  | fuel + 1, s =>
    s.steps.foldl (fun done step =>
      let here : List (Sequence τ) := match step.part with
        | .token _ => [⟨[step], 0⟩]
        | .symbol name =>
          match table.lookup name with
          | none => [⟨[step], 0⟩]
          | some choices =>
            choices.flatMap fun c => Sequence.replaced table fuel (c.inPlaceOf step)
      done.flatMap fun d => here.map d.append) [⟨[], s.weight⟩]

/-! ## The productions of a grammar -/

/-- A symbol and the steps it consists of. -/
structure Production (τ : Type) where
  symbol : String
  sequence : Sequence τ

/-- The items of a list, each once. -/
def distinct {α : Type} [BEq α] (xs : List α) : List α :=
  xs.foldl (fun seen x => if seen.contains x then seen else x :: seen) [] |>.reverse

/-- The rules of a grammar without repetition; the symbols of repeated rules come last. -/
def plainRules {τ : Type} [BEq τ] (g : Grammar τ) : List (String × Rule τ) :=
  let unfold : StateM (Repeated τ) (List (String × Rule τ)) :=
    g.rules.mapM fun (name, r) => return (name, ← r.unfoldMany)
  let (rules, repeated) := unfold.run []
  rules ++ repeated.zipIdx.map fun (r, i) => (repeatedName i, Rule.ofRepeated i r)

/-- The productions of a grammar by symbol. -/
def productionsBySymbol {τ : Type} [BEq τ] (g : Grammar τ) : List (String × List (Sequence τ)) :=
  let all := (plainRules g).map fun (name, r) => (name, r.sequences {} true)
  let table := all.filter fun (name, _) => g.inlined.contains name
  let kept := all.filter fun (name, _) => !g.inlined.contains name
  kept.map fun (name, sequences) =>
    (name, distinct (sequences.flatMap (Sequence.replaced table g.inlined.length)))

end Grammar

end AssetLift

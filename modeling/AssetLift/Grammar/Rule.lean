/-!
# Rules of a grammar

A grammar gives a rule to each of its symbols. Where two readings of a text compete, ranks decide:
a rank is a level or a name, and the grammar says which names and symbols come first.

* `Rule` — the forms of rules over a kind of tokens.
* `Grammar` — the rules, with what decides between competing readings.
-/

namespace AssetLift

namespace Grammar

/-- What a rule has to say when its reading competes with another. -/
inductive Rank where
  | unranked
  | level (n : Int)
  | named (name : String)
  deriving DecidableEq

/-- The side on which a rule nests when it competes with itself. -/
inductive Side where
  | left
  | right
  deriving DecidableEq

/-- The name a part of a node goes by. -/
structure Title where
  kind : String
  named : Bool
  deriving DecidableEq

/-- The form of a rule over the tokens `τ`. -/
inductive Rule (τ : Type) where
  | blank
  | token (t : τ)
  | symbol (name : String)
  | seq (rules : List (Rule τ))
  | alt (rules : List (Rule τ))
  /-- Once or more often. -/
  | many (rule : Rule τ)
  /-- The parts play a role in the node around them. -/
  | role (name : String) (rule : Rule τ)
  /-- The parts go by another name. -/
  | titled (title : Title) (rule : Rule τ)
  | ranked (rank : Rank) (side : Option Side) (rule : Rule τ)
  /-- Of two complete readings, the one of greater weight is kept. -/
  | weighted (weight : Int) (rule : Rule τ)
  deriving BEq

namespace Rule

variable {τ : Type}

/-- A rule or nothing. -/
def opt (r : Rule τ) : Rule τ := alt [r, blank]

/-- A rule any number of times. -/
def rep (r : Rule τ) : Rule τ := alt [many r, blank]

end Rule

/-- What stands in a line of ranks. -/
inductive Precedent where
  | named (name : String)
  | symbol (name : String)
  deriving DecidableEq

end Grammar

/-- The rules of a language. -/
structure Grammar (τ : Type) where
  /-- The rules by symbol; the first is the rule of a whole text. -/
  rules : List (String × Grammar.Rule τ)
  /-- Symbols that are replaced by their rules. -/
  inlined : List String
  /-- Symbols that give no node, beside those whose name starts with an underscore. -/
  silent : List String
  /-- The token that ends a text. -/
  final : τ
  /-- Tokens that may stand between any two others. -/
  trivia : List τ
  /-- Lines of ranks, the highest first. -/
  precedence : List (List Grammar.Precedent)

end AssetLift

import AssetLift.Grammar.Rule
import AssetLift.TypeScript.Lexeme

/-!
# Rules of TypeScript

The ways in which the rules of the TypeScript grammar are put together.
-/

namespace AssetLift

namespace TypeScript

/-- A rule of the TypeScript grammar. -/
abbrev Rule := Grammar.Rule Lexeme

namespace Rule

/-- A keyword or a mark. -/
def lit (text : String) : Rule :=
  if text.toList.all Char.isAlpha then .token (.keyword text) else .token (.mark text)

instance : Coe String Rule := ⟨lit⟩

/-- A symbol. -/
def sym (name : String) : Rule := .symbol name

/-- A keyword that is a node of its own. -/
def node (text : String) : Rule := .token (.namedWord text)

/-- Rules in order. -/
def seq (rs : List Rule) : Rule := Grammar.Rule.seq rs

/-- One of several rules. -/
def alt (rs : List Rule) : Rule := Grammar.Rule.alt rs

/-- A rule or nothing. -/
def opt (r : Rule) : Rule := Grammar.Rule.opt r

/-- A rule any number of times. -/
def rep (r : Rule) : Rule := Grammar.Rule.rep r

/-- A part with a role in its node. -/
def field (name : String) (r : Rule) : Rule := .role name r

/-- A part that goes by another name. -/
def called (kind : String) (r : Rule) : Rule := .titled ⟨kind, true⟩ r

/-- A rule with a rank. -/
def rank (name : String) (r : Rule) : Rule := .ranked (.named name) none r

/-- A rule with a rank that nests on the left. -/
def rankLeft (name : String) (r : Rule) : Rule := .ranked (.named name) (some .left) r

/-- A rule with a rank that nests on the right. -/
def rankRight (name : String) (r : Rule) : Rule := .ranked (.named name) (some .right) r

/-- A rule that nests on the left. -/
def left (r : Rule) : Rule := .ranked .unranked (some .left) r

/-- A rule that nests on the right. -/
def right (r : Rule) : Rule := .ranked .unranked (some .right) r

/-- Rules with separators between them, at least one. -/
def sepBy (separator r : Rule) : Rule := seq [r, rep (seq [separator, r])]

/-- Rules with commas between them, at least one. -/
def list (r : Rule) : Rule := sepBy "," r

/-- Rules with commas between them, or none. -/
def optList (r : Rule) : Rule := opt (list r)

/-- Rules with commas between them, each of which may be missing. -/
def holes (r : Rule) : Rule := optList (opt r)

/-! ## Tokens -/

/-- An identifier. -/
def identifier : Rule := .token .identifier

/-- A name with a number sign. -/
def privateName : Rule := .token .privateName

/-- A number. -/
def number : Rule := .token .number

/-- An escape in a string or a template. -/
def escape : Rule := .token .escape

/-- The end of a statement without a semicolon. -/
def statementEnd : Rule := .token .statementEnd

/-- A brace. -/
def lbrace : Rule := lit "\x7b"

/-- A brace. -/
def rbrace : Rule := lit "\x7d"

/-- Rules between braces. -/
def braces (rs : List Rule) : Rule := seq ([lbrace] ++ rs ++ [rbrace])

end Rule

end TypeScript

end AssetLift

import AssetLift.Cst
import AssetLift.Grammar.Reading
import AssetLift.TypeScript.Scan
import AssetLift.TypeScript.Grammar.Declaration
import AssetLift.TypeScript.Grammar.Statement
import AssetLift.TypeScript.Grammar.Type

/-!
# Parsing TypeScript

The concrete tree of a source file. A file that does not follow the grammar gives a tree that is
marked as faulty.

* `TypeScript.grammar` — the rules, and what decides between competing readings.
* `TypeScript.parse` — the tree of a file, its nodes numbered.
-/

namespace AssetLift

namespace TypeScript

open Grammar

/-! ## The grammar -/

/-- A line of ranks: names are given, symbols stand behind a colon. -/
def line (entries : List String) : List Precedent :=
  entries.map fun e => if e.startsWith ":" then .symbol (e.drop 1).toString else .named e

/-- What decides between competing readings, the highest first in each line. -/
def precedence : List (List Precedent) :=
  [["member", "template_call", "call", ":update_expression", "unary_void", "binary_exp",
      "binary_times", "binary_plus", "binary_shift", "binary_compare", "binary_relation",
      "binary_equality", "bitwise_and", "bitwise_xor", "bitwise_or", "logical_and", "logical_or",
      "ternary", ":sequence_expression", ":arrow_function"],
    ["assign", ":primary_expression"],
    ["member", "template_call", "new", "call", ":expression"],
    ["declare", "literal"],
    [":primary_expression", ":statement_block", "object"],
    [":meta_property", ":import"],
    [":import_statement", ":import"],
    [":export_statement", ":primary_expression"],
    [":lexical_declaration", ":primary_expression"],
    ["call", "instantiation", "unary", "binary", ":await_expression", ":arrow_function"],
    ["extends", "instantiation"],
    [":intersection_type", ":union_type", ":conditional_type", ":function_type", "binary",
      ":type_predicate", ":readonly_type"],
    [":mapped_type_clause", ":primary_expression"],
    [":accessibility_modifier", ":primary_expression"],
    ["unary_void", ":expression"],
    [":extends_clause", ":primary_expression"],
    ["unary", "assign"],
    ["declare", ":expression"],
    [":predefined_type", ":unary_expression"],
    [":type", ":flow_maybe_type"],
    [":tuple_type", ":array_type", ":pattern", ":type"],
    [":readonly_type", ":pattern"],
    [":readonly_type", ":primary_expression"],
    [":type_query", ":subscript_expression", ":expression"],
    [":type_query", ":_type_query_subscript_expression"],
    [":nested_type_identifier", ":generic_type", ":primary_type", ":lookup_type",
      ":index_type_query", ":type"],
    [":as_expression", ":satisfies_expression", ":primary_type"],
    [":_type_query_member_expression", ":member_expression"],
    [":member_expression", ":_type_query_member_expression_in_type_annotation"],
    [":_type_query_member_expression", ":primary_expression"],
    [":_type_query_subscript_expression", ":subscript_expression"],
    [":_type_query_subscript_expression", ":primary_expression"],
    [":_type_query_call_expression", ":primary_expression"],
    [":_type_query_instantiation_expression", ":primary_expression"],
    [":type_query", ":primary_expression"],
    [":override_modifier", ":primary_expression"],
    [":decorator_call_expression", ":decorator"],
    [":literal_type", ":pattern"],
    [":predefined_type", ":pattern"],
    [":call_expression", ":_type_query_call_expression"],
    [":call_expression", ":_type_query_call_expression_in_type_annotation"],
    [":new_expression", ":primary_expression"],
    [":meta_property", ":primary_expression"],
    [":construct_signature", ":_property_name"]].map line

/-- The TypeScript grammar. -/
def grammar : Grammar Lexeme where
  rules := Rules.modules ++ Rules.statements ++ Rules.expressions ++ Rules.literals
    ++ Rules.members ++ Rules.declarations ++ Rules.annotations ++ Rules.types
  inlined := ["_expressions", "_semicolon", "_identifier", "_reserved_identifier",
    "_lhs_expression", "_type_identifier"]
  silent := ["statement", "declaration", "expression", "primary_expression", "pattern", "type",
    "primary_type"]
  final := .endOfFile
  trivia := [.comment, .htmlComment]
  precedence

/-- The numbered TypeScript grammar. -/
def table : Grammar.Table Lexeme := .ofGrammar grammar

/-! ## Scanning -/

/-- The number of a token. -/
def tokenNumbers : Std.HashMap Lexeme Nat :=
  .ofList (table.tokens.toList.zipIdx)

/-- The marks of the grammar. -/
def marks : List Lexeme :=
  table.tokens.toList.filter fun | .mark _ => true | _ => false

/-- The keywords of the grammar. -/
def keywords : Std.HashMap String Lexeme :=
  .ofList (table.tokens.toList.filterMap fun
    | .keyword text => some (text, .keyword text)
    | .namedWord text => some (text, .namedWord text)
    | _ => none)

/-- How tokens are taken off a file. A keyword that has no place in the grammar is a name. -/
def scanner : Scanner Cursor where
  offset := (·.offset)
  scan acceptable c :=
    let accepts (l : Lexeme) : Bool := tokenNumbers[l]?.any acceptable.contains
    match Scan.next? marks (keywords[·]?) accepts c with
    | none => none
    | some found =>
      match tokenNumbers[found.lexeme]? with
      | none => none
      | some token =>
        let next := found.place.advance found.length
        let isWord := match found.lexeme with
          | .keyword _ | .namedWord _ => true
          | _ => false
        some
          { token
            other := if isWord then tokenNumbers[Lexeme.identifier]? else none
            start := found.place.offset
            stop := next.offset
            next }

/-! ## Concrete trees -/

/-- Gives a role to every tree that is no comment. -/
def withRole (role : Option String) (trees : List Cst) : List Cst :=
  match role with
  | none => trees
  | some name =>
    trees.map fun t =>
      if t.isTrivia then t else .node { t.label with field := some name } t.children

mutual

/-- The nodes of a tree, which goes by a title if it is given one and plays a role. A tree whose
symbol gives no node passes its nodes on. -/
def nodesOf (title : Option Title) (role : Option String) : Tree → List Cst
  | .leaf token start stop =>
    match title <|> (table.tokens[token]?.bind Lexeme.title?) with
    | none => []
    | some t => [.node { id := 0, kind := t.kind, start, stop, field := role, named := t.named } []]
  | .node form start stop _ parts =>
    let f := table.form form
    let children := nodesOfParts f 0 parts
    let shown : Option Title :=
      if table.shown.getD f.symbol false then some ⟨table.names.getD f.symbol "", true⟩ else none
    match title <|> shown with
    | none => withRole role children
    | some t =>
      [.node { id := 0, kind := t.kind, start, stop, field := role, named := t.named } children]

/-- The nodes of the parts of a form, from a step on; comments are no steps. -/
def nodesOfParts (f : Form) (step : Nat) : List Tree → List Cst
  | [] => []
  | t :: ts =>
    if t.isTrivia table then nodesOf none none t ++ nodesOfParts f step ts
    else
      nodesOf (f.titles.getD step none) (f.roles.getD step none) t
        ++ nodesOfParts f (step + 1) ts

end

/-! ## Files -/

/-- How many steps reading a file of `n` bytes may take between two tokens. -/
def depthFor (n : Nat) : Nat := 100 * (n + 100)

/-- The root of a file. -/
def root (start stop : Nat) (marked : Bool) (children : List Cst) : Cst :=
  .node { id := 0, kind := "program", start, stop, marked } children

/-- The nodes below the root of a file. -/
def topNodes (trees : List Tree) : List Cst :=
  trees.flatMap fun t => if t.isTrivia table then nodesOf none none t else
    (nodesOf none none t).flatMap Cst.children

/-- The concrete tree of a file. -/
def parse (source : Bytes) : Cst :=
  let size := source.length
  match Grammar.read table scanner (depthFor size) (.start source) with
  | some trees =>
    let children := topNodes trees
    (root ((children.head?.map (·.start)).getD size) size false children).numbered
  | none => root 0 size true []

end TypeScript

end AssetLift

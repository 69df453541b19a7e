import AssetLift.TypeScript.Rule

/-!
# Expressions

The rules of expressions, of functions and classes as values, and of literals.
-/

namespace AssetLift

namespace TypeScript

namespace Rules

open Rule

/-- The operators between two operands, each with its rank. -/
def operators : List (String × String) :=
  [("&&", "logical_and"), ("||", "logical_or"), (">>", "binary_shift"), (">>>", "binary_shift"),
    ("<<", "binary_shift"), ("&", "bitwise_and"), ("^", "bitwise_xor"), ("|", "bitwise_or"),
    ("+", "binary_plus"), ("-", "binary_plus"), ("*", "binary_times"), ("/", "binary_times"),
    ("%", "binary_times"), ("**", "binary_exp"), ("<", "binary_relation"),
    ("<=", "binary_relation"), ("==", "binary_equality"), ("===", "binary_equality"),
    ("!=", "binary_equality"), ("!==", "binary_equality"), (">=", "binary_relation"),
    (">", "binary_relation"), ("??", "ternary"), ("instanceof", "binary_relation"),
    ("in", "binary_relation")]

/-- The rule of an operator. Powers nest on the right; a private name may be looked for. -/
def operation (operator rank : String) : Rule :=
  let operand := sym "expression"
  let first := if operator = "in" then alt [operand, privateName] else operand
  let parts := seq [field "left" first, field "operator" (lit operator), field "right" operand]
  if operator = "**" then rankRight rank parts else rankLeft rank parts

/-- The operators that change a value in its place. -/
def assignments : List Rule :=
  ["+=", "-=", "*=", "/=", "%=", "^=", "&=", "|=", ">>=", ">>>=", "<<=", "**=", "&&=", "||=",
    "??="]

/-- A name that a property is looked up by. -/
def propertyName : Rule := alt [privateName, called "property_identifier" identifier]

/-- The decorators of a declaration. -/
def decorators : Rule := rep (field "decorator" (sym "decorator"))

/-- The words of the end of a class: type parameters, heritage and body. -/
def classRest : List Rule :=
  [field "type_parameters" (opt (sym "type_parameters")), opt (sym "class_heritage"),
    field "body" (sym "class_body")]

/-- The rules of expressions. -/
def expressions : List (String × Rule) :=
  [("parenthesized_expression", seq ["(",
      alt [
        seq [sym "expression", field "type" (opt (sym "type_annotation"))],
        sym "sequence_expression"],
      ")"]),
    ("_expressions", alt [sym "expression", sym "sequence_expression"]),
    ("expression", alt [
      sym "as_expression", sym "satisfies_expression", sym "instantiation_expression",
      sym "internal_module", sym "type_assertion", sym "primary_expression",
      sym "assignment_expression", sym "augmented_assignment_expression",
      sym "await_expression", sym "unary_expression", sym "binary_expression",
      sym "ternary_expression", sym "update_expression", sym "new_expression",
      sym "yield_expression"]),
    ("primary_expression", alt [
      sym "subscript_expression", sym "member_expression", sym "parenthesized_expression",
      sym "_identifier", called "identifier" (sym "_reserved_identifier"),
      node "this", node "super", number, sym "string", sym "template_string", sym "regex",
      node "true", node "false", node "null", sym "object", sym "array",
      sym "function_expression", sym "arrow_function", sym "generator_function", sym "class",
      sym "meta_property", sym "call_expression", sym "non_null_expression"]),
    ("yield_expression", right (seq ["yield",
      alt [seq ["*", sym "expression"], opt (sym "expression")]])),
    ("object", rank "object" (braces [holes (alt [
      sym "pair", sym "spread_element", sym "method_definition",
      called "shorthand_property_identifier" (alt [identifier, sym "_reserved_identifier"])])])),
    ("object_pattern", rank "object" (braces [holes (alt [
      sym "pair_pattern", sym "rest_pattern", sym "object_assignment_pattern",
      called "shorthand_property_identifier_pattern"
        (alt [identifier, sym "_reserved_identifier"])])])),
    ("assignment_pattern", seq [field "left" (sym "pattern"), "=",
      field "right" (sym "expression")]),
    ("object_assignment_pattern", seq [
      field "left" (alt [
        called "shorthand_property_identifier_pattern"
          (alt [sym "_reserved_identifier", identifier]),
        sym "_destructuring_pattern"]),
      "=", field "right" (sym "expression")]),
    ("array", seq ["[", holes (alt [sym "expression", sym "spread_element"]), "]"]),
    ("array_pattern", seq ["[", holes (alt [sym "pattern", sym "assignment_pattern"]), "]"]),
    ("nested_identifier", rank "member" (seq [
      field "object" (alt [identifier, called "member_expression" (sym "nested_identifier")]),
      ".", field "property" (called "property_identifier" identifier)])),
    ("class", rank "literal" (seq ([decorators, "class",
      field "name" (opt (sym "_type_identifier"))] ++ classRest))),
    ("class_declaration", rankLeft "declare" (seq ([decorators, "class",
      field "name" (sym "_type_identifier")] ++ classRest ++ [opt statementEnd]))),
    ("class_heritage", alt [
      seq [sym "extends_clause", opt (sym "implements_clause")],
      sym "implements_clause"]),
    ("function_expression", rank "literal" (seq [opt "async", "function",
      field "name" (opt identifier), sym "_call_signature",
      field "body" (sym "statement_block")])),
    ("function_declaration", rankRight "declare" (seq [opt "async", "function",
      field "name" identifier, sym "_call_signature", field "body" (sym "statement_block"),
      opt statementEnd])),
    ("generator_function", rank "literal" (seq [opt "async", "function", "*",
      field "name" (opt identifier), sym "_call_signature",
      field "body" (sym "statement_block")])),
    ("generator_function_declaration", rankRight "declare" (seq [opt "async", "function", "*",
      field "name" identifier, sym "_call_signature", field "body" (sym "statement_block"),
      opt statementEnd])),
    ("arrow_function", seq [opt "async",
      alt [
        field "parameter" (alt [called "identifier" (sym "_reserved_identifier"), identifier]),
        sym "_call_signature"],
      "=>", field "body" (alt [sym "expression", sym "statement_block"])]),
    ("_call_signature", seq [
      field "type_parameters" (opt (sym "type_parameters")),
      field "parameters" (sym "formal_parameters"),
      field "return_type" (opt (alt [
        sym "type_annotation", sym "asserts_annotation", sym "type_predicate_annotation"]))]),
    ("_formal_parameter", alt [sym "required_parameter", sym "optional_parameter"]),
    ("optional_chain", "?."),
    ("call_expression", alt [
      rank "call" (seq [
        field "function" (alt [sym "expression", sym "import"]),
        field "type_arguments" (opt (sym "type_arguments")),
        field "arguments" (sym "arguments")]),
      rank "template_call" (seq [
        field "function" (alt [sym "primary_expression", sym "new_expression"]),
        field "arguments" (sym "template_string")]),
      rank "member" (seq [
        field "function" (sym "primary_expression"), "?.",
        field "type_arguments" (opt (sym "type_arguments")),
        field "arguments" (sym "arguments")])]),
    ("new_expression", rankRight "new" (seq ["new",
      field "constructor" (sym "primary_expression"),
      field "type_arguments" (opt (sym "type_arguments")),
      field "arguments" (opt (sym "arguments"))])),
    ("await_expression", rank "unary_void" (seq ["await", sym "expression"])),
    ("member_expression", rank "member" (seq [
      field "object" (alt [sym "expression", sym "primary_expression", sym "import"]),
      alt [".", field "optional_chain" (sym "optional_chain")],
      field "property" propertyName])),
    ("subscript_expression", rankRight "member" (seq [
      field "object" (alt [sym "expression", sym "primary_expression"]),
      opt (field "optional_chain" (sym "optional_chain")),
      "[", field "index" (sym "_expressions"), "]"])),
    ("_lhs_expression", alt [
      sym "member_expression", sym "subscript_expression", sym "_identifier",
      called "identifier" (sym "_reserved_identifier"), sym "_destructuring_pattern",
      sym "non_null_expression"]),
    ("assignment_expression", rankRight "assign" (seq [opt "using",
      field "left" (alt [sym "parenthesized_expression", sym "_lhs_expression"]),
      "=", field "right" (sym "expression")])),
    ("_augmented_assignment_lhs", alt [
      sym "member_expression", sym "subscript_expression",
      called "identifier" (sym "_reserved_identifier"), identifier,
      sym "parenthesized_expression", sym "non_null_expression"]),
    ("augmented_assignment_expression", rankRight "assign" (seq [
      field "left" (sym "_augmented_assignment_lhs"),
      field "operator" (alt assignments),
      field "right" (sym "expression")])),
    ("_initializer", seq ["=", field "value" (sym "expression")]),
    ("_destructuring_pattern", alt [sym "object_pattern", sym "array_pattern"]),
    ("spread_element", seq ["...", sym "expression"]),
    ("ternary_expression", rankRight "ternary" (seq [
      field "condition" (sym "expression"), .titled ⟨"?", false⟩ (.token .ternaryMark),
      field "consequence" (sym "expression"), ":",
      field "alternative" (sym "expression")])),
    ("binary_expression", alt (operators.map fun (operator, rank) => operation operator rank)),
    ("unary_expression", rankLeft "unary_void" (seq [
      field "operator" (alt ["!", "~", "-", "+", "typeof", "void", "delete"]),
      field "argument" (sym "expression")])),
    ("update_expression", left (alt [
      seq [field "argument" (sym "expression"), field "operator" (alt ["++", "--"])],
      seq [field "operator" (alt ["++", "--"]), field "argument" (sym "expression")]])),
    ("sequence_expression", right (list (sym "expression")))]

/-- The rules of literals. -/
def literals : List (String × Rule) :=
  [("string", alt [
      seq ["\"", rep (alt [.token .doubleText, escape]), "\""],
      seq ["'", rep (alt [.token .singleText, escape]), "'"]]),
    ("template_string", seq ["\x60",
      rep (alt [called "string_fragment" (.token .templateText), escape,
        sym "template_substitution"]),
      "\x60"]),
    ("template_substitution", seq ["$\x7b", sym "_expressions", rbrace]),
    ("regex", seq ["/", field "pattern" (.token .regexText), .token .regexEnd,
      opt (field "flags" (.token .regexFlags))]),
    ("_identifier", alt [node "undefined", identifier]),
    ("meta_property", alt [seq ["new", ".", "target"], seq ["import", ".", "meta"]])]

end Rules

end TypeScript

end AssetLift

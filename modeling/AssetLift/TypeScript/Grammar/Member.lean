import AssetLift.TypeScript.Grammar.Expression

/-!
# Members

The rules of arguments, decorators, parameters and patterns, and of the members of classes and
objects.
-/

namespace AssetLift

namespace TypeScript

namespace Rules

open Rule

/-- The words that are names where they are no keywords. -/
def reservedNames : List Rule :=
  ["declare", "namespace", "type", "public", "private", "protected", "override", "readonly",
    "module", "any", "number", "boolean", "string", "symbol", "export", "object", "new", "get",
    "set", "async", "static", "let"]

/-- The name that a decorator goes by. -/
def decoratorName : List Rule :=
  [identifier, called "member_expression" (sym "decorator_member_expression")]

/-- The modifiers of a method. -/
def methodModifiers : List Rule :=
  [opt (sym "accessibility_modifier"), opt "static", opt (sym "override_modifier"),
    opt "readonly", opt "async", opt (alt ["get", "set", "*"])]

/-- The head of a method after its modifiers. -/
def methodHead : List Rule := [field "name" (sym "_property_name"), opt "?", sym "_call_signature"]

/-- The rules of parts of expressions. -/
def members : List (String × Rule) :=
  [("arguments", seq ["(", holes (alt [sym "expression", sym "spread_element"]), ")"]),
    ("decorator", seq ["@", alt (decoratorName ++ [
      called "call_expression" (sym "decorator_call_expression"),
      called "parenthesized_expression" (sym "decorator_parenthesized_expression")])]),
    ("decorator_member_expression", rank "member" (seq [
      field "object" (alt decoratorName), ".",
      field "property" (called "property_identifier" identifier)])),
    ("decorator_call_expression", rank "call" (seq [
      field "function" (alt decoratorName),
      opt (field "type_arguments" (sym "type_arguments")),
      field "arguments" (sym "arguments")])),
    ("class_body", braces [rep (alt [
      seq [decorators, sym "method_definition", opt (sym "_semicolon")],
      seq [sym "method_signature", alt [.token .signatureEnd, ","]],
      sym "class_static_block",
      seq [
        alt [sym "abstract_method_signature", sym "index_signature", sym "method_signature",
          sym "public_field_definition"],
        alt [sym "_semicolon", ","]],
      ";"])]),
    ("formal_parameters", seq ["(",
      opt (seq [list (sym "_formal_parameter"), opt ","]), ")"]),
    ("class_static_block", seq ["static", field "body" (sym "statement_block")]),
    ("pattern", .weighted (-1) (alt [sym "_lhs_expression", sym "rest_pattern"])),
    ("rest_pattern", right (seq ["...", sym "_lhs_expression"])),
    ("method_definition", left (seq (methodModifiers ++ methodHead
      ++ [field "body" (sym "statement_block")]))),
    ("pair", seq [field "key" (sym "_property_name"), ":", field "value" (sym "expression")]),
    ("pair_pattern", seq [field "key" (sym "_property_name"), ":",
      field "value" (alt [sym "pattern", sym "assignment_pattern"])]),
    ("_property_name", alt [
      called "property_identifier" (alt [identifier, sym "_reserved_identifier"]),
      privateName, sym "string", number, sym "computed_property_name"]),
    ("computed_property_name", seq ["[", sym "expression", "]"]),
    ("_reserved_identifier", alt reservedNames),
    ("_semicolon", alt [statementEnd, ";"]),
    ("public_field_definition", seq [decorators,
      opt (alt [
        seq ["declare", opt (sym "accessibility_modifier")],
        seq [sym "accessibility_modifier", opt "declare"]]),
      alt [
        seq [opt "static", opt (sym "override_modifier"), opt "readonly"],
        seq [opt "abstract", opt "readonly"],
        seq [opt "readonly", opt "abstract"],
        opt "accessor"],
      field "name" (sym "_property_name"), opt (alt ["?", "!"]),
      field "type" (opt (sym "type_annotation")), opt (sym "_initializer")])]

end Rules

end TypeScript

end AssetLift

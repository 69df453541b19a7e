import AssetLift.TypeScript.Grammar.Member

/-!
# Declarations

The rules of what types add to modules, expressions and declarations.
-/

namespace AssetLift

namespace TypeScript

namespace Rules

open Rule

/-- The rules of declarations with types. -/
def declarations : List (String × Rule) :=
  [("_import_identifier", alt [identifier, called "identifier" "type"]),
    ("non_null_expression", rankLeft "unary" (seq [sym "expression", "!"])),
    ("method_signature", seq (methodModifiers ++ methodHead)),
    ("abstract_method_signature", seq ([opt (sym "accessibility_modifier"), "abstract",
      opt (sym "override_modifier"), opt (alt ["get", "set", "*"])] ++ methodHead)),
    ("function_signature", seq [opt "async", "function", field "name" identifier,
      sym "_call_signature", alt [sym "_semicolon", .token .signatureEnd]]),
    ("decorator_parenthesized_expression", seq ["(",
      alt (decoratorName ++ [called "call_expression" (sym "decorator_call_expression")]), ")"]),
    ("type_assertion", rankLeft "unary" (seq [sym "type_arguments", sym "expression"])),
    ("as_expression", rankLeft "binary" (seq [sym "expression", "as",
      alt ["const", sym "type"]])),
    ("satisfies_expression", rankLeft "binary" (seq [sym "expression", "satisfies",
      sym "type"])),
    ("instantiation_expression", rank "instantiation" (seq [sym "expression",
      field "type_arguments" (sym "type_arguments")])),
    ("import_require_clause", seq [identifier, "=", "require", "(",
      field "source" (sym "string"), ")"]),
    ("extends_clause", seq ["extends", list (sym "_extends_clause_single")]),
    ("_extends_clause_single", rank "extends" (seq [field "value" (sym "expression"),
      field "type_arguments" (opt (sym "type_arguments"))])),
    ("implements_clause", seq ["implements", list (sym "type")]),
    ("ambient_declaration", seq ["declare", alt [
      sym "declaration",
      seq ["global", sym "statement_block"],
      seq ["module", ".", called "property_identifier" identifier, ":", sym "type",
        sym "_semicolon"]]]),
    ("abstract_class_declaration", rank "declare" (seq ([decorators, "abstract", "class",
      field "name" (sym "_type_identifier")] ++ classRest))),
    ("module", seq ["module", sym "_module"]),
    ("internal_module", seq ["namespace", sym "_module"]),
    ("_module", right (seq [
      field "name" (alt [sym "string", identifier, sym "nested_identifier"]),
      field "body" (opt (sym "statement_block"))])),
    ("import_alias", seq ["import", identifier, "=",
      alt [identifier, sym "nested_identifier"], sym "_semicolon"]),
    ("nested_type_identifier", rank "member" (seq [
      field "module" (alt [identifier, sym "nested_identifier"]), ".",
      field "name" (sym "_type_identifier")])),
    ("interface_declaration", seq ["interface", field "name" (sym "_type_identifier"),
      field "type_parameters" (opt (sym "type_parameters")),
      opt (sym "extends_type_clause"),
      field "body" (called "interface_body" (sym "object_type"))]),
    ("extends_type_clause", seq ["extends", list (field "type" (alt [
      sym "_type_identifier", sym "nested_type_identifier", sym "generic_type"]))]),
    ("enum_declaration", seq [opt "const", "enum", field "name" identifier,
      field "body" (sym "enum_body")]),
    ("enum_body", braces [opt (seq [
      list (alt [field "name" (sym "_property_name"), sym "enum_assignment"]), opt ","])]),
    ("enum_assignment", seq [field "name" (sym "_property_name"), sym "_initializer"]),
    ("type_alias_declaration", seq ["type", field "name" (sym "_type_identifier"),
      field "type_parameters" (opt (sym "type_parameters")), "=",
      field "value" (sym "type"), sym "_semicolon"]),
    ("accessibility_modifier", alt ["public", "private", "protected"]),
    ("override_modifier", "override"),
    ("required_parameter", seq [sym "_parameter_name",
      field "type" (opt (sym "type_annotation")), opt (sym "_initializer")]),
    ("optional_parameter", seq [sym "_parameter_name", "?",
      field "type" (opt (sym "type_annotation")), opt (sym "_initializer")]),
    ("_parameter_name", seq [decorators, opt (sym "accessibility_modifier"),
      opt (sym "override_modifier"), opt "readonly",
      field "pattern" (alt [sym "pattern", node "this"])])]

end Rules

end TypeScript

end AssetLift

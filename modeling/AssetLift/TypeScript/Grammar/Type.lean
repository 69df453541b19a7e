import AssetLift.TypeScript.Rule

/-!
# Types

The rules of types and of where they stand.
-/

namespace AssetLift

namespace TypeScript

namespace Rules

open Rule

/-- A name that a property is looked up by. -/
def queriedName : Rule := alt [privateName, called "property_identifier" identifier]

/-- A value that another is looked up in, after `typeof`. -/
def queriedValue : List Rule :=
  [called "subscript_expression" (sym "_type_query_subscript_expression"),
    called "member_expression" (sym "_type_query_member_expression"),
    called "call_expression" (sym "_type_query_call_expression")]

/-- What is called or given type arguments after `typeof`. -/
def queriedFunction : Rule :=
  alt [sym "import", identifier,
    called "member_expression" (sym "_type_query_member_expression"),
    called "subscript_expression" (sym "_type_query_subscript_expression")]

/-- What an import gives, as a type. -/
def importedMember : Rule :=
  called "member_expression" (sym "_type_query_member_expression_in_type_annotation")

/-- What a function of an import gives, as a type. -/
def importedCall : Rule :=
  called "call_expression" (sym "_type_query_call_expression_in_type_annotation")

/-- The rules of types in front of which a mark stands. -/
def annotations : List (String × Rule) :=
  [("omitting_type_annotation", seq ["-?:", sym "type"]),
    ("adding_type_annotation", seq ["+?:", sym "type"]),
    ("opting_type_annotation", seq ["?:", sym "type"]),
    ("type_annotation", seq [":", alt [sym "type", importedMember, importedCall]]),
    ("_type_query_member_expression_in_type_annotation", seq [
      field "object" (alt [sym "import", importedMember, importedCall]), ".",
      field "property" queriedName]),
    ("_type_query_call_expression_in_type_annotation", seq [
      field "function" (alt [sym "import", importedMember]),
      field "arguments" (sym "arguments")]),
    ("asserts", seq ["asserts", alt [sym "type_predicate", identifier, node "this"]]),
    ("asserts_annotation", seq [":", sym "asserts"])]

/-- The rules of types. -/
def types : List (String × Rule) :=
  [("type", alt [sym "primary_type", sym "function_type", sym "readonly_type",
      sym "constructor_type", sym "infer_type",
      .ranked (.level (-1)) none importedMember,
      .ranked (.level (-1)) none importedCall]),
    ("tuple_parameter", seq [field "name" (alt [identifier, sym "rest_pattern"]),
      field "type" (sym "type_annotation")]),
    ("optional_tuple_parameter", seq [field "name" identifier, "?",
      field "type" (sym "type_annotation")]),
    ("optional_type", seq [sym "type", "?"]),
    ("rest_type", seq ["...", sym "type"]),
    ("_tuple_type_member", alt [
      called "required_parameter" (sym "tuple_parameter"),
      called "optional_parameter" (sym "optional_tuple_parameter"),
      sym "optional_type", sym "rest_type", sym "type"]),
    ("constructor_type", left (seq [opt "abstract", "new",
      field "type_parameters" (opt (sym "type_parameters")),
      field "parameters" (sym "formal_parameters"), "=>", field "type" (sym "type")])),
    ("primary_type", alt [
      sym "parenthesized_type", sym "predefined_type", sym "_type_identifier",
      sym "nested_type_identifier", sym "generic_type", sym "object_type", sym "array_type",
      sym "tuple_type", sym "flow_maybe_type", sym "type_query", sym "index_type_query",
      called "this_type" (node "this"), sym "existential_type", sym "literal_type",
      sym "lookup_type", sym "conditional_type", sym "template_literal_type",
      sym "intersection_type", sym "union_type", "const"]),
    ("template_type", seq ["$\x7b", alt [sym "primary_type", sym "infer_type"], rbrace]),
    ("template_literal_type", seq ["\x60",
      rep (alt [called "string_fragment" (.token .templateText), sym "template_type"]),
      "\x60"]),
    ("infer_type", right (seq ["infer", sym "_type_identifier",
      opt (seq ["extends", sym "type"])])),
    ("conditional_type", right (seq [field "left" (sym "type"), "extends",
      field "right" (sym "type"), "?", field "consequence" (sym "type"), ":",
      field "alternative" (sym "type")])),
    ("generic_type", rank "call" (seq [
      field "name" (alt [sym "_type_identifier", sym "nested_type_identifier"]),
      field "type_arguments" (sym "type_arguments")])),
    ("type_predicate", seq [
      field "name" (alt [identifier, node "this",
        called "identifier" (sym "predefined_type")]),
      "is", field "type" (sym "type")]),
    ("type_predicate_annotation", seq [":", sym "type_predicate"]),
    ("_type_query_member_expression", seq [
      field "object" (alt ([identifier, node "this"] ++ queriedValue)),
      alt [".", "?."], field "property" queriedName]),
    ("_type_query_subscript_expression", seq [
      field "object" (alt ([identifier, node "this"] ++ queriedValue)),
      opt "?.", "[", field "index" (alt [sym "predefined_type", sym "string", number]), "]"]),
    ("_type_query_call_expression", seq [field "function" queriedFunction,
      field "arguments" (sym "arguments")]),
    ("_type_query_instantiation_expression", seq [field "function" queriedFunction,
      field "type_arguments" (sym "type_arguments")]),
    ("type_query", right (seq ["typeof", alt (queriedValue ++ [
      called "instantiation_expression" (sym "_type_query_instantiation_expression"),
      identifier, node "this"])])),
    ("index_type_query", seq ["keyof", sym "primary_type"]),
    ("lookup_type", seq [sym "primary_type", "[", sym "type", "]"]),
    ("mapped_type_clause", seq [field "name" (sym "_type_identifier"), "in",
      field "type" (sym "type"), opt (seq ["as", field "alias" (sym "type")])]),
    ("literal_type", alt [called "unary_expression" (sym "_number"), number, sym "string",
      node "true", node "false", node "null", node "undefined"]),
    ("_number", .ranked (.level 1) (some .left) (seq [
      field "operator" (alt ["-", "+"]), field "argument" number])),
    ("existential_type", "*"),
    ("flow_maybe_type", right (seq ["?", sym "primary_type"])),
    ("parenthesized_type", seq ["(", sym "type", ")"]),
    ("predefined_type", alt ["any", "number", "boolean", "string", "symbol",
      .titled ⟨"unique symbol", false⟩ (seq ["unique", "symbol"]), "void", "unknown", "never",
      "object"]),
    ("type_arguments", seq ["<", list (sym "type"), opt ",", ">"]),
    ("object_type", seq [alt [lbrace, lit "\x7b|"],
      opt (seq [
        opt (alt [",", ";"]),
        sepBy (alt [",", sym "_semicolon"]) (alt [
          sym "export_statement", sym "property_signature", sym "call_signature",
          sym "construct_signature", sym "index_signature", sym "method_signature"]),
        opt (alt [",", sym "_semicolon"])]),
      alt [rbrace, lit "|\x7d"]]),
    ("call_signature", sym "_call_signature"),
    ("property_signature", seq [opt (sym "accessibility_modifier"), opt "static",
      opt (sym "override_modifier"), opt "readonly", field "name" (sym "_property_name"),
      opt "?", field "type" (opt (sym "type_annotation"))]),
    ("type_parameters", seq ["<", list (sym "type_parameter"), opt ",", ">"]),
    ("type_parameter", seq [opt "const", field "name" (sym "_type_identifier"),
      field "constraint" (opt (sym "constraint")), field "value" (opt (sym "default_type"))]),
    ("default_type", seq ["=", sym "type"]),
    ("constraint", seq [alt ["extends", ":"], sym "type"]),
    ("construct_signature", seq [opt "abstract", "new",
      field "type_parameters" (opt (sym "type_parameters")),
      field "parameters" (sym "formal_parameters"),
      field "type" (opt (sym "type_annotation"))]),
    ("index_signature", seq [
      opt (seq [field "sign" (opt (alt ["-", "+"])), "readonly"]), "[",
      alt [
        seq [field "name" (alt [identifier, called "identifier" (sym "_reserved_identifier")]),
          ":", field "index_type" (sym "type")],
        sym "mapped_type_clause"],
      "]", field "type" (alt [sym "type_annotation", sym "omitting_type_annotation",
        sym "adding_type_annotation", sym "opting_type_annotation"])]),
    ("array_type", seq [sym "primary_type", "[", "]"]),
    ("tuple_type", seq ["[", optList (sym "_tuple_type_member"), opt ",", "]"]),
    ("readonly_type", seq ["readonly", sym "type"]),
    ("union_type", left (seq [opt (sym "type"), "|", sym "type"])),
    ("intersection_type", left (seq [opt (sym "type"), "&", sym "type"])),
    ("function_type", left (seq [field "type_parameters" (opt (sym "type_parameters")),
      field "parameters" (sym "formal_parameters"), "=>",
      field "return_type" (alt [sym "type", sym "asserts", sym "type_predicate"])])),
    ("_type_identifier", called "type_identifier" identifier)]

end Rules

end TypeScript

end AssetLift

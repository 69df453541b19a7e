import AssetLift.TypeScript.Rule

/-!
# Statements

The rules of modules and statements.
-/

namespace AssetLift

namespace TypeScript

namespace Rules

open Rule

/-- The rules of what files import and export. -/
def modules : List (String × Rule) :=
  [("program", seq [opt (.token .hashBang), rep (sym "statement")]),
    ("export_statement", alt [
      seq ["export",
        alt [
          seq ["*", sym "_from_clause"],
          seq [sym "namespace_export", sym "_from_clause"],
          seq [sym "export_clause", sym "_from_clause"],
          sym "export_clause"],
        sym "_semicolon"],
      seq [rep (field "decorator" (sym "decorator")),
        "export",
        alt [
          field "declaration" (sym "declaration"),
          seq ["default",
            alt [
              field "declaration" (sym "declaration"),
              seq [field "value" (sym "expression"), sym "_semicolon"]]]]],
      seq ["export", "type", sym "export_clause", opt (sym "_from_clause"), sym "_semicolon"],
      seq ["export", "import", sym "import_alias"],
      seq ["export", "=", sym "expression", sym "_semicolon"],
      seq ["export", "as", "namespace", identifier, sym "_semicolon"]]),
    ("namespace_export", seq ["*", "as", sym "_module_export_name"]),
    ("export_clause", braces [optList (sym "export_specifier"), opt ","]),
    ("export_specifier", seq [opt (alt ["type", "typeof"]),
      field "name" (sym "_module_export_name"),
      opt (seq ["as", field "alias" (sym "_module_export_name")])]),
    ("_module_export_name", alt [identifier, sym "string"]),
    ("declaration", alt [
      sym "function_declaration", sym "generator_function_declaration", sym "class_declaration",
      sym "lexical_declaration", sym "variable_declaration", sym "function_signature",
      sym "abstract_class_declaration", sym "module", rank "declare" (sym "internal_module"),
      sym "type_alias_declaration", sym "enum_declaration", sym "interface_declaration",
      sym "import_alias", sym "ambient_declaration"]),
    ("import", "import"),
    ("import_statement", seq ["import", opt (alt ["type", "typeof"]),
      alt [
        seq [sym "import_clause", sym "_from_clause"],
        sym "import_require_clause",
        field "source" (sym "string")],
      opt (sym "import_attribute"),
      sym "_semicolon"]),
    ("import_clause", alt [
      sym "namespace_import",
      sym "named_imports",
      seq [sym "_import_identifier",
        opt (seq [",", alt [sym "namespace_import", sym "named_imports"]])]]),
    ("_from_clause", seq ["from", field "source" (sym "string")]),
    ("namespace_import", seq ["*", "as", identifier]),
    ("named_imports", braces [optList (sym "import_specifier"), opt ","]),
    ("import_specifier", seq [opt (alt ["type", "typeof"]),
      alt [
        field "name" (sym "_import_identifier"),
        seq [field "name" (alt [sym "_module_export_name", called "identifier" "type"]),
          "as", field "alias" (sym "_import_identifier")]]]),
    ("import_attribute", seq [alt ["with", "assert"], sym "object"])]

/-- The rules of statements. -/
def statements : List (String × Rule) :=
  [("statement", alt [
      sym "export_statement", sym "import_statement", sym "debugger_statement",
      sym "expression_statement", sym "declaration", sym "statement_block",
      sym "if_statement", sym "switch_statement", sym "for_statement", sym "for_in_statement",
      sym "while_statement", sym "do_statement", sym "try_statement", sym "with_statement",
      sym "break_statement", sym "continue_statement", sym "return_statement",
      sym "throw_statement", sym "empty_statement", sym "labeled_statement"]),
    ("expression_statement", seq [sym "_expressions", sym "_semicolon"]),
    ("variable_declaration", seq ["var", list (sym "variable_declarator"), sym "_semicolon"]),
    ("lexical_declaration", seq [field "kind" (alt ["let", "const"]),
      list (sym "variable_declarator"), sym "_semicolon"]),
    ("variable_declarator", alt [
      seq [field "name" (alt [identifier, sym "_destructuring_pattern"]),
        field "type" (opt (sym "type_annotation")), opt (sym "_initializer")],
      rank "declare"
        (seq [field "name" identifier, "!", field "type" (sym "type_annotation")])]),
    ("statement_block", right (seq [braces [rep (sym "statement")], opt statementEnd])),
    ("else_clause", seq ["else", sym "statement"]),
    ("if_statement", right (seq ["if", field "condition" (sym "parenthesized_expression"),
      field "consequence" (sym "statement"), opt (field "alternative" (sym "else_clause"))])),
    ("switch_statement", seq ["switch", field "value" (sym "parenthesized_expression"),
      field "body" (sym "switch_body")]),
    ("for_statement", seq ["for", "(",
      alt [
        field "initializer" (alt [sym "lexical_declaration", sym "variable_declaration"]),
        seq [field "initializer" (sym "_expressions"), ";"],
        field "initializer" (sym "empty_statement")],
      alt [
        seq [field "condition" (sym "_expressions"), ";"],
        field "condition" (sym "empty_statement")],
      field "increment" (opt (sym "_expressions")),
      ")", field "body" (sym "statement")]),
    ("for_in_statement", seq ["for", opt "await", sym "_for_header",
      field "body" (sym "statement")]),
    ("_for_header", seq ["(",
      alt [
        field "left" (alt [sym "_lhs_expression", sym "parenthesized_expression"]),
        seq [field "kind" "var",
          field "left" (alt [identifier, sym "_destructuring_pattern"]),
          opt (sym "_initializer")],
        seq [field "kind" (alt ["let", "const"]),
          field "left" (alt [identifier, sym "_destructuring_pattern"]),
          opt statementEnd]],
      field "operator" (alt ["in", "of"]),
      field "right" (sym "_expressions"), ")"]),
    ("while_statement", seq ["while", field "condition" (sym "parenthesized_expression"),
      field "body" (sym "statement")]),
    ("do_statement", right (seq ["do", field "body" (sym "statement"), "while",
      field "condition" (sym "parenthesized_expression"), opt (sym "_semicolon")])),
    ("try_statement", seq ["try", field "body" (sym "statement_block"),
      opt (field "handler" (sym "catch_clause")),
      opt (field "finalizer" (sym "finally_clause"))]),
    ("with_statement", seq ["with", field "object" (sym "parenthesized_expression"),
      field "body" (sym "statement")]),
    ("break_statement", seq ["break",
      field "label" (opt (called "statement_identifier" identifier)), sym "_semicolon"]),
    ("continue_statement", seq ["continue",
      field "label" (opt (called "statement_identifier" identifier)), sym "_semicolon"]),
    ("debugger_statement", seq ["debugger", sym "_semicolon"]),
    ("return_statement", seq ["return", opt (sym "_expressions"), sym "_semicolon"]),
    ("throw_statement", seq ["throw", sym "_expressions", sym "_semicolon"]),
    ("empty_statement", ";"),
    ("labeled_statement", .weighted (-1) (seq [
      field "label" (called "statement_identifier" (alt [identifier, sym "_reserved_identifier"])),
      ":", field "body" (sym "statement")])),
    ("switch_body", braces [rep (alt [sym "switch_case", sym "switch_default"])]),
    ("switch_case", seq ["case", field "value" (sym "_expressions"), ":",
      field "body" (rep (sym "statement"))]),
    ("switch_default", seq ["default", ":", field "body" (rep (sym "statement"))]),
    ("catch_clause", seq ["catch",
      opt (seq ["(", field "parameter" (alt [identifier, sym "_destructuring_pattern"]),
        opt (field "type" (sym "type_annotation")), ")"]),
      field "body" (sym "statement_block")]),
    ("finally_clause", seq ["finally", field "body" (sym "statement_block")])]

end Rules

end TypeScript

end AssetLift

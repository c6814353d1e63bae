import Pseudonym.Language.JavaScript

namespace Pseudonym.Language.TypeScript

open Grammar (Rule Rank)
open Grammar.Rule
open JavaScript (R lit tok sym word lits commaSep1 commaSep identifier semicolon)

def inlined : List String :=
  (JavaScript.inlined.filter fun n => n ≠ "_formal_parameter" && n ≠ "_call_signature") ++
    ["_type_identifier", "_jsx_start_opening_element"]

def transparent : List String := JavaScript.transparent ++ ["type", "primary_type"]

def rankings : List (List Rank) :=
  JavaScript.rankings ++
  [[.binding "call", .binding "instantiation", .binding "unary", .binding "binary",
      .rule "await_expression", .rule "arrow_function"],
    [.binding "extends", .binding "instantiation"],
    [.rule "intersection_type", .rule "union_type", .rule "conditional_type",
      .rule "function_type", .binding "binary", .rule "type_predicate", .rule "readonly_type"],
    [.rule "mapped_type_clause", .rule "primary_expression"],
    [.rule "accessibility_modifier", .rule "primary_expression"],
    [.binding "unary_void", .rule "expression"],
    [.rule "extends_clause", .rule "primary_expression"],
    [.binding "unary", .binding "assign"],
    [.binding "declare", .rule "expression"],
    [.rule "predefined_type", .rule "unary_expression"],
    [.rule "type", .rule "flow_maybe_type"],
    [.rule "tuple_type", .rule "array_type", .rule "pattern", .rule "type"],
    [.rule "readonly_type", .rule "pattern"],
    [.rule "readonly_type", .rule "primary_expression"],
    [.rule "type_query", .rule "subscript_expression", .rule "expression"],
    [.rule "type_query", .rule "_type_query_subscript_expression"],
    [.rule "nested_type_identifier", .rule "generic_type", .rule "primary_type",
      .rule "lookup_type", .rule "index_type_query", .rule "type"],
    [.rule "as_expression", .rule "satisfies_expression", .rule "primary_type"],
    [.rule "_type_query_member_expression", .rule "member_expression"],
    [.rule "member_expression", .rule "_type_query_member_expression_in_type_annotation"],
    [.rule "_type_query_member_expression", .rule "primary_expression"],
    [.rule "_type_query_subscript_expression", .rule "subscript_expression"],
    [.rule "_type_query_subscript_expression", .rule "primary_expression"],
    [.rule "_type_query_call_expression", .rule "primary_expression"],
    [.rule "_type_query_instantiation_expression", .rule "primary_expression"],
    [.rule "type_query", .rule "primary_expression"],
    [.rule "override_modifier", .rule "primary_expression"],
    [.rule "decorator_call_expression", .rule "decorator"],
    [.rule "literal_type", .rule "pattern"],
    [.rule "predefined_type", .rule "pattern"],
    [.rule "call_expression", .rule "_type_query_call_expression"],
    [.rule "call_expression", .rule "_type_query_call_expression_in_type_annotation"],
    [.rule "new_expression", .rule "primary_expression"],
    [.rule "meta_property", .rule "primary_expression"],
    [.rule "construct_signature", .rule "_property_name"]]

def typeIdentifier : R := sym "_type_identifier"

def typeAnnotation? : R := .field "type" (opt (sym "type_annotation"))

def typeArguments? : R := .field "type_arguments" (opt (sym "type_arguments"))

def typeParameters? : R := .field "type_parameters" (opt (sym "type_parameters"))

def decorators : R := star (.field "decorator" (sym "decorator"))

/-- The rule of that name in JavaScript. -/
def plain (name : String) : R :=
  ((JavaScript.grammar.rules.lookup name).getD .blank)

def expression (tags : Bool) : R :=
  let own := ["as_expression", "satisfies_expression", "instantiation_expression",
    "internal_module"]
  let shared := ["primary_expression"] ++ (if tags then ["_jsx_element"] else []) ++
    ["assignment_expression", "augmented_assignment_expression", "await_expression",
      "unary_expression", "binary_expression", "ternary_expression", "update_expression",
      "new_expression", "yield_expression"]
  choice ((own ++ (if tags then [] else ["type_assertion"]) ++ shared).map sym)

/-- Rules that take the place of those of the same name. -/
def replaced (tags : Bool) : List (String × R) :=
  [("catch_clause",
      seq [lit "catch",
        opt (seq [lit "(",
          .field "parameter" (choice [identifier, sym "_destructuring_pattern"]),
          opt (.field "type" (sym "type_annotation")), lit ")"]),
        .field "body" (sym "statement_block")]),
    ("call_expression",
      choice [
        ranked "call" (seq [.field "function" (choice [sym "expression", sym "import"]),
          typeArguments?, .field "arguments" (sym "arguments")]),
        ranked "template_call" (seq [
          .field "function" (choice [sym "primary_expression", sym "new_expression"]),
          .field "arguments" (sym "template_string")]),
        ranked "member" (seq [.field "function" (sym "primary_expression"), lit "?.",
          typeArguments?, .field "arguments" (sym "arguments")])]),
    ("new_expression",
      rightmost "new" (seq [lit "new",
        .field "constructor" (choice [sym "primary_expression", sym "new_expression"]),
        typeArguments?, .field "arguments" (opt (sym "arguments"))])),
    ("_augmented_assignment_lhs",
      choice [plain "_augmented_assignment_lhs", sym "non_null_expression"]),
    ("_lhs_expression", choice [plain "_lhs_expression", sym "non_null_expression"]),
    ("primary_expression", choice [plain "primary_expression", sym "non_null_expression"]),
    ("expression", expression tags),
    ("jsx_opening_element",
      .weighted (-1) (seq [sym "_jsx_start_opening_element", lit ">"])),
    ("jsx_self_closing_element",
      .weighted (-1) (seq [sym "_jsx_start_opening_element", lit "/>"])),
    ("export_specifier", seq [opt (lits ["type", "typeof"]), plain "export_specifier"]),
    ("import_specifier",
      seq [opt (lits ["type", "typeof"]),
        choice [.field "name" (sym "_import_identifier"),
          seq [.field "name" (choice [sym "_module_export_name", called "identifier" (lit "type")]),
            lit "as", .field "alias" (sym "_import_identifier")]]]),
    ("import_clause",
      choice [sym "namespace_import", sym "named_imports",
        seq [sym "_import_identifier",
          opt (seq [lit ",", choice [sym "namespace_import", sym "named_imports"]])]]),
    ("import_statement",
      seq [lit "import", opt (lits ["type", "typeof"]),
        choice [seq [sym "import_clause", sym "_from_clause"], sym "import_require_clause",
          .field "source" (sym "string")],
        opt (sym "import_attribute"), sym "_semicolon"]),
    ("export_statement",
      choice [plain "export_statement",
        seq [lit "export", lit "type", sym "export_clause", opt (sym "_from_clause"),
          sym "_semicolon"],
        seq [lit "export", lit "=", sym "expression", sym "_semicolon"],
        seq [lit "export", lit "as", lit "namespace", identifier, sym "_semicolon"]]),
    ("variable_declarator",
      choice [
        seq [.field "name" (choice [identifier, sym "_destructuring_pattern"]), typeAnnotation?,
          opt (sym "_initializer")],
        ranked "declare" (seq [.field "name" identifier, lit "!",
          .field "type" (sym "type_annotation")])]),
    ("parenthesized_expression",
      seq [lit "(",
        choice [seq [sym "expression", typeAnnotation?], sym "sequence_expression"], lit ")"]),
    ("_formal_parameter", choice [sym "required_parameter", sym "optional_parameter"]),
    ("decorator",
      seq [lit "@",
        choice [identifier, called "member_expression" (sym "decorator_member_expression"),
          called "call_expression" (sym "decorator_call_expression"),
          called "parenthesized_expression" (sym "decorator_parenthesized_expression")]]),
    ("decorator_call_expression",
      ranked "call" (seq [
        .field "function" (choice [identifier,
          called "member_expression" (sym "decorator_member_expression")]),
        opt (.field "type_arguments" (sym "type_arguments")),
        .field "arguments" (sym "arguments")])),
    ("class_body",
      seq [lit "\x7b",
        star (choice [
          sym "decorator",
          seq [sym "method_definition", opt (sym "_semicolon")],
          seq [sym "method_signature", choice [tok .signatureSemicolon, lit ","]],
          sym "class_static_block",
          seq [
            choice [sym "abstract_method_signature", sym "index_signature",
              sym "method_signature", sym "public_field_definition"],
            choice [sym "_semicolon", lit ","]],
          lit ";"]),
        lit "\x7d"]),
    ("method_definition",
      toLeft (seq [opt (sym "accessibility_modifier"), opt (lit "static"),
        opt (sym "override_modifier"), opt (lit "readonly"), opt (lit "async"),
        opt (lits ["get", "set", "*"]), .field "name" (sym "_property_name"), opt (lit "?"),
        sym "_call_signature", .field "body" (sym "statement_block")])),
    ("declaration",
      choice [plain "declaration", sym "function_signature", sym "abstract_class_declaration",
        sym "module", ranked "declare" (sym "internal_module"), sym "type_alias_declaration",
        sym "enum_declaration", sym "interface_declaration", sym "import_alias",
        sym "ambient_declaration"]),
    ("class_heritage",
      choice [seq [sym "extends_clause", opt (sym "implements_clause")],
        sym "implements_clause"]),
    ("class",
      ranked "literal" (seq [decorators, lit "class", .field "name" (opt typeIdentifier),
        typeParameters?, opt (sym "class_heritage"), .field "body" (sym "class_body")])),
    ("class_declaration",
      leftmost "declare" (seq [decorators, lit "class", .field "name" typeIdentifier,
        typeParameters?, opt (sym "class_heritage"), .field "body" (sym "class_body"),
        opt semicolon])),
    ("_call_signature",
      seq [typeParameters?, .field "parameters" (sym "formal_parameters"),
        .field "return_type" (opt (choice [sym "type_annotation", sym "asserts_annotation",
          sym "type_predicate_annotation"]))]),
    ("_reserved_identifier",
      choice [lits ["declare", "namespace", "type", "public", "private", "protected", "override",
        "readonly", "module", "any", "number", "boolean", "string", "symbol", "export", "object",
        "new"], plain "_reserved_identifier"])]

def declarationRules : List (String × R) :=
  [("public_field_definition",
      seq [decorators,
        opt (choice [
          seq [lit "declare", opt (sym "accessibility_modifier")],
          seq [sym "accessibility_modifier", opt (lit "declare")]]),
        choice [
          seq [opt (lit "static"), opt (sym "override_modifier"), opt (lit "readonly")],
          seq [opt (lit "abstract"), opt (lit "readonly")],
          seq [opt (lit "readonly"), opt (lit "abstract")],
          opt (lit "accessor")],
        .field "name" (sym "_property_name"), opt (lits ["?", "!"]), typeAnnotation?,
        opt (sym "_initializer")]),
    ("_jsx_start_opening_element",
      seq [lit "<",
        opt (seq [
          choice [
            .field "name" (choice [sym "_jsx_identifier", sym "jsx_namespace_name"]),
            seq [.field "name" (choice [identifier,
                called "member_expression" (sym "nested_identifier")]),
              typeArguments?]],
          star (.field "attribute" (sym "_jsx_attribute"))])]),
    ("_import_identifier", choice [identifier, called "identifier" (lit "type")]),
    ("non_null_expression", leftmost "unary" (seq [sym "expression", lit "!"])),
    ("method_signature",
      seq [opt (sym "accessibility_modifier"), opt (lit "static"), opt (sym "override_modifier"),
        opt (lit "readonly"), opt (lit "async"), opt (lits ["get", "set", "*"]),
        .field "name" (sym "_property_name"), opt (lit "?"), sym "_call_signature"]),
    ("abstract_method_signature",
      seq [opt (sym "accessibility_modifier"), lit "abstract", opt (sym "override_modifier"),
        opt (lits ["get", "set", "*"]), .field "name" (sym "_property_name"), opt (lit "?"),
        sym "_call_signature"]),
    ("function_signature",
      seq [opt (lit "async"), lit "function", .field "name" identifier, sym "_call_signature",
        choice [sym "_semicolon", tok .signatureSemicolon]]),
    ("decorator_parenthesized_expression",
      seq [lit "(",
        choice [identifier, called "member_expression" (sym "decorator_member_expression"),
          called "call_expression" (sym "decorator_call_expression")],
        lit ")"]),
    ("type_assertion", leftmost "unary" (seq [sym "type_arguments", sym "expression"])),
    ("as_expression",
      leftmost "binary" (seq [sym "expression", lit "as", choice [lit "const", sym "type"]])),
    ("satisfies_expression",
      leftmost "binary" (seq [sym "expression", lit "satisfies", sym "type"])),
    ("instantiation_expression",
      ranked "instantiation" (seq [sym "expression",
        .field "type_arguments" (sym "type_arguments")])),
    ("import_require_clause",
      seq [identifier, lit "=", lit "require", lit "(", .field "source" (sym "string"),
        lit ")"]),
    ("extends_clause", seq [lit "extends", commaSep1 (sym "_extends_clause_single")]),
    ("_extends_clause_single",
      ranked "extends" (seq [.field "value" (sym "expression"), typeArguments?])),
    ("implements_clause", seq [lit "implements", commaSep1 (sym "type")]),
    ("ambient_declaration",
      seq [lit "declare",
        choice [sym "declaration", seq [lit "global", sym "statement_block"],
          seq [lit "module", lit ".", called "property_identifier" identifier, lit ":",
            sym "type", sym "_semicolon"]]]),
    ("abstract_class_declaration",
      ranked "declare" (seq [decorators, lit "abstract", lit "class",
        .field "name" typeIdentifier, typeParameters?, opt (sym "class_heritage"),
        .field "body" (sym "class_body")])),
    ("module", seq [lit "module", sym "_module"]),
    ("internal_module", seq [lit "namespace", sym "_module"]),
    ("_module",
      toRight (seq [.field "name" (choice [sym "string", identifier, sym "nested_identifier"]),
        .field "body" (opt (sym "statement_block"))])),
    ("import_alias",
      seq [lit "import", identifier, lit "=", choice [identifier, sym "nested_identifier"],
        sym "_semicolon"]),
    ("nested_type_identifier",
      ranked "member" (seq [.field "module" (choice [identifier, sym "nested_identifier"]),
        lit ".", .field "name" typeIdentifier])),
    ("interface_declaration",
      seq [lit "interface", .field "name" typeIdentifier, typeParameters?,
        opt (sym "extends_type_clause"), .field "body" (called "interface_body" (sym "object_type"))]),
    ("extends_type_clause",
      seq [lit "extends",
        commaSep1 (.field "type" (choice [typeIdentifier, sym "nested_type_identifier",
          sym "generic_type"]))]),
    ("enum_declaration",
      seq [opt (lit "const"), lit "enum", .field "name" identifier,
        .field "body" (sym "enum_body")]),
    ("enum_body",
      seq [lit "\x7b",
        opt (seq [
          commaSep1 (choice [.field "name" (sym "_property_name"), sym "enum_assignment"]),
          opt (lit ",")]),
        lit "\x7d"]),
    ("enum_assignment", seq [.field "name" (sym "_property_name"), sym "_initializer"]),
    ("type_alias_declaration",
      seq [lit "type", .field "name" typeIdentifier, typeParameters?, lit "=",
        .field "value" (sym "type"), sym "_semicolon"]),
    ("accessibility_modifier", lits ["public", "private", "protected"]),
    ("override_modifier", lit "override"),
    ("required_parameter",
      seq [sym "_parameter_name", typeAnnotation?, opt (sym "_initializer")]),
    ("optional_parameter",
      seq [sym "_parameter_name", lit "?", typeAnnotation?, opt (sym "_initializer")]),
    ("_parameter_name",
      seq [decorators, opt (sym "accessibility_modifier"), opt (sym "override_modifier"),
        opt (lit "readonly"), .field "pattern" (choice [sym "pattern", word "this"])])]

def typeRules : List (String × R) :=
  [("omitting_type_annotation", seq [lit "-?:", sym "type"]),
    ("adding_type_annotation", seq [lit "+?:", sym "type"]),
    ("opting_type_annotation", seq [lit "?:", sym "type"]),
    ("type_annotation",
      seq [lit ":",
        choice [sym "type",
          called "member_expression" (sym "_type_query_member_expression_in_type_annotation"),
          called "call_expression" (sym "_type_query_call_expression_in_type_annotation")]]),
    ("_type_query_member_expression_in_type_annotation",
      seq [
        .field "object" (choice [sym "import",
          called "member_expression" (sym "_type_query_member_expression_in_type_annotation"),
          called "call_expression" (sym "_type_query_call_expression_in_type_annotation")]),
        lit ".",
        .field "property" (choice [tok .privateName, called "property_identifier" identifier])]),
    ("_type_query_call_expression_in_type_annotation",
      seq [
        .field "function" (choice [sym "import",
          called "member_expression" (sym "_type_query_member_expression_in_type_annotation")]),
        .field "arguments" (sym "arguments")]),
    ("asserts", seq [lit "asserts", choice [sym "type_predicate", identifier, word "this"]]),
    ("asserts_annotation", seq [lit ":", sym "asserts"]),
    ("type",
      choice [sym "primary_type", sym "function_type", sym "readonly_type",
        sym "constructor_type", sym "infer_type",
        .bound (.level (-1)) none
          (called "member_expression" (sym "_type_query_member_expression_in_type_annotation")),
        .bound (.level (-1)) none
          (called "call_expression" (sym "_type_query_call_expression_in_type_annotation"))]),
    ("tuple_parameter",
      seq [.field "name" (choice [identifier, sym "rest_pattern"]),
        .field "type" (sym "type_annotation")]),
    ("optional_tuple_parameter",
      seq [.field "name" identifier, lit "?", .field "type" (sym "type_annotation")]),
    ("optional_type", seq [sym "type", lit "?"]),
    ("rest_type", seq [lit "...", sym "type"]),
    ("_tuple_type_member",
      choice [called "required_parameter" (sym "tuple_parameter"),
        called "optional_parameter" (sym "optional_tuple_parameter"), sym "optional_type",
        sym "rest_type", sym "type"]),
    ("constructor_type",
      toLeft (seq [opt (lit "abstract"), lit "new", typeParameters?,
        .field "parameters" (sym "formal_parameters"), lit "=>", .field "type" (sym "type")])),
    ("primary_type",
      choice [sym "parenthesized_type", sym "predefined_type", typeIdentifier,
        sym "nested_type_identifier", sym "generic_type", sym "object_type", sym "array_type",
        sym "tuple_type", sym "flow_maybe_type", sym "type_query", sym "index_type_query",
        called "this_type" (lit "this"), sym "existential_type", sym "literal_type",
        sym "lookup_type", sym "conditional_type", sym "template_literal_type",
        sym "intersection_type", sym "union_type", lit "const"]),
    ("template_type",
      seq [lit "$\x7b", choice [sym "primary_type", sym "infer_type"], lit "\x7d"]),
    ("template_literal_type",
      seq [lit "`",
        star (choice [called "string_fragment" (tok .templateText), sym "template_type"]),
        lit "`"]),
    ("infer_type",
      toRight (seq [lit "infer", typeIdentifier, opt (seq [lit "extends", sym "type"])])),
    ("conditional_type",
      toRight (seq [.field "left" (sym "type"), lit "extends", .field "right" (sym "type"),
        lit "?", .field "consequence" (sym "type"), lit ":", .field "alternative" (sym "type")])),
    ("generic_type",
      ranked "call" (seq [
        .field "name" (choice [typeIdentifier, sym "nested_type_identifier"]),
        .field "type_arguments" (sym "type_arguments")])),
    ("type_predicate",
      seq [.field "name" (choice [identifier, word "this",
          called "identifier" (sym "predefined_type")]),
        lit "is", .field "type" (sym "type")]),
    ("type_predicate_annotation", seq [lit ":", sym "type_predicate"]),
    ("_type_query_member_expression",
      seq [
        .field "object" (choice [identifier, word "this",
          called "subscript_expression" (sym "_type_query_subscript_expression"),
          called "member_expression" (sym "_type_query_member_expression"),
          called "call_expression" (sym "_type_query_call_expression")]),
        lits [".", "?."],
        .field "property" (choice [tok .privateName, called "property_identifier" identifier])]),
    ("_type_query_subscript_expression",
      seq [
        .field "object" (choice [identifier, word "this",
          called "subscript_expression" (sym "_type_query_subscript_expression"),
          called "member_expression" (sym "_type_query_member_expression"),
          called "call_expression" (sym "_type_query_call_expression")]),
        opt (lit "?."), lit "[",
        .field "index" (choice [sym "predefined_type", sym "string", tok .number]), lit "]"]),
    ("_type_query_call_expression",
      seq [
        .field "function" (choice [sym "import", identifier,
          called "member_expression" (sym "_type_query_member_expression"),
          called "subscript_expression" (sym "_type_query_subscript_expression")]),
        .field "arguments" (sym "arguments")]),
    ("_type_query_instantiation_expression",
      seq [
        .field "function" (choice [sym "import", identifier,
          called "member_expression" (sym "_type_query_member_expression"),
          called "subscript_expression" (sym "_type_query_subscript_expression")]),
        .field "type_arguments" (sym "type_arguments")]),
    ("type_query",
      toRight (seq [lit "typeof",
        choice [called "subscript_expression" (sym "_type_query_subscript_expression"),
          called "member_expression" (sym "_type_query_member_expression"),
          called "call_expression" (sym "_type_query_call_expression"),
          called "instantiation_expression" (sym "_type_query_instantiation_expression"),
          identifier, word "this"]])),
    ("index_type_query", seq [lit "keyof", sym "primary_type"]),
    ("lookup_type", seq [sym "primary_type", lit "[", sym "type", lit "]"]),
    ("mapped_type_clause",
      seq [.field "name" typeIdentifier, lit "in", .field "type" (sym "type"),
        opt (seq [lit "as", .field "alias" (sym "type")])]),
    ("literal_type",
      choice [called "unary_expression" (sym "_number"), tok .number, sym "string", word "true",
        word "false", word "null", word "undefined"]),
    ("_number",
      .bound (.level 1) (some .left)
        (seq [.field "operator" (lits ["-", "+"]), .field "argument" (tok .number)])),
    ("existential_type", lit "*"),
    ("flow_maybe_type", toRight (seq [lit "?", sym "primary_type"])),
    ("parenthesized_type", seq [lit "(", sym "type", lit ")"]),
    ("predefined_type",
      choice [lits ["any", "number", "boolean", "string", "symbol"],
        seq [lit "unique", lit "symbol"], lits ["void", "unknown", "never", "object"]]),
    ("type_arguments", seq [lit "<", commaSep1 (sym "type"), opt (lit ","), lit ">"]),
    ("object_type",
      seq [lits ["\x7b", "\x7b|"],
        opt (seq [opt (lits [",", ";"]),
          sepBy1 (choice [lit ",", sym "_semicolon"])
            (choice [sym "export_statement", sym "property_signature", sym "call_signature",
              sym "construct_signature", sym "index_signature", sym "method_signature"]),
          opt (choice [lit ",", sym "_semicolon"])]),
        lits ["\x7d", "|\x7d"]]),
    ("call_signature", sym "_call_signature"),
    ("property_signature",
      seq [opt (sym "accessibility_modifier"), opt (lit "static"), opt (sym "override_modifier"),
        opt (lit "readonly"), .field "name" (sym "_property_name"), opt (lit "?"),
        typeAnnotation?]),
    ("type_parameters",
      seq [lit "<", commaSep1 (sym "type_parameter"), opt (lit ","), lit ">"]),
    ("type_parameter",
      seq [opt (lit "const"), .field "name" typeIdentifier,
        .field "constraint" (opt (sym "constraint")), .field "value" (opt (sym "default_type"))]),
    ("default_type", seq [lit "=", sym "type"]),
    ("constraint", seq [lits ["extends", ":"], sym "type"]),
    ("construct_signature",
      seq [opt (lit "abstract"), lit "new", typeParameters?,
        .field "parameters" (sym "formal_parameters"), typeAnnotation?]),
    ("index_signature",
      seq [opt (seq [.field "sign" (opt (lits ["-", "+"])), lit "readonly"]), lit "[",
        choice [
          seq [.field "name" (choice [identifier,
              called "identifier" (sym "_reserved_identifier")]),
            lit ":", .field "index_type" (sym "type")],
          sym "mapped_type_clause"],
        lit "]",
        .field "type" (choice [sym "type_annotation", sym "omitting_type_annotation",
          sym "adding_type_annotation", sym "opting_type_annotation"])]),
    ("array_type", seq [sym "primary_type", lit "[", lit "]"]),
    ("tuple_type",
      seq [lit "[", commaSep (sym "_tuple_type_member"), opt (lit ","), lit "]"]),
    ("readonly_type", seq [lit "readonly", sym "type"]),
    ("union_type", toLeft (seq [opt (sym "type"), lit "|", sym "type"])),
    ("intersection_type", toLeft (seq [opt (sym "type"), lit "&", sym "type"])),
    ("function_type",
      toLeft (seq [typeParameters?, .field "parameters" (sym "formal_parameters"), lit "=>",
        .field "return_type" (choice [sym "type", sym "asserts", sym "type_predicate"])])),
    ("_type_identifier", called "type_identifier" identifier)]

def grammar (tags : Bool) : Grammar.RuleSet Terminal :=
  let changes := replaced tags
  { rules := (JavaScript.grammar.rules.map fun (name, r) => (name, (changes.lookup name).getD r)) ++
      declarationRules ++ typeRules
    inlined, transparent, rankings }

end Pseudonym.Language.TypeScript

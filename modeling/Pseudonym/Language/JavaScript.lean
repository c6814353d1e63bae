import Pseudonym.Language.Terminal

namespace Pseudonym.Language.JavaScript

open Grammar (Rule Rank)
open Grammar.Rule

abbrev R := Rule Terminal

def lit (text : String) : R := .token (.literal text)

def tok (t : Terminal) : R := .token t

def sym (name : String) : R := .symbol name

/-- A named node made of one literal. -/
def word (text : String) : R := called text (lit text)

def commaSep1 (r : R) : R := sepBy1 (lit ",") r

def commaSep (r : R) : R := sepBy (lit ",") r

def identifier : R := tok .identifier

def semicolon : R := tok .automaticSemicolon

def lits (texts : List String) : R := choice (texts.map lit)

/-- A name, also one of the words that are keywords only in some places. -/
def anyIdentifier : R := choice [identifier, sym "_reserved_identifier"]

def reservedWords : List String :=
  ["break", "case", "catch", "class", "const", "continue", "debugger", "default", "delete", "do",
    "else", "export", "extends", "false", "finally", "for", "function", "if", "import", "in",
    "instanceof", "new", "null", "return", "super", "switch", "this", "throw", "true", "try",
    "typeof", "var", "void", "while", "with"]

def inlined : List String :=
  ["_call_signature", "_formal_parameter", "_expressions", "_semicolon", "_identifier",
    "_reserved_identifier", "_jsx_attribute", "_jsx_element_name", "_jsx_child", "_jsx_element",
    "_jsx_attribute_name", "_jsx_attribute_value", "_jsx_identifier", "_lhs_expression"]

/-- Choices that are named for reference only and leave no node. -/
def transparent : List String :=
  ["statement", "declaration", "expression", "primary_expression", "pattern"]

def rankings : List (List Rank) :=
  [[.binding "member", .binding "template_call", .binding "call", .rule "update_expression",
      .binding "unary_void", .binding "binary_exp", .binding "binary_times", .binding "binary_plus",
      .binding "binary_shift", .binding "binary_compare", .binding "binary_relation",
      .binding "binary_equality", .binding "bitwise_and", .binding "bitwise_xor",
      .binding "bitwise_or", .binding "logical_and", .binding "logical_or", .binding "ternary",
      .rule "sequence_expression", .rule "arrow_function"],
    [.binding "assign", .rule "primary_expression"],
    [.binding "member", .binding "template_call", .binding "new", .binding "call",
      .rule "expression"],
    [.binding "declare", .binding "literal"],
    [.rule "primary_expression", .rule "statement_block", .binding "object"],
    [.rule "meta_property", .rule "import"],
    [.rule "import_statement", .rule "import"],
    [.rule "export_statement", .rule "primary_expression"],
    [.rule "lexical_declaration", .rule "primary_expression"]]

/-- Binary operators with their bindings. -/
def operators : List (String × String) :=
  [("&&", "logical_and"), ("||", "logical_or"), (">>", "binary_shift"), (">>>", "binary_shift"),
    ("<<", "binary_shift"), ("&", "bitwise_and"), ("^", "bitwise_xor"), ("|", "bitwise_or"),
    ("+", "binary_plus"), ("-", "binary_plus"), ("*", "binary_times"), ("/", "binary_times"),
    ("%", "binary_times"), ("**", "binary_exp"), ("<", "binary_relation"),
    ("<=", "binary_relation"), ("==", "binary_equality"), ("===", "binary_equality"),
    ("!=", "binary_equality"), ("!==", "binary_equality"), (">=", "binary_relation"),
    (">", "binary_relation"), ("??", "ternary"), ("instanceof", "binary_relation"),
    ("in", "binary_relation")]

def binary (entry : String × String) : R :=
  let (op, binding) := entry
  let left := if op = "in" then choice [sym "expression", tok .privateName] else sym "expression"
  let body := seq [.field "left" left, .field "operator" (lit op), .field "right" (sym "expression")]
  if op = "**" then rightmost binding body else leftmost binding body

def moduleRules : List (String × R) :=
  [("program", seq [opt (tok .hashBang), star (sym "statement")]),
    ("export_statement", choice [
      seq [lit "export",
        choice [seq [lit "*", sym "_from_clause"],
          seq [sym "namespace_export", sym "_from_clause"],
          seq [sym "export_clause", sym "_from_clause"],
          sym "export_clause"],
        sym "_semicolon"],
      seq [star (.field "decorator" (sym "decorator")), lit "export",
        choice [.field "declaration" (sym "declaration"),
          seq [lit "default",
            choice [.field "declaration" (sym "declaration"),
              seq [.field "value" (sym "expression"), sym "_semicolon"]]]]]]),
    ("namespace_export", seq [lit "*", lit "as", sym "_module_export_name"]),
    ("export_clause",
      seq [lit "\x7b", commaSep (sym "export_specifier"), opt (lit ","), lit "\x7d"]),
    ("export_specifier",
      seq [.field "name" (sym "_module_export_name"),
        opt (seq [lit "as", .field "alias" (sym "_module_export_name")])]),
    ("_module_export_name", choice [identifier, sym "string", lit "default"]),
    ("declaration",
      choice [sym "function_declaration", sym "generator_function_declaration",
        sym "class_declaration", sym "lexical_declaration", sym "variable_declaration"]),
    ("import", lit "import"),
    ("import_statement",
      seq [lit "import",
        choice [seq [sym "import_clause", sym "_from_clause"], .field "source" (sym "string")],
        opt (sym "import_attribute"), sym "_semicolon"]),
    ("import_clause",
      choice [sym "namespace_import", sym "named_imports",
        seq [identifier,
          opt (seq [lit ",", choice [sym "namespace_import", sym "named_imports"]])]]),
    ("_from_clause", seq [lit "from", .field "source" (sym "string")]),
    ("namespace_import", seq [lit "*", lit "as", identifier]),
    ("named_imports",
      seq [lit "\x7b", commaSep (sym "import_specifier"), opt (lit ","), lit "\x7d"]),
    ("import_specifier",
      choice [.field "name" identifier,
        seq [.field "name" (sym "_module_export_name"), lit "as", .field "alias" identifier]]),
    ("import_attribute", seq [lit "with", sym "object"])]

def statementRules : List (String × R) :=
  [("statement",
      choice (["export_statement", "import_statement", "debugger_statement", "expression_statement",
        "declaration", "statement_block", "if_statement", "switch_statement", "for_statement",
        "for_in_statement", "while_statement", "do_statement", "try_statement", "with_statement",
        "break_statement", "continue_statement", "return_statement", "throw_statement",
        "empty_statement", "labeled_statement"].map sym)),
    ("expression_statement", seq [sym "_expressions", sym "_semicolon"]),
    ("variable_declaration",
      seq [lit "var", commaSep1 (sym "variable_declarator"), sym "_semicolon"]),
    ("lexical_declaration",
      seq [.field "kind" (lits ["let", "const"]), commaSep1 (sym "variable_declarator"),
        sym "_semicolon"]),
    ("variable_declarator",
      seq [.field "name" (choice [identifier, sym "_destructuring_pattern"]),
        opt (sym "_initializer")]),
    ("statement_block",
      toRight (seq [lit "\x7b", star (sym "statement"), lit "\x7d", opt semicolon])),
    ("else_clause", seq [lit "else", sym "statement"]),
    ("if_statement",
      toRight (seq [lit "if", .field "condition" (sym "parenthesized_expression"),
        .field "consequence" (sym "statement"), opt (.field "alternative" (sym "else_clause"))])),
    ("switch_statement",
      seq [lit "switch", .field "value" (sym "parenthesized_expression"),
        .field "body" (sym "switch_body")]),
    ("for_statement",
      seq [lit "for", lit "(",
        choice [.field "initializer" (choice [sym "lexical_declaration", sym "variable_declaration"]),
          seq [.field "initializer" (sym "_expressions"), lit ";"],
          .field "initializer" (sym "empty_statement")],
        choice [seq [.field "condition" (sym "_expressions"), lit ";"],
          .field "condition" (sym "empty_statement")],
        .field "increment" (opt (sym "_expressions")), lit ")", .field "body" (sym "statement")]),
    ("for_in_statement",
      seq [lit "for", opt (lit "await"), sym "_for_header", .field "body" (sym "statement")]),
    ("_for_header",
      seq [lit "(",
        choice [.field "left" (choice [sym "_lhs_expression", sym "parenthesized_expression"]),
          seq [.field "kind" (lit "var"),
            .field "left" (choice [identifier, sym "_destructuring_pattern"]),
            opt (sym "_initializer")],
          seq [.field "kind" (lits ["let", "const"]),
            .field "left" (choice [identifier, sym "_destructuring_pattern"]), opt semicolon]],
        .field "operator" (lits ["in", "of"]), .field "right" (sym "_expressions"), lit ")"]),
    ("while_statement",
      seq [lit "while", .field "condition" (sym "parenthesized_expression"),
        .field "body" (sym "statement")]),
    ("do_statement",
      toRight (seq [lit "do", .field "body" (sym "statement"), lit "while",
        .field "condition" (sym "parenthesized_expression"), opt (sym "_semicolon")])),
    ("try_statement",
      seq [lit "try", .field "body" (sym "statement_block"),
        opt (.field "handler" (sym "catch_clause")),
        opt (.field "finalizer" (sym "finally_clause"))]),
    ("with_statement",
      seq [lit "with", .field "object" (sym "parenthesized_expression"),
        .field "body" (sym "statement")]),
    ("break_statement",
      seq [lit "break", .field "label" (opt (called "statement_identifier" identifier)),
        sym "_semicolon"]),
    ("continue_statement",
      seq [lit "continue", .field "label" (opt (called "statement_identifier" identifier)),
        sym "_semicolon"]),
    ("debugger_statement", seq [lit "debugger", sym "_semicolon"]),
    ("return_statement", seq [lit "return", opt (sym "_expressions"), sym "_semicolon"]),
    ("throw_statement", seq [lit "throw", sym "_expressions", sym "_semicolon"]),
    ("empty_statement", lit ";"),
    ("labeled_statement",
      .weighted (-1) (seq [.field "label" (called "statement_identifier" anyIdentifier), lit ":",
        .field "body" (sym "statement")])),
    ("switch_body",
      seq [lit "\x7b", star (choice [sym "switch_case", sym "switch_default"]), lit "\x7d"]),
    ("switch_case",
      seq [lit "case", .field "value" (sym "_expressions"), lit ":",
        .field "body" (star (sym "statement"))]),
    ("switch_default", seq [lit "default", lit ":", .field "body" (star (sym "statement"))]),
    ("catch_clause",
      seq [lit "catch",
        opt (seq [lit "(",
          .field "parameter" (choice [identifier, sym "_destructuring_pattern"]), lit ")"]),
        .field "body" (sym "statement_block")]),
    ("finally_clause", seq [lit "finally", .field "body" (sym "statement_block")]),
    ("parenthesized_expression", seq [lit "(", sym "_expressions", lit ")"])]

def expressionRules : List (String × R) :=
  [("_expressions", choice [sym "expression", sym "sequence_expression"]),
    ("expression",
      choice (["primary_expression", "_jsx_element", "assignment_expression",
        "augmented_assignment_expression", "await_expression", "unary_expression",
        "binary_expression", "ternary_expression", "update_expression", "new_expression",
        "yield_expression"].map sym)),
    ("primary_expression",
      choice [sym "subscript_expression", sym "member_expression", sym "parenthesized_expression",
        sym "_identifier", called "identifier" (sym "_reserved_identifier"), word "this",
        word "super", tok .number, sym "string", sym "template_string", sym "regex", word "true",
        word "false", word "null", sym "object", sym "array", sym "function_expression",
        sym "arrow_function", sym "generator_function", sym "class", sym "meta_property",
        sym "call_expression"]),
    ("yield_expression",
      toRight (seq [lit "yield",
        choice [seq [lit "*", sym "expression"], opt (sym "expression")]])),
    ("object",
      ranked "object" (seq [lit "\x7b",
        commaSep (opt (choice [sym "pair", sym "spread_element", sym "method_definition",
          called "shorthand_property_identifier" anyIdentifier])),
        lit "\x7d"])),
    ("object_pattern",
      ranked "object" (seq [lit "\x7b",
        commaSep (opt (choice [sym "pair_pattern", sym "rest_pattern",
          sym "object_assignment_pattern",
          called "shorthand_property_identifier_pattern" anyIdentifier])),
        lit "\x7d"])),
    ("assignment_pattern",
      seq [.field "left" (sym "pattern"), lit "=", .field "right" (sym "expression")]),
    ("object_assignment_pattern",
      seq [.field "left" (choice [
          called "shorthand_property_identifier_pattern" anyIdentifier,
          sym "_destructuring_pattern"]),
        lit "=", .field "right" (sym "expression")]),
    ("array",
      seq [lit "[", commaSep (opt (choice [sym "expression", sym "spread_element"])), lit "]"]),
    ("array_pattern",
      seq [lit "[", commaSep (opt (choice [sym "pattern", sym "assignment_pattern"])), lit "]"]),
    ("class",
      ranked "literal" (seq [star (.field "decorator" (sym "decorator")), lit "class",
        .field "name" (opt identifier), opt (sym "class_heritage"), .field "body" (sym "class_body")])),
    ("class_declaration",
      ranked "declare" (seq [star (.field "decorator" (sym "decorator")), lit "class",
        .field "name" identifier, opt (sym "class_heritage"), .field "body" (sym "class_body"),
        opt semicolon])),
    ("class_heritage", seq [lit "extends", sym "expression"]),
    ("function_expression",
      ranked "literal" (seq [opt (lit "async"), lit "function", .field "name" (opt identifier),
        sym "_call_signature", .field "body" (sym "statement_block")])),
    ("function_declaration",
      rightmost "declare" (seq [opt (lit "async"), lit "function", .field "name" identifier,
        sym "_call_signature", .field "body" (sym "statement_block"), opt semicolon])),
    ("generator_function",
      ranked "literal" (seq [opt (lit "async"), lit "function", lit "*",
        .field "name" (opt identifier), sym "_call_signature",
        .field "body" (sym "statement_block")])),
    ("generator_function_declaration",
      rightmost "declare" (seq [opt (lit "async"), lit "function", lit "*",
        .field "name" identifier, sym "_call_signature", .field "body" (sym "statement_block"),
        opt semicolon])),
    ("arrow_function",
      seq [opt (lit "async"),
        choice [.field "parameter" (choice [
            called "identifier" (sym "_reserved_identifier"), identifier]),
          sym "_call_signature"],
        lit "=>", .field "body" (choice [sym "expression", sym "statement_block"])]),
    ("_call_signature", .field "parameters" (sym "formal_parameters")),
    ("_formal_parameter", choice [sym "pattern", sym "assignment_pattern"]),
    ("call_expression",
      choice [
        ranked "call" (seq [.field "function" (choice [sym "expression", sym "import"]),
          .field "arguments" (sym "arguments")]),
        ranked "template_call" (seq [
          .field "function" (choice [sym "primary_expression", sym "new_expression"]),
          .field "arguments" (sym "template_string")]),
        ranked "member" (seq [.field "function" (sym "primary_expression"),
          .field "optional_chain" (called "optional_chain" (lit "?.")),
          .field "arguments" (sym "arguments")])]),
    ("new_expression",
      rightmost "new" (seq [lit "new",
        .field "constructor" (choice [sym "primary_expression", sym "new_expression"]),
        .field "arguments" (opt (.weighted 1 (sym "arguments")))])),
    ("await_expression", ranked "unary_void" (seq [lit "await", sym "expression"])),
    ("member_expression",
      ranked "member" (seq [
        .field "object" (choice [sym "expression", sym "primary_expression", sym "import"]),
        choice [lit ".", .field "optional_chain" (called "optional_chain" (lit "?."))],
        .field "property" (choice [tok .privateName,
          .anyWord (called "property_identifier" identifier)])])),
    ("subscript_expression",
      rightmost "member" (seq [.field "object" (choice [sym "expression", sym "primary_expression"]),
        opt (.field "optional_chain" (called "optional_chain" (lit "?."))),
        lit "[", .field "index" (sym "_expressions"), lit "]"])),
    ("_lhs_expression",
      choice [sym "member_expression", sym "subscript_expression", sym "_identifier",
        called "identifier" (sym "_reserved_identifier"), sym "_destructuring_pattern"]),
    ("assignment_expression",
      rightmost "assign" (seq [opt (lit "using"),
        .field "left" (choice [sym "parenthesized_expression", sym "_lhs_expression"]),
        lit "=", .field "right" (sym "expression")])),
    ("_augmented_assignment_lhs",
      choice [sym "member_expression", sym "subscript_expression",
        called "identifier" (sym "_reserved_identifier"), identifier,
        sym "parenthesized_expression"]),
    ("augmented_assignment_expression",
      rightmost "assign" (seq [.field "left" (sym "_augmented_assignment_lhs"),
        .field "operator" (lits ["+=", "-=", "*=", "/=", "%=", "^=", "&=", "|=", ">>=", ">>>=",
          "<<=", "**=", "&&=", "||=", "??="]),
        .field "right" (sym "expression")])),
    ("_initializer", seq [lit "=", .field "value" (sym "expression")]),
    ("_destructuring_pattern", choice [sym "object_pattern", sym "array_pattern"]),
    ("spread_element", seq [lit "...", sym "expression"]),
    ("ternary_expression",
      rightmost "ternary" (seq [.field "condition" (sym "expression"),
        .renamed ⟨"?", false⟩ (tok .ternaryMark), .field "consequence" (sym "expression"),
        lit ":", .field "alternative" (sym "expression")])),
    ("binary_expression", choice (operators.map binary)),
    ("unary_expression",
      leftmost "unary_void" (seq [
        .field "operator" (lits ["!", "~", "-", "+", "typeof", "void", "delete"]),
        .field "argument" (sym "expression")])),
    ("update_expression",
      toLeft (choice [
        seq [.field "argument" (sym "expression"), .field "operator" (lits ["++", "--"])],
        seq [.field "operator" (lits ["++", "--"]), .field "argument" (sym "expression")]])),
    ("sequence_expression", toRight (commaSep1 (sym "expression")))]

def literalRules : List (String × R) :=
  [("string",
      choice [
        seq [lit "\"",
          star (choice [called "string_fragment" (tok .doubleFragment), tok .escapeSequence]),
          lit "\""],
        seq [lit "'",
          star (choice [called "string_fragment" (tok .singleFragment), tok .escapeSequence]),
          lit "'"]]),
    ("template_string",
      seq [lit "`",
        star (choice [called "string_fragment" (tok .templateText), tok .escapeSequence,
          sym "template_substitution"]),
        lit "`"]),
    ("template_substitution", seq [lit "$\x7b", sym "_expressions", lit "\x7d"]),
    ("regex",
      seq [lit "/", .field "pattern" (tok .regexPattern), tok .regexEnd,
        opt (.field "flags" (tok .regexFlags))]),
    ("_identifier", choice [word "undefined", identifier]),
    ("meta_property",
      choice [seq [lit "new", lit ".", lit "target"], seq [lit "import", lit ".", lit "meta"]]),
    ("arguments",
      seq [lit "(", commaSep (opt (choice [sym "expression", sym "spread_element"])), lit ")"])]

def classRules : List (String × R) :=
  [("decorator",
      seq [lit "@",
        choice [identifier, called "member_expression" (sym "decorator_member_expression"),
          called "call_expression" (sym "decorator_call_expression")]]),
    ("decorator_member_expression",
      ranked "member" (seq [
        .field "object" (choice [identifier,
          called "member_expression" (sym "decorator_member_expression")]),
        lit ".", .field "property" (called "property_identifier" identifier)])),
    ("decorator_call_expression",
      ranked "call" (seq [
        .field "function" (choice [identifier,
          called "member_expression" (sym "decorator_member_expression")]),
        .field "arguments" (sym "arguments")])),
    ("class_body",
      seq [lit "\x7b",
        star (choice [
          seq [.field "member" (sym "method_definition"), opt (lit ";")],
          seq [.field "member" (sym "field_definition"), sym "_semicolon"],
          .field "member" (sym "class_static_block"),
          lit ";"]),
        lit "\x7d"]),
    ("field_definition",
      seq [star (.field "decorator" (sym "decorator")), opt (lit "static"),
        .field "property" (sym "_property_name"), opt (sym "_initializer")]),
    ("formal_parameters",
      seq [lit "(", opt (seq [commaSep1 (sym "_formal_parameter"), opt (lit ",")]), lit ")"]),
    ("class_static_block",
      seq [lit "static", opt semicolon, .field "body" (sym "statement_block")]),
    ("pattern", .weighted (-1) (choice [sym "_lhs_expression", sym "rest_pattern"])),
    ("rest_pattern", toRight (seq [lit "...", sym "_lhs_expression"])),
    ("method_definition",
      seq [star (.field "decorator" (sym "decorator")),
        opt (choice [lit "static", tok .staticGet]), opt (lit "async"),
        opt (lits ["get", "set", "*"]), .field "name" (sym "_property_name"),
        .field "parameters" (sym "formal_parameters"), .field "body" (sym "statement_block")]),
    ("pair",
      seq [.field "key" (sym "_property_name"), lit ":", .field "value" (sym "expression")]),
    ("pair_pattern",
      seq [.field "key" (sym "_property_name"), lit ":",
        .field "value" (choice [sym "pattern", sym "assignment_pattern"])]),
    ("_property_name",
      .anyWord (choice [called "property_identifier" anyIdentifier, tok .privateName,
        sym "string", tok .number, sym "computed_property_name"])),
    ("computed_property_name", seq [lit "[", sym "expression", lit "]"]),
    ("_reserved_identifier",
      lits ["get", "set", "async", "await", "static", "export", "let"]),
    ("_semicolon", choice [semicolon, lit ";"])]

def tagRules : List (String × R) :=
  [("jsx_element",
      seq [.field "open_tag" (sym "jsx_opening_element"), star (sym "_jsx_child"),
        .field "close_tag" (sym "jsx_closing_element")]),
    ("jsx_expression",
      seq [lit "\x7b",
        opt (choice [sym "expression", sym "sequence_expression", sym "spread_element"]),
        lit "\x7d"]),
    ("_jsx_child",
      choice [tok .jsxText, tok .entity, sym "_jsx_element", sym "jsx_expression"]),
    ("jsx_opening_element",
      .weighted (-1) (seq [lit "<",
        opt (seq [.field "name" (sym "_jsx_element_name"),
          star (.field "attribute" (sym "_jsx_attribute"))]),
        lit ">"])),
    ("_jsx_identifier", choice [called "identifier" (tok .jsxName), identifier]),
    ("nested_identifier",
      ranked "member" (seq [
        .field "object" (choice [identifier, called "member_expression" (sym "nested_identifier")]),
        lit ".", .field "property" (called "property_identifier" identifier)])),
    ("jsx_namespace_name", seq [sym "_jsx_identifier", lit ":", sym "_jsx_identifier"]),
    ("_jsx_element_name",
      choice [sym "_jsx_identifier", called "member_expression" (sym "nested_identifier"),
        sym "jsx_namespace_name"]),
    ("jsx_closing_element",
      seq [lit "</", opt (.field "name" (sym "_jsx_element_name")), lit ">"]),
    ("jsx_self_closing_element",
      seq [lit "<", .field "name" (sym "_jsx_element_name"),
        star (.field "attribute" (sym "_jsx_attribute")), lit "/>"]),
    ("_jsx_attribute", choice [sym "jsx_attribute", sym "jsx_expression"]),
    ("_jsx_attribute_name",
      choice [called "property_identifier" (sym "_jsx_identifier"), sym "jsx_namespace_name"]),
    ("jsx_attribute",
      seq [sym "_jsx_attribute_name", opt (seq [lit "=", sym "_jsx_attribute_value"])]),
    ("_jsx_string",
      choice [
        seq [lit "\"",
          star (choice [called "string_fragment" (tok .jsxDoubleFragment), tok .entity]),
          lit "\""],
        seq [lit "'",
          star (choice [called "string_fragment" (tok .jsxSingleFragment), tok .entity]),
          lit "'"]]),
    ("_jsx_attribute_value",
      choice [called "string" (sym "_jsx_string"), sym "jsx_expression", sym "_jsx_element"]),
    ("_jsx_element", choice [sym "jsx_element", sym "jsx_self_closing_element"])]

def grammar : Grammar.RuleSet Terminal where
  rules := moduleRules ++ statementRules ++ expressionRules ++ literalRules ++ classRules ++ tagRules
  inlined := inlined
  transparent := transparent
  rankings := rankings

end Pseudonym.Language.JavaScript

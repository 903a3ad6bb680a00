import SolutionSurvey.CSharp.Grammar.Declarations

/-!
# Expressions
-/

namespace SolutionSurvey.CSharp

open SolutionSurvey.Grammar Rule

def expression : Rule := .reference "expression"

/-- The binary operators that associate to the left, with how tightly they bind. -/
def leftOperators : List (String × Int) :=
  [("&&", 5), ("||", 4), (">>", 11), (">>>", 11), ("<<", 11), ("&", 8), ("^", 7), ("|", 6),
    ("+", 12), ("-", 12), ("*", 13), ("/", 13), ("%", 13), ("<", 10), ("<=", 10), ("==", 9),
    ("!=", 9), (">=", 10), (">", 10)]

def assignmentOperators : List String :=
  ["=", "+=", "-=", "*=", "/=", "%=", "&=", "^=", "|=", "<<=", ">>=", ">>>=", "??="]

def expressionClassRules : List (String × Rule) :=
  [("expression", choice
      [.reference "non_lvalue_expression", .reference "lvalue_expression"]),
    ("non_lvalue_expression", choice
      ([.word "base"] ++
        (["binary_expression", "interpolated_string_expression", "conditional_expression",
          "conditional_access_expression", "literal", "_expression_statement_expression",
          "is_expression", "is_pattern_expression", "as_expression", "cast_expression",
          "checked_expression", "switch_expression", "throw_expression", "default_expression",
          "lambda_expression", "with_expression", "sizeof_expression", "typeof_expression",
          "makeref_expression", "ref_expression", "reftype_expression", "refvalue_expression",
          "stackalloc_expression", "range_expression", "array_creation_expression",
          "anonymous_method_expression", "anonymous_object_creation_expression",
          "implicit_array_creation_expression", "implicit_object_creation_expression",
          "implicit_stackalloc_expression", "initializer_expression",
          "query_expression", "collection_expression"].map .reference) ++
        [named "preproc_if" (.reference "preproc_if_in_expression")])),
    ("lvalue_expression", choice
      [.word "this", .reference "member_access_expression", .reference "tuple_expression",
        .reference "_simple_name", .reference "element_access_expression",
        named "element_binding_expression" (.reference "bracketed_argument_list"),
        named "prefix_unary_expression" (.reference "_pointer_indirection_expression"),
        named "parenthesized_expression" (.reference "_parenthesized_lvalue_expression")]),
    ("_expression_statement_expression", choice
      (["assignment_expression", "invocation_expression", "postfix_unary_expression",
        "prefix_unary_expression", "await_expression", "object_creation_expression",
        "parenthesized_expression"].map .reference))]

def operatorRules : List (String × Rule) :=
  [("assignment_expression", seq
      [.field "left" (.reference "lvalue_expression"),
        .field "operator" (oneOf assignmentOperators), .field "right" expression]),
    ("binary_expression", choice
      ((leftOperators.map fun (operator, tight) =>
        leftward tight (seq
          [.field "left" expression, .field "operator" (.word operator),
            .field "right" expression])) ++
        [rightward 3 (seq
          [.field "left" expression, .field "operator" (.word "??"),
            .field "right" expression])])),
    ("postfix_unary_expression", level 18 (seq [expression, oneOf ["++", "--", "!"]])),
    ("prefix_unary_expression", level 17 (seq
      [oneOf ["++", "--", "+", "-", "!", "~", "&", "^"], expression])),
    ("_pointer_indirection_expression", rightward 17 (seq
      [.word "*", .reference "lvalue_expression"])),
    ("query_expression", seq [.reference "from_clause", .reference "_query_body"]),
    ("from_clause", seq
      [.word "from", opt (.field "type" (.reference "type")), ownName, .word "in", expression]),
    ("_query_body", rightward 0 (seq
      [star (.reference "_query_clause"), .reference "_select_or_group_clause",
        opt (seq [.word "into", .reference "identifier", .reference "_query_body"])])),
    ("_query_clause", choice
      (["from_clause", "join_clause", "let_clause", "order_by_clause", "where_clause"].map
        .reference)),
    ("join_clause", seq
      [.word "join", .reference "_join_header", .reference "_join_body",
        opt (.reference "join_into_clause")]),
    ("_join_header", seq
      [opt (.field "type" (.reference "type")), .reference "identifier", .word "in",
        expression]),
    ("_join_body", seq [.word "on", expression, .word "equals", expression]),
    ("join_into_clause", seq [.word "into", .reference "identifier"]),
    ("let_clause", seq [.word "let", .reference "identifier", .word "=", expression]),
    ("order_by_clause", seq [.word "orderby", commas1 (.reference "_ordering")]),
    ("_ordering", seq [expression, opt (oneOf ["ascending", "descending"])]),
    ("where_clause", seq [.word "where", expression]),
    ("_select_or_group_clause", choice [.reference "group_clause", .reference "select_clause"]),
    ("group_clause", rightward 0 (seq [.word "group", expression, .word "by", expression])),
    ("select_clause", rightward 0 (seq [.word "select", expression])),
    ("conditional_expression", rightward 2 (seq
      [.field "condition" expression, .word "?", .field "consequence" expression, .word ":",
        .field "alternative" expression])),
    ("conditional_access_expression", rightward 2 (seq
      [.field "condition" expression, .word "?",
        choice
          [.reference "member_binding_expression",
            named "element_binding_expression" (.reference "bracketed_argument_list")]])),
    ("as_expression", level 10 (seq
      [.field "left" expression, .word "as", .field "right" (.reference "type")])),
    ("is_pattern_expression", level 10 (seq
      [.field "expression" expression, .word "is", .field "pattern" (.reference "pattern")])),
    ("is_expression", level 10 (seq
      [.field "left" expression, .word "is", .field "right" (.reference "type")])),
    ("cast_expression", level 17 (.favoured 1 (seq
      [.word "(", .field "type" (.reference "type"), .word ")", .field "value" expression]))),
    ("checked_expression", seq
      [oneOf ["checked", "unchecked"], .word "(", expression, .word ")"]),
    ("invocation_expression", level 18 (seq
      [.field "function" expression, .field "arguments" (.reference "argument_list")])),
    ("switch_expression", level 15 (seq
      [expression, .word "switch", .reference "_switch_expression_body"])),
    ("_switch_expression_body", seq
      [.word "\x7b", commas (.reference "switch_expression_arm"), opt (.word ","),
        .word "\x7d"]),
    ("switch_expression_arm", seq
      [.reference "pattern", opt (.reference "when_clause"), .word "=>", expression]),
    ("when_clause", seq [.word "when", expression]),
    ("await_expression", rightward 17 (seq [.word "await", expression])),
    ("throw_expression", seq [.word "throw", expression]),
    ("element_access_expression", level 18 (seq
      [.field "expression" expression,
        .field "subscript" (.reference "bracketed_argument_list")])),
    ("interpolated_string_expression", choice
      [seq
          [named "interpolation_start" (.lexeme "interpolation_regular_start"),
            .shownAs "\"" false (.lexeme "interpolation_start_quote"),
            star (.reference "_interpolated_string_content"),
            .shownAs "\"" false (.lexeme "interpolation_end_quote")],
        seq
          [named "interpolation_start" (.lexeme "interpolation_verbatim_start"),
            .shownAs "\"" false (.lexeme "interpolation_start_quote"),
            star (.reference "_interpolated_verbatim_string_content"),
            .shownAs "\"" false (.lexeme "interpolation_end_quote")],
        seq
          [named "interpolation_start" (.lexeme "interpolation_raw_start"),
            named "interpolation_quote" (.lexeme "interpolation_start_quote"),
            star (.reference "_interpolated_raw_string_content"),
            named "interpolation_quote" (.lexeme "interpolation_end_quote")]]),
    ("_interpolated_string_content", choice
      [named "string_content" (.lexeme "interpolation_string_content"),
        .lexeme "escape_sequence", .reference "interpolation"]),
    ("_interpolated_verbatim_string_content", choice
      [named "string_content" (.lexeme "interpolation_string_content"),
        .reference "interpolation"]),
    ("_interpolated_raw_string_content", choice
      [named "string_content" (.lexeme "interpolation_string_content"),
        .reference "interpolation"]),
    ("interpolation", seq
      [named "interpolation_brace" (.lexeme "interpolation_open_brace"), expression,
        opt (.reference "interpolation_alignment_clause"),
        opt (.reference "interpolation_format_clause"),
        named "interpolation_brace" (.lexeme "interpolation_close_brace")]),
    ("interpolation_alignment_clause", seq [.word ",", expression]),
    ("interpolation_format_clause", seq [.word ":", .lexeme "_format_text"]),
    ("member_access_expression", level 18 (seq
      [.field "expression" (choice
          [expression, .lexeme "predefined_type", .reference "_name"]),
        oneOf [".", "->"], .field "name" (.reference "_simple_name")])),
    ("member_binding_expression", seq [.word ".", .field "name" (.reference "_simple_name")]),
    ("object_creation_expression", rightward 0 (seq
      [.word "new", .field "type" (.reference "type"),
        opt (.field "arguments" (.reference "argument_list")),
        opt (.field "initializer" (.reference "initializer_expression"))])),
    ("parenthesized_expression", seq
      [.word "(", .reference "non_lvalue_expression", .word ")"]),
    ("_parenthesized_lvalue_expression", seq
      [.word "(", .reference "lvalue_expression", .word ")"]),
    ("lambda_expression", level (-1) (seq
      [.reference "_lambda_expression_init", .word "=>",
        .field "body" (choice [.reference "block", expression])])),
    ("_lambda_expression_init", level (-1) (seq
      [attributes, star (level (-1) (named "modifier" (oneOf ["static", "async"]))),
        opt (.field "type" (.reference "type")),
        .field "parameters" (.reference "_lambda_parameters")])),
    ("_lambda_parameters", level (-1) (choice
      [.reference "parameter_list", named "implicit_parameter" (.reference "identifier")])),
    ("array_creation_expression", .favoured 17 (level 17 (seq
      [.word "new", .field "type" (.reference "array_type"),
        opt (.reference "initializer_expression")]))),
    ("anonymous_method_expression", seq
      [star (level (-1) (named "modifier" (oneOf ["static", "async"]))), .word "delegate",
        opt (.field "parameters" (.reference "parameter_list")), .reference "block"]),
    ("anonymous_object_creation_expression", seq
      [.word "new", .word "\x7b", commas (.reference "_anonymous_object_member_declarator"),
        opt (.word ","), .word "\x7d"]),
    ("_anonymous_object_member_declarator", choice
      [seq [.reference "identifier", .word "=", expression], expression]),
    ("implicit_array_creation_expression", seq
      [.word "new", .word "[", star (.word ","), .word "]",
        .reference "initializer_expression"]),
    ("implicit_object_creation_expression", rightward 0 (seq
      [.word "new", .reference "argument_list", opt (.reference "initializer_expression")])),
    ("implicit_stackalloc_expression", seq
      [.word "stackalloc", .word "[", .word "]", .reference "initializer_expression"]),
    ("initializer_expression", seq
      [.word "\x7b", commas expression, opt (.word ","), .word "\x7d"]),
    ("declaration_expression", .favoured 1 (seq [.field "type" (.reference "type"), ownName])),
    ("default_expression", rightward 0 (seq
      [.word "default",
        opt (seq [.word "(", .field "type" (.reference "type"), .word ")"])])),
    ("with_expression", leftward 14 (seq
      [expression, .word "with", .word "\x7b", commas (.reference "with_initializer"),
        opt (.word ","), .word "\x7d"])),
    ("with_initializer", seq [.reference "identifier", .word "=", expression]),
    ("sizeof_expression", seq
      [.word "sizeof", .word "(", .field "type" (.reference "type"), .word ")"]),
    ("typeof_expression", seq
      [.word "typeof", .word "(", .field "type" (.reference "type"), .word ")"]),
    ("makeref_expression", seq [.word "__makeref", .word "(", expression, .word ")"]),
    ("ref_expression", seq [.word "ref", expression]),
    ("reftype_expression", seq [.word "__reftype", .word "(", expression, .word ")"]),
    ("refvalue_expression", seq
      [.word "__refvalue", .word "(", expression, .word ",",
        .field "type" (.reference "type"), .word ")"]),
    ("stackalloc_expression", leftward 0 (seq
      [.word "stackalloc", .field "type" (.reference "array_type"),
        opt (.reference "initializer_expression")])),
    ("range_expression", rightward 16 (seq [opt expression, .word "..", opt expression])),
    ("collection_expression", seq
      [.word "[", opt (seq [commas1 (.reference "collection_element"), opt (.word ",")]),
        .word "]"]),
    ("collection_element", choice
      [.reference "expression_element", .reference "spread_element"]),
    ("expression_element", level 1 expression),
    ("spread_element", level 17 (seq [.word "..", expression])),
    ("tuple_expression", seq
      [.word "(", .reference "argument",
        .repeated (seq [.word ",", .reference "argument"]), .word ")"])]

def literalRules : List (String × Rule) :=
  [("literal", choice
      [.lexeme "null_literal", .reference "character_literal", .lexeme "integer_literal",
        .lexeme "real_literal", .reference "boolean_literal", .reference "string_literal",
        .lexeme "verbatim_string_literal", .reference "raw_string_literal"]),
    ("character_literal", seq
      [.word "'", choice [.lexeme "character_literal_content", .lexeme "escape_sequence"],
        .word "'"]),
    ("string_literal", seq
      [.word "\"",
        star (choice [.reference "string_literal_content", .lexeme "escape_sequence"]),
        .word "\"", opt (.reference "string_literal_encoding")]),
    ("string_literal_content", .lexeme "_string_text"),
    ("string_literal_encoding", .lexeme "_string_encoding"),
    ("raw_string_literal", seq
      [.lexeme "raw_string_start", .lexeme "raw_string_content", .lexeme "raw_string_end",
        opt (.lexeme "_string_encoding")]),
    ("boolean_literal", oneOf ["true", "false"])]

end SolutionSurvey.CSharp

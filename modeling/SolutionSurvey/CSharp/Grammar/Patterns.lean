import SolutionSurvey.CSharp.Grammar.Declarations

/-!
# Patterns
-/

namespace SolutionSurvey.CSharp

open SolutionSurvey.Grammar Rule

def patternRules : List (String × Rule) :=
  [("pattern", choice
      ([.reference "constant_pattern", .reference "declaration_pattern", .lexeme "discard"] ++
        (["recursive_pattern", "var_pattern", "negated_pattern", "parenthesized_pattern",
          "relational_pattern", "or_pattern", "and_pattern", "list_pattern",
          "type_pattern"].map .reference))),
    ("constant_pattern", choice
      (["binary_expression", "default_expression", "interpolated_string_expression",
        "parenthesized_expression", "postfix_unary_expression", "prefix_unary_expression",
        "sizeof_expression", "tuple_expression", "typeof_expression",
        "member_access_expression", "cast_expression", "_simple_name", "literal"].map
          .reference ++ [.favoured 1 (named "invocation_expression" (.reference "_constant_call"))])),
    ("_constant_call", choice
      [seq
          [.field "function" (.reference "_simple_name"),
            .field "arguments" (named "argument_list" (.reference "_value_list"))],
        seq
          [.field "function" (choice (["member_access_expression", "invocation_expression",
              "element_access_expression"].map .reference)),
            .field "arguments" (.reference "argument_list")]]),
    ("_value_list", seq [.word "(", commas1 (named "argument" (.reference "_value")), .word ")"]),
    ("_value", level 1 (seq
      [opt (seq [ownName, .word ":"]), opt (oneOf ["ref", "out", "in"]),
        .reference "expression"])),
    ("parenthesized_pattern", seq [.word "(", .reference "pattern", .word ")"]),
    ("var_pattern", seq [.word "var", .reference "_variable_designation"]),
    ("type_pattern", rightward 0 (.field "type" (.reference "type"))),
    ("list_pattern", rightward 0 (seq
      [.word "[",
        opt (seq [commas1 (choice [.reference "pattern", .word ".."]), opt (.word ",")]),
        .word "]", opt (.reference "_variable_designation")])),
    ("recursive_pattern", choice
      [.favoured (-1) (leftward 11 (seq
          [.field "type" (.reference "type"), .reference "positional_pattern_clause",
            opt (.reference "property_pattern_clause"),
            opt (.reference "_variable_designation")])),
        leftward 11 (seq
          [.field "type" (.reference "type"),
            named "positional_pattern_clause" (.reference "_positional_pattern_clause"),
            choice
              [seq
                  [.reference "property_pattern_clause",
                    opt (.reference "_variable_designation")],
                .reference "_variable_designation"]]),
        .favoured (-2) (leftward 0 (seq
          [.reference "positional_pattern_clause",
            opt (.reference "property_pattern_clause"),
            opt (.reference "_variable_designation")])),
        leftward 0 (seq
          [opt (.field "type" (.reference "type")), .reference "property_pattern_clause",
            opt (.reference "_variable_designation")]),
        seq [.word "(", .reference "pattern", .word ")", .reference "_variable_designation"]]),
    ("positional_pattern_clause", level 1 (seq
      [.word "(",
        opt (choice
          [seq [.reference "subpattern", .word ",", commas1 (.reference "subpattern")],
            named "subpattern" (.reference "_named_subpattern")]),
        .word ")"])),
    ("_positional_pattern_clause", level 1 (seq
      [.word "(", .reference "subpattern", .word ")"])),
    ("_named_subpattern", seq [.reference "identifier", .word ":", .reference "pattern"]),
    ("property_pattern_clause", level 1 (seq
      [.word "\x7b", commas (.reference "subpattern"), opt (.word ","), .word "\x7d"])),
    ("subpattern", seq
      [opt (seq [.reference "expression", .word ":"]), .reference "pattern"]),
    ("relational_pattern", choice
      (["<", "<=", ">", ">="].map fun operator =>
        seq [.word operator, .reference "expression"])),
    ("negated_pattern", seq [.word "not", .reference "pattern"]),
    ("and_pattern", leftward 8 (seq
      [.reference "pattern", .word "and", .reference "pattern"])),
    ("or_pattern", leftward 6 (seq
      [.reference "pattern", .word "or", .reference "pattern"])),
    ("declaration_pattern", seq
      [.field "type" (.reference "type"), .reference "_variable_designation"]),
    ("_variable_designation", level 1 (choice
      [.lexeme "discard", .reference "parenthesized_variable_designation", ownName])),
    ("parenthesized_variable_designation", seq
      [.word "(", commas (.reference "_variable_designation"), .word ")"])]

end SolutionSurvey.CSharp

import SolutionSurvey.CSharp.Grammar.Declarations

/-!
# Statements
-/

namespace SolutionSurvey.CSharp

open SolutionSurvey.Grammar Rule

def parenthesised (inside : Rule) : Rule := seq [.word "(", inside, .word ")"]

def condition : Rule := parenthesised (.field "condition" (.reference "expression"))

def statementRules : List (String × Rule) :=
  [("statement", choice
      ((["block", "break_statement", "checked_statement", "continue_statement", "do_statement",
        "empty_statement", "expression_statement", "fixed_statement", "for_statement",
        "return_statement", "lock_statement", "yield_statement", "switch_statement",
        "throw_statement", "try_statement", "unsafe_statement", "using_statement",
        "foreach_statement", "goto_statement", "labeled_statement", "if_statement",
        "while_statement", "local_declaration_statement", "local_function_statement"].map
          .reference) ++ [named "preproc_if" (.reference "preproc_if_in_top_level")])),
    ("break_statement", seq [.word "break", .word ";"]),
    ("checked_statement", seq [oneOf ["checked", "unchecked"], .reference "block"]),
    ("continue_statement", seq [.word "continue", .word ";"]),
    ("do_statement", seq
      [.word "do", body "statement", .word "while", condition, .word ";"]),
    ("empty_statement", .word ";"),
    ("expression_statement", seq
      [.reference "_expression_statement_expression", .word ";"]),
    ("fixed_statement", seq
      [.word "fixed", parenthesised (.reference "variable_declaration"), .reference "statement"]),
    ("for_statement", seq
      [.word "for", .reference "_for_statement_conditions", body "statement"]),
    ("_for_statement_conditions", seq
      [.word "(",
        opt (choice [.reference "variable_declaration", commas1 (.reference "expression")]),
        .word ";", opt (.reference "expression"), .word ";",
        opt (commas1 (.reference "expression")), .word ")"]),
    ("return_statement", seq [.word "return", opt (.reference "expression"), .word ";"]),
    ("lock_statement", seq
      [.word "lock", parenthesised (.reference "expression"), .reference "statement"]),
    ("yield_statement", seq
      [.word "yield", choice [seq [.word "return", .reference "expression"], .word "break"],
        .word ";"]),
    ("switch_statement", seq
      [.word "switch",
        choice
          [parenthesised (.field "value" (.reference "expression")),
            .field "value" (.reference "tuple_expression")],
        body "switch_body"]),
    ("switch_body", seq [.word "\x7b", star (.reference "switch_section"), .word "\x7d"]),
    ("switch_section", leftward 0 (seq
      [choice
          [seq
              [.word "case",
                choice
                  [.reference "expression",
                    seq [.reference "pattern", opt (.reference "when_clause")]]],
            .word "default"],
        .word ":", star (.reference "statement")])),
    ("throw_statement", seq [.word "throw", opt (.reference "expression"), .word ";"]),
    ("try_statement", seq
      [.word "try", body "block", star (.reference "catch_clause"),
        opt (.reference "finally_clause")]),
    ("catch_clause", seq
      [.word "catch",
        star (choice [.reference "catch_declaration", .reference "catch_filter_clause"]),
        body "block"]),
    ("catch_declaration", parenthesised (seq
      [.field "type" (.reference "type"), opt ownName])),
    ("catch_filter_clause", seq [.word "when", parenthesised (.reference "expression")]),
    ("finally_clause", seq [.word "finally", .reference "block"]),
    ("unsafe_statement", seq [.word "unsafe", .reference "block"]),
    ("using_statement", seq
      [opt (.word "await"), .word "using",
        parenthesised (choice
          [named "variable_declaration" (.reference "using_variable_declaration"),
            .reference "expression"]),
        body "statement"]),
    ("foreach_statement", seq
      [.reference "_foreach_statement_initializer", body "statement"]),
    ("_foreach_statement_initializer", seq
      [opt (.word "await"), .word "foreach", .word "(",
        choice
          [seq
              [.field "type" (.reference "type"),
                .field "left" (choice [.reference "identifier", .reference "tuple_pattern"])],
            .field "left" (.reference "expression")],
        .word "in", .field "right" (.reference "expression"), .word ")"]),
    ("goto_statement", seq
      [.word "goto", opt (oneOf ["case", "default"]), opt (.reference "expression"), .word ";"]),
    ("labeled_statement", seq
      [.reference "identifier", .word ":", .reference "statement"]),
    ("if_statement", rightward 0 (seq
      [.word "if", condition, .field "consequence" (.reference "statement"),
        opt (seq [.word "else", .field "alternative" (.reference "statement")])])),
    ("while_statement", seq [.word "while", condition, body "statement"]),
    ("local_declaration_statement", seq
      [opt (.word "await"), opt (.word "using"), modifiers, .reference "variable_declaration",
        .word ";"]),
    ("local_function_statement", seq
      [.reference "_local_function_declaration", .reference "_function_body"]),
    ("_local_function_declaration", seq
      [attributes, modifiers, .field "type" (.reference "type"), ownName,
        opt (.reference "type_parameter_list"), .reference "parameter_list", constraints])]

end SolutionSurvey.CSharp

import SolutionSurvey.CSharp.Grammar.Declarations

/-!
# Preprocessing directives

Conditional directives enclose the code of all their branches; which branch would be compiled is
not decided.  The other directives may stand anywhere and carry no code.
-/

namespace SolutionSurvey.CSharp

open SolutionSurvey.Grammar Rule

def lineEnd : Rule := .lexeme "_line_end"

def directive (name : String) : Rule := .lexeme ("#" ++ name)

/-- A conditional section and its branches, for the code that may stand in one kind of place. -/
def conditional (kind : String) (level : Int) (body : Rule) : List (String × Rule) :=
  let shown (name : String) : Rule :=
    if kind == "" then .reference name else named name (.reference (name ++ kind))
  let alternative := opt (choice [shown "preproc_else", shown "preproc_elif"])
  [("preproc_if" ++ kind, Rule.level level (seq
      [directive "if", .reference "_preproc_expression", lineEnd, body, alternative,
        directive "endif"])),
    ("preproc_else" ++ kind, Rule.level level (seq [directive "else", body])),
    ("preproc_elif" ++ kind, Rule.level level (seq
      [directive "elif", .reference "_preproc_expression", lineEnd, body, alternative]))]

def conditionalRules : List (String × Rule) :=
  conditional "" 0 (star (.reference "declaration")) ++
  conditional "_in_top_level" 0 (star (choice [topLevelItem, .reference "statement"])) ++
  conditional "_in_expression" (-2) (opt (.reference "expression")) ++
  conditional "_in_enum_member_declaration" 0 (opt (.reference "enum_member_declaration")) ++
  conditional "_in_attribute_list" (-1) (opt (.reference "attribute_list"))

def conditionRules : List (String × Rule) :=
  [("_preproc_expression", choice
      [.reference "identifier", .reference "boolean_literal", .lexeme "integer_literal",
        .reference "character_literal",
        named "unary_expression" (.reference "preproc_unary_expression"),
        named "binary_expression" (.reference "preproc_binary_expression"),
        named "parenthesized_expression" (.reference "preproc_parenthesized_expression")]),
    ("preproc_parenthesized_expression",
      level 18 (seq [.word "(", .reference "_preproc_expression", .word ")"])),
    ("preproc_unary_expression", leftward 17 (seq [.word "!", .reference "_preproc_expression"])),
    ("preproc_binary_expression", choice
      ([("||", 4), ("&&", 5), ("==", 9), ("!=", 9)].map fun (operator, tight) =>
        leftward tight (seq
          [.reference "_preproc_expression", .word operator, .reference "_preproc_expression"])))]

/-- The directives that may stand anywhere. -/
def anywhereRules : List (String × Rule) :=
  [("preproc_region", seq [directive "region", opt (.lexeme "preproc_arg"), lineEnd]),
    ("preproc_endregion", seq [directive "endregion", opt (.lexeme "preproc_arg"), lineEnd]),
    ("preproc_line", seq
      [directive "line",
        choice
          [.word "default", .word "hidden",
            seq [.lexeme "integer_literal", opt (.reference "string_literal")],
            seq
              [.word "(", .lexeme "integer_literal", .word ",", .lexeme "integer_literal",
                .word ")", .word "-", .word "(", .lexeme "integer_literal", .word ",",
                .lexeme "integer_literal", .word ")", opt (.lexeme "integer_literal"),
                .reference "string_literal"]],
        lineEnd]),
    ("preproc_pragma", seq
      [directive "pragma",
        choice
          [seq
              [.word "warning", oneOf ["disable", "restore"],
                commas (choice [.reference "identifier", .lexeme "integer_literal"])],
            seq
              [.word "checksum", .reference "string_literal", .reference "string_literal",
                .reference "string_literal"]],
        lineEnd]),
    ("preproc_nullable", seq
      [directive "nullable", oneOf ["enable", "disable", "restore"],
        opt (oneOf ["annotations", "warnings"]), lineEnd]),
    ("preproc_error", seq [directive "error", .lexeme "preproc_arg", lineEnd]),
    ("preproc_warning", seq [directive "warning", .lexeme "preproc_arg", lineEnd]),
    ("preproc_define", seq [directive "define", .lexeme "preproc_arg", lineEnd]),
    ("preproc_undef", seq [directive "undef", .lexeme "preproc_arg", lineEnd])]

end SolutionSurvey.CSharp

import SolutionSurvey.Grammar.Rule

/-!
# Names and types
-/

namespace SolutionSurvey.CSharp

open SolutionSurvey.Grammar Rule

/-- The types over which a kind of type can be built. -/
def typesAmong (names : List String) : Rule :=
  choice (names.map .reference ++ [.lexeme "predefined_type"])

/-- The words that are keywords in some places and plain names in others. -/
def contextualKeywords : List String :=
  ["alias", "ascending", "by", "descending", "equals", "file", "from", "global", "group", "into",
    "join", "let", "notnull", "on", "orderby", "scoped", "select", "unmanaged", "var", "when",
    "where", "yield"]

def nameRules : List (String × Rule) :=
  [("identifier", choice [.lexeme "_identifier_token", .reference "_reserved_identifier"]),
    ("_reserved_identifier", oneOf contextualKeywords),
    ("_name", choice
      [.reference "alias_qualified_name", .reference "qualified_name",
        .reference "_simple_name"]),
    ("alias_qualified_name", seq
      [.field "alias" (.reference "identifier"), .word "::",
        .field "name" (.reference "_simple_name")]),
    ("_simple_name", choice [.reference "identifier", .reference "generic_name"]),
    ("qualified_name", level 18 (seq
      [.field "qualifier" (.reference "_name"), .word ".",
        .field "name" (.reference "_simple_name")])),
    ("generic_name", seq [.reference "identifier", .reference "type_argument_list"]),
    ("type_argument_list", seq
      [.word "<", choice [star (.word ","), commas1 (.reference "type")], .word ">"])]

def typeFormRules : List (String × Rule) :=
  [("type", typesAmong
      ["implicit_type", "array_type", "_name", "nullable_type", "pointer_type",
        "function_pointer_type", "tuple_type", "ref_type", "scoped_type"]),
    ("implicit_type", .favoured 1 (.word "var")),
    ("array_type", seq
      [.field "type" (.reference "_array_base_type"),
        .field "rank" (.reference "array_rank_specifier")]),
    ("_array_base_type", typesAmong
      ["array_type", "_name", "nullable_type", "pointer_type", "function_pointer_type",
        "tuple_type"]),
    ("array_rank_specifier", seq
      [.word "[", opt (choice
        [seq [.reference "expression", star (seq [.word ",", opt (.reference "expression")])],
          .repeated (seq [.word ",", opt (.reference "expression")])]), .word "]"]),
    ("nullable_type", seq
      [.field "type" (typesAmong ["array_type", "_name", "tuple_type"]),
        .word "?"]),
    ("pointer_type", seq [.field "type" (.reference "_pointer_base_type"), .word "*"]),
    ("_pointer_base_type", typesAmong
      ["_name", "nullable_type", "pointer_type", "function_pointer_type",
        "tuple_type"]),
    ("function_pointer_type", seq
      [.word "delegate", .word "*", opt (.reference "calling_convention"), .word "<",
        star (seq [.reference "function_pointer_parameter", .word ","]),
        .field "returns" (.reference "type"), .word ">"]),
    ("calling_convention", choice
      [.word "managed",
        seq
          [.word "unmanaged",
            opt (seq
              [.word "[",
                commas1 (choice
                  [oneOf ["Cdecl", "Stdcall", "Thiscall", "Fastcall"], .reference "identifier"]),
                .word "]"])]]),
    ("function_pointer_parameter", seq
      [opt (oneOf ["ref", "out", "in"]), .field "type" (.reference "_ref_base_type")]),
    ("ref_type", seq
      [.word "ref", opt (.word "readonly"), .field "type" (.reference "type")]),
    ("_ref_base_type", typesAmong
      ["implicit_type", "_name", "nullable_type", "array_type", "pointer_type",
        "function_pointer_type", "tuple_type"]),
    ("scoped_type", seq
      [.word "scoped", .field "type" (choice [.reference "_name", .reference "ref_type"])]),
    ("tuple_type", seq
      [.word "(", .reference "tuple_element", .word ",", commas1 (.reference "tuple_element"),
        .word ")"]),
    ("tuple_element", leftward 0 (seq
      [.field "type" (.reference "type"), opt (.field "name" (.reference "identifier"))]))]

end SolutionSurvey.CSharp

import SolutionSurvey.Grammar.Rule

/-!
# Declarations

Compilation units, namespaces, types and their members.
-/

namespace SolutionSurvey.CSharp

open SolutionSurvey.Grammar Rule

def attributes : Rule := star (.reference "_attribute_list")

def modifierWords : List String :=
  ["abstract", "async", "const", "extern", "file", "fixed", "internal", "new", "override",
    "partial", "private", "protected", "public", "readonly", "required", "sealed", "static",
    "unsafe", "virtual", "volatile"]

def modifiers : Rule := star (.reference "modifier")

def ownName : Rule := .field "name" (.reference "identifier")

def constraints : Rule := star (.reference "type_parameter_constraints_clause")

/-- An item of a file other than a statement. -/
def topLevelItem : Rule := choice
  [.reference "extern_alias_directive", .reference "using_directive",
    .reference "global_attribute",
    named "preproc_if" (.reference "preproc_if_in_top_level"),
    .reference "namespace_declaration", .reference "type_declaration",
    .reference "file_scoped_namespace_declaration"]

def fileRules : List (String × Rule) :=
  [("compilation_unit", seq
      [opt (.lexeme "shebang_directive"), star (.reference "_top_level_item")]),
    ("_top_level_item", level 2 (choice [topLevelItem, .reference "global_statement"])),
    ("global_statement", level 1 (.reference "statement")),
    ("extern_alias_directive", seq [.word "extern", .word "alias", ownName, .word ";"]),
    ("using_directive", seq
      [opt (.word "global"), .word "using",
        choice
          [seq [opt (.word "unsafe"), ownName, .word "=", .reference "type"],
            seq [star (oneOf ["static", "unsafe"]), .reference "_name"]],
        .word ";"]),
    ("global_attribute", seq
      [.word "[", oneOf ["assembly", "module"], .word ":", commas1 (.reference "attribute"),
        opt (.word ","), .word "]"])]

def attributeRules : List (String × Rule) :=
  [("attribute", seq
      [.field "name" (.reference "_name"), opt (.reference "attribute_argument_list")]),
    ("attribute_argument_list", level (-1) (seq
      [.word "(", commas (.reference "attribute_argument"), .word ")"])),
    ("attribute_argument", level (-1) (seq
      [opt (seq [.reference "identifier", oneOf [":", "="]]), .reference "expression"])),
    ("attribute_list", seq
      [.word "[", opt (.reference "attribute_target_specifier"),
        commas1 (.reference "attribute"), opt (.word ","), .word "]"]),
    ("_attribute_list", choice
      [.reference "attribute_list", .reference "preproc_if_in_attribute_list"]),
    ("attribute_target_specifier", seq
      [oneOf ["field", "event", "method", "param", "property", "return", "type", "typevar"],
        .word ":"])]

def typeHead (keyword : Rule) (parts : Rule) : Rule :=
  seq [attributes, modifiers, keyword, ownName, parts]

def primaryParts : Rule := seq
  [star (choice
      [.reference "type_parameter_list", .reference "parameter_list", .reference "base_list"]),
    constraints]

def body (list : String) : Rule := .field "body" (.reference list)

/-- A semicolon that may follow the closing brace of a declaration. -/
def optionalSemicolon : Rule := .lexeme "_optional_semi"

/-- The body of a type, or the semicolon of a type without one. -/
def typeBody (list : String) : Rule :=
  choice [seq [body list, optionalSemicolon], .word ";"]

def typeRules : List (String × Rule) :=
  [("namespace_declaration", seq
      [.word "namespace", .field "name" (.reference "_name"), body "declaration_list",
        optionalSemicolon]),
    ("file_scoped_namespace_declaration", seq
      [.word "namespace", .field "name" (.reference "_name"), .word ";"]),
    ("type_declaration", choice
      [.reference "class_declaration", .reference "struct_declaration",
        .reference "enum_declaration", .reference "interface_declaration",
        .reference "delegate_declaration", .reference "record_declaration"]),
    ("class_declaration", seq
      [.reference "_class_declaration_initializer", typeBody "declaration_list"]),
    ("_class_declaration_initializer",
      typeHead (.word "class") primaryParts),
    ("struct_declaration", seq
      [.reference "_struct_declaration_initializer", typeBody "declaration_list"]),
    ("_struct_declaration_initializer",
      typeHead (seq [opt (.word "ref"), .word "struct"]) primaryParts),
    ("enum_declaration", seq
      [.reference "_enum_declaration_initializer", typeBody "enum_member_declaration_list"]),
    ("_enum_declaration_initializer",
      typeHead (.word "enum") (opt (.reference "base_list"))),
    ("enum_member_declaration_list", seq
      [.word "\x7b",
        commas (choice
          [.reference "enum_member_declaration",
            named "preproc_if" (.reference "preproc_if_in_enum_member_declaration")]),
        opt (.word ","), .word "\x7d"]),
    ("enum_member_declaration", seq
      [attributes, ownName, opt (seq [.word "=", .field "value" (.reference "expression")])]),
    ("interface_declaration", seq
      [.reference "_interface_declaration_initializer", typeBody "declaration_list"]),
    ("_interface_declaration_initializer",
      typeHead (.word "interface") (seq
        [opt (.reference "type_parameter_list"), opt (.reference "base_list"), constraints])),
    ("delegate_declaration", seq [.reference "_delegate_declaration_initializer", .word ";"]),
    ("_delegate_declaration_initializer", seq
      [attributes, modifiers, .word "delegate", .field "type" (.reference "type"), ownName,
        opt (.reference "type_parameter_list"), .reference "parameter_list", constraints]),
    ("record_declaration", seq
      [.reference "_record_declaration_initializer", typeBody "declaration_list"]),
    ("_record_declaration_initializer",
      typeHead (seq [.word "record", opt (oneOf ["class", "struct"])])
        (seq
          [opt (.reference "type_parameter_list"), opt (.reference "parameter_list"),
            opt (named "base_list" (.reference "record_base")), constraints])),
    ("record_base", choice
      [seq [.word ":", commas1 (.reference "_name")],
        seq
          [.word ":", .reference "primary_constructor_base_type",
            opt (seq [.word ",", commas1 (.reference "_name")])]]),
    ("primary_constructor_base_type", seq
      [.field "type" (.reference "_name"), .reference "argument_list"]),
    ("modifier", rightward 0 (oneOf modifierWords)),
    ("type_parameter_list", seq
      [.word "<", commas1 (.reference "type_parameter"), .word ">"]),
    ("type_parameter", seq [attributes, opt (oneOf ["in", "out"]), ownName]),
    ("base_list", seq
      [.word ":", commas1 (seq [.reference "type", opt (.reference "argument_list")])]),
    ("type_parameter_constraints_clause", seq
      [.word "where", .reference "identifier", .word ":",
        commas1 (.reference "type_parameter_constraint")]),
    ("type_parameter_constraint", choice
      [seq [.word "class", opt (.word "?")], .word "struct", .word "notnull", .word "unmanaged",
        .reference "constructor_constraint", .field "type" (.reference "type")]),
    ("constructor_constraint", seq [.word "new", .word "(", .word ")"])]

def memberRules : List (String × Rule) :=
  [("operator_declaration", seq
      [attributes, modifiers, .field "type" (.reference "type"),
        opt (.reference "explicit_interface_specifier"), .word "operator", opt (.word "checked"),
        .field "operator" (oneOf
          ["!", "~", "++", "--", "true", "false", "+", "-", "*", "/", "%", "^", "|", "&", "<<",
            ">>", ">>>", "==", "!=", ">", "<", ">=", "<="]),
        .reference "parameter_list", .reference "_function_body"]),
    ("conversion_operator_declaration", seq
      [attributes, modifiers, oneOf ["implicit", "explicit"],
        star (choice
          [.reference "explicit_interface_specifier", .word "operator", .word "checked"]),
        .field "type" (.reference "type"), .reference "parameter_list",
        .reference "_function_body"]),
    ("declaration_list", seq [.word "\x7b", star (.reference "declaration"), .word "\x7d"]),
    ("declaration", choice
      (["class_declaration", "struct_declaration", "enum_declaration", "delegate_declaration",
        "field_declaration", "method_declaration", "event_declaration",
        "event_field_declaration", "record_declaration", "constructor_declaration",
        "destructor_declaration", "indexer_declaration", "interface_declaration",
        "namespace_declaration", "operator_declaration", "conversion_operator_declaration",
        "property_declaration", "using_directive", "preproc_if"].map .reference)),
    ("field_declaration", seq
      [attributes, modifiers, .reference "variable_declaration", .word ";"]),
    ("constructor_declaration", seq
      [.reference "_constructor_declaration_initializer", .reference "_function_body"]),
    ("_constructor_declaration_initializer", seq
      [attributes, modifiers, ownName, .reference "parameter_list",
        opt (.reference "constructor_initializer")]),
    ("destructor_declaration", seq
      [attributes, opt (.word "extern"), .word "~", ownName, .reference "parameter_list",
        .reference "_function_body"]),
    ("method_declaration", seq
      [attributes, modifiers, .field "returns" (.reference "type"),
        opt (.reference "explicit_interface_specifier"), ownName,
        opt (.reference "type_parameter_list"), .reference "parameter_list", constraints,
        .reference "_function_body"]),
    ("event_declaration", seq
      [attributes, modifiers, .word "event", .field "type" (.reference "type"),
        opt (.reference "explicit_interface_specifier"), ownName,
        choice [.reference "accessor_list", .word ";"]]),
    ("event_field_declaration", .favoured 1 (seq
      [attributes, modifiers, .word "event", .reference "variable_declaration", .word ";"])),
    ("accessor_list", seq
      [.word "\x7b", star (.reference "accessor_declaration"), .word "\x7d"]),
    ("accessor_declaration", seq
      [attributes, modifiers,
        .field "name" (choice
          [oneOf ["get", "set", "add", "remove", "init"], .reference "identifier"]),
        .reference "_function_body"]),
    ("indexer_declaration", seq
      [attributes, modifiers, .field "type" (.reference "type"),
        opt (.reference "explicit_interface_specifier"), .word "this",
        .reference "bracketed_parameter_list",
        choice
          [.reference "accessor_list",
            seq [.reference "arrow_expression_clause", .word ";"]]]),
    ("bracketed_parameter_list", seq
      [.word "[", opt (.reference "_formal_parameter_list"), .word "]"]),
    ("property_declaration", seq
      [attributes, modifiers, .field "type" (.reference "type"),
        opt (.reference "explicit_interface_specifier"), ownName,
        choice
          [seq
              [.reference "accessor_list",
                opt (seq [.word "=", .reference "expression", .word ";"])],
            seq [.reference "arrow_expression_clause", .word ";"]]]),
    ("explicit_interface_specifier", level 18 (seq [.reference "_name", .word "."])),
    ("parameter_list", seq
      [.word "(", opt (.reference "_formal_parameter_list"), .word ")"]),
    ("_formal_parameter_list",
      commas1 (choice [.reference "parameter", .reference "_parameter_array"])),
    ("parameter", seq
      [attributes,
        opt (seq
          [star (leftward 0 (named "modifier"
              (oneOf ["this", "scoped", "ref", "out", "in", "readonly"]))),
            .field "type" (.reference "type")]),
        ownName, opt (seq [.word "=", .reference "expression"])]),
    ("_parameter_array", seq
      [attributes, .word "params", .field "type" (.reference "type"), ownName]),
    ("constructor_initializer", seq
      [.word ":", oneOf ["base", "this"], .reference "argument_list"]),
    ("argument_list", seq [.word "(", commas (.reference "argument"), .word ")"]),
    ("tuple_pattern", seq
      [.word "(",
        commas1 (choice [ownName, .lexeme "discard", .reference "tuple_pattern"]), .word ")"]),
    ("argument", level 1 (seq
      [opt (seq [ownName, .word ":"]), opt (oneOf ["ref", "out", "in"]),
        choice [.reference "expression", .reference "declaration_expression"]])),
    ("block", seq [.word "\x7b", star (.reference "statement"), .word "\x7d"]),
    ("arrow_expression_clause", seq [.word "=>", .reference "expression"]),
    ("_function_body", choice
      [body "block", seq [body "arrow_expression_clause", .word ";"], .word ";"]),
    ("variable_declaration", seq
      [.field "type" (.reference "type"), commas1 (.reference "variable_declarator")]),
    ("using_variable_declaration", seq
      [.field "type" (.reference "type"),
        commas1 (named "variable_declarator" (.reference "using_variable_declarator"))]),
    ("variable_declarator", seq
      [choice [ownName, .reference "tuple_pattern"], opt (.reference "bracketed_argument_list"),
        opt (seq [.word "=", .reference "expression"])]),
    ("using_variable_declarator", seq
      [ownName, opt (seq [.word "=", .reference "expression"])]),
    ("bracketed_argument_list", seq
      [.word "[", commas1 (.reference "argument"), opt (.word ","), .word "]"])]

end SolutionSurvey.CSharp

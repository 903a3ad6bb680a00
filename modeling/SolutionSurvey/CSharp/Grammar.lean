import SolutionSurvey.CSharp.Grammar.Declarations
import SolutionSurvey.CSharp.Grammar.Expressions
import SolutionSurvey.CSharp.Grammar.Patterns
import SolutionSurvey.CSharp.Grammar.Preprocessing
import SolutionSurvey.CSharp.Grammar.Statements
import SolutionSurvey.CSharp.Grammar.Types
import SolutionSurvey.Grammar.Tables

/-!
# The grammar of C#
-/

namespace SolutionSurvey.CSharp

open SolutionSurvey.Grammar

/-- The tokens of strings whose reading depends on what began them. -/
def contextualLexemes : List String :=
  ["_optional_semi", "interpolation_regular_start", "interpolation_verbatim_start",
    "interpolation_raw_start", "interpolation_start_quote", "interpolation_end_quote",
    "interpolation_open_brace", "interpolation_close_brace", "interpolation_string_content",
    "raw_string_start", "raw_string_end", "raw_string_content"]

def grammar : Definition :=
  { rules :=
      fileRules ++ attributeRules ++ typeRules ++ memberRules ++ nameRules ++ typeFormRules ++
        statementRules ++ patternRules ++ expressionClassRules ++ operatorRules ++ literalRules ++
        conditionalRules ++ conditionRules ++ anywhereRules
    categories :=
      ["declaration", "expression", "non_lvalue_expression", "lvalue_expression", "literal",
        "statement", "type", "type_declaration", "pattern"]
    anywhere := anywhereRules.map (·.1)
    anywhereLexemes := ["comment"]
    keywordLexeme := "_identifier_token"
    keywordClasses := ["predefined_type", "discard", "null_literal", "_string_encoding"]
    contextual := contextualLexemes
    orderings :=
      [["_anonymous_object_member_declarator", "_simple_name"],
        ["block", "initializer_expression"]] }

def tables : Tables := Tables.ofDefinition grammar

end SolutionSurvey.CSharp

/-!
# Grammar rules

A rule describes the children that a node of a syntax tree may have.  Rules are built from words
(tokens given by their spelling), lexemes (tokens given by a class of spellings) and references to
other rules.  How tightly an alternative binds, to which side it associates and how strongly it is
favoured among several readings are part of the rule.
-/

namespace SolutionSurvey.Grammar

inductive Side where
  | left
  | right
  deriving DecidableEq, BEq, Hashable, Repr, Inhabited

inductive Rule where
  /-- No children at all. -/
  | empty
  /-- A token with a fixed spelling. -/
  | word (spelling : String)
  /-- A token of a named lexical class. -/
  | lexeme (name : String)
  /-- The rule of the given name. -/
  | reference (name : String)
  | sequence (first second : Rule)
  | either (first second : Rule)
  /-- One or more repetitions. -/
  | repeated (body : Rule)
  /-- How tightly the body binds, and to which side. -/
  | binding (level : Int) (side : Option Side) (body : Rule)
  /-- How strongly the body is favoured when a text has several readings. -/
  | favoured (weight : Int) (body : Rule)
  /-- The body is shown in the tree under another name, as a named node or as a bare token. -/
  | shownAs (name : String) (named : Bool) (body : Rule)
  /-- The body can be asked for by a field of its parent. -/
  | field (name : String) (body : Rule)
  deriving BEq, Hashable, Repr, Inhabited

namespace Rule

def seq : List Rule → Rule
  | [] => .empty
  | [rule] => rule
  | rule :: rest => .sequence rule (seq rest)

def choice : List Rule → Rule
  | [] => .empty
  | [rule] => rule
  | rule :: rest => .either rule (choice rest)

def opt (body : Rule) : Rule := .either body .empty

def star (body : Rule) : Rule := .either (.repeated body) .empty

def oneOf (spellings : List String) : Rule := choice (spellings.map .word)

/-- One or more bodies with a separator between them. -/
def separated1 (separator : String) (body : Rule) : Rule :=
  seq [body, star (seq [.word separator, body])]

def commas1 (body : Rule) : Rule := separated1 "," body

def commas (body : Rule) : Rule := opt (commas1 body)

def level (level : Int) (body : Rule) : Rule := .binding level none body

def leftward (level : Int) (body : Rule) : Rule := .binding level (some .left) body

def rightward (level : Int) (body : Rule) : Rule := .binding level (some .right) body

def named (name : String) (body : Rule) : Rule := .shownAs name true body

end Rule

/-- A grammar: its rules in order, the first being the start.  Names that begin with an underscore
and the names listed as categories do not appear in trees. -/
structure Definition where
  rules : List (String × Rule)
  /-- Rules that only group others and are not shown. -/
  categories : List String
  /-- Rules whose nodes may stand anywhere. -/
  anywhere : List String
  /-- Lexemes that may stand anywhere. -/
  anywhereLexemes : List String
  /-- The lexeme from which keywords are told apart. -/
  keywordLexeme : String
  /-- Lexemes that count as keywords besides the words spelled like one. -/
  keywordClasses : List String
  /-- Lexemes that are read with the help of the reading state. -/
  contextual : List String
  /-- Rules listed from the tightest to the loosest, where no level decides. -/
  orderings : List (List String)

end SolutionSurvey.Grammar

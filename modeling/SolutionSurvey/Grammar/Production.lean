import SolutionSurvey.Grammar.Rule
import Std.Data.HashMap

/-!
# Productions

A rule with choices and repetitions is spelled out as a list of productions, each a plain row of
symbols.  A repetition gets a symbol of its own, which derives either one body or two repetitions.
-/

namespace SolutionSurvey.Grammar

structure Step where
  symbol : Nat
  /-- How tightly the production binds once it has been read up to here. -/
  level : Int
  side : Option Side
  /-- The name under which the child is shown, and whether it is a named node. -/
  shownAs : Option (String × Bool)
  field : Option String
  deriving BEq, Hashable, Repr, Inhabited

structure Production where
  head : Nat
  steps : Array Step
  weight : Int
  deriving BEq, Repr, Inhabited

/-- A terminal: its name in the tree and how it is shown there. -/
structure Terminal where
  name : String
  visible : Bool
  named : Bool
  /-- The terminal has a fixed spelling. -/
  fixed : Bool
  deriving BEq, Repr, Inhabited

structure Head where
  name : String
  visible : Bool
  /-- The nonterminal stands for a repetition. -/
  repeats : Bool
  deriving BEq, Repr, Inhabited

/-- Numbers for the symbols of a grammar: terminals first, number zero being the end of the text,
then nonterminals. -/
structure Numbering where
  terminals : Array Terminal
  heads : Array Head
  words : Std.HashMap String Nat
  lexemes : Std.HashMap String Nat
  rules : Std.HashMap String Nat
  repetitions : Std.HashMap Rule Nat
  /-- The bodies of the repetitions, in the order of their numbers. -/
  bodies : Array Rule

namespace Numbering

def isHidden (name : String) : Bool := name.startsWith "_"

/-- Lexemes named after their spelling are shown as bare tokens. -/
def isBare (name : String) : Bool := name.startsWith "#"

def addWord (numbering : Numbering) (spelling : String) : Numbering :=
  if numbering.words.contains spelling then numbering
  else
    { numbering with
      terminals := numbering.terminals.push ⟨spelling, true, false, true⟩
      words := numbering.words.insert spelling numbering.terminals.size }

def addLexeme (numbering : Numbering) (name : String) : Numbering :=
  if numbering.lexemes.contains name then numbering
  else
    { numbering with
      terminals := numbering.terminals.push
        ⟨name, !isHidden name, !isHidden name && !isBare name, false⟩
      lexemes := numbering.lexemes.insert name numbering.terminals.size }

/-- Number the tokens of a rule, from left to right; contextual lexemes are left for later. -/
def addTokens (contextual : List String) (numbering : Numbering) : Rule → Numbering
  | .empty => numbering
  | .word spelling => numbering.addWord spelling
  | .lexeme name => if contextual.contains name then numbering else numbering.addLexeme name
  | .reference _ => numbering
  | .sequence first second => addTokens contextual (addTokens contextual numbering first) second
  | .either first second => addTokens contextual (addTokens contextual numbering first) second
  | .repeated body => addTokens contextual numbering body
  | .binding _ _ body => addTokens contextual numbering body
  | .favoured _ body => addTokens contextual numbering body
  | .shownAs _ _ body => addTokens contextual numbering body
  | .field _ body => addTokens contextual numbering body

/-- Number the repetitions of a rule, inner ones first; equal bodies share a number. -/
def addRepetitions (numbering : Numbering) : Rule → Numbering
  | .sequence first second => addRepetitions (addRepetitions numbering first) second
  | .either first second => addRepetitions (addRepetitions numbering first) second
  | .repeated body =>
      let numbering := addRepetitions numbering body
      if numbering.repetitions.contains body then numbering
      else
        { numbering with
          heads := numbering.heads.push ⟨"_repetition", false, true⟩
          repetitions := numbering.repetitions.insert body numbering.heads.size
          bodies := numbering.bodies.push body }
  | .binding _ _ body => addRepetitions numbering body
  | .favoured _ body => addRepetitions numbering body
  | .shownAs _ _ body => addRepetitions numbering body
  | .field _ body => addRepetitions numbering body
  | _ => numbering

def addRule (categories : List String) (numbering : Numbering) (name : String) : Numbering :=
  { numbering with
    heads := numbering.heads.push ⟨name, !isHidden name && !categories.contains name, false⟩
    rules := numbering.rules.insert name numbering.heads.size }

def endOfText : Terminal := ⟨"end", false, false, false⟩

def ofDefinition (definition : Definition) : Numbering :=
  let bare : Numbering :=
    { terminals := #[endOfText], heads := #[], words := ∅, lexemes := ∅, rules := ∅,
      repetitions := ∅, bodies := #[] }
  let rules := definition.rules.map (·.2)
  let tokens := rules.foldl (addTokens definition.contextual) (bare.addLexeme definition.keywordLexeme)
  let tokens := definition.anywhereLexemes.foldl addLexeme tokens
  let tokens := definition.contextual.foldl addLexeme tokens
  let named := definition.rules.foldl (fun numbering rule =>
    addRule definition.categories numbering rule.1) tokens
  rules.foldl addRepetitions named

/-- The symbol of a nonterminal, given its place among the nonterminals. -/
def symbolOfHead (numbering : Numbering) (head : Nat) : Nat := numbering.terminals.size + head

end Numbering

/-- What encloses a part of a rule while it is spelled out. -/
structure Enclosing where
  level : Int
  side : Option Side
  shownAs : Option (String × Bool)
  field : Option String

/-- A row of steps and the weight by which its reading is favoured. -/
abbrev Row := List Step × Int

def strongerWeight (outer inner : Int) : Int := if inner.natAbs > outer.natAbs then inner else outer

/-- Give the last step the binding of what encloses the row. -/
def rebindLast (level : Option Int) (side : Option (Option Side)) : List Step → List Step
  | [] => []
  | [step] => [{ step with level := level.getD step.level, side := side.getD step.side }]
  | step :: rest => step :: rebindLast level side rest

/-- All rows that a rule stands for.  A part that binds on its own but does not end the row hands
its last step back to what encloses it. -/
def Rule.rows (numbering : Numbering) (enclosing : Enclosing) (atEnd : Bool) : Rule → List Row
  | .empty => [([], 0)]
  | .word spelling => [([step (numbering.words.getD spelling 0)], 0)]
  | .lexeme name => [([step (numbering.lexemes.getD name 0)], 0)]
  | .reference name => [([step (numbering.symbolOfHead (numbering.rules.getD name 0))], 0)]
  | .repeated body =>
      [([step (numbering.symbolOfHead (numbering.repetitions.getD body 0))], 0)]
  | .sequence first second =>
      let heads := first.rows numbering enclosing false
      let tails := second.rows numbering enclosing atEnd
      heads.flatMap fun head => tails.map fun tail =>
        (head.1 ++ tail.1, strongerWeight head.2 tail.2)
  | .either first second =>
      first.rows numbering enclosing atEnd ++ second.rows numbering enclosing atEnd
  | .binding level side body =>
      let inner := { enclosing with level, side := side.or enclosing.side }
      (body.rows numbering inner atEnd).map fun row =>
        if atEnd then row
        else
          (rebindLast (some enclosing.level) (side.map fun _ => enclosing.side) row.1, row.2)
  | .favoured weight body =>
      (body.rows numbering enclosing atEnd).map fun row => (row.1, strongerWeight weight row.2)
  | .shownAs name named body =>
      body.rows numbering { enclosing with shownAs := some (name, named) } atEnd
  | .field name body => body.rows numbering { enclosing with field := some name } atEnd
where
  step (symbol : Nat) : Step :=
    ⟨symbol, enclosing.level, enclosing.side, enclosing.shownAs, enclosing.field⟩

def Enclosing.none : Enclosing := ⟨0, .none, .none, .none⟩

def Rule.productions (numbering : Numbering) (head : Nat) (rule : Rule) : Array Production :=
  (rule.rows numbering .none true).foldl (fun found row =>
    let production : Production := ⟨head, row.1.toArray, row.2⟩
    if found.contains production then found else found.push production) #[]

/-- The productions of a repetition: two repetitions, or one body. -/
def repetitionProductions (numbering : Numbering) (head : Nat) (body : Rule) : Array Production :=
  let self : Step := ⟨numbering.symbolOfHead head, 0, none, none, none⟩
  #[⟨head, #[self, self], 0⟩] ++ body.productions numbering head

end SolutionSurvey.Grammar

import SolutionSurvey.Grammar.Tables

/-!
# Terminals that are taken for one another

A reader looks for the terminals it expects and takes the longest.  Where one more terminal is
looked for, another may therefore no longer be found: because text that belongs to it now belongs
to the new one, or because its spelling goes on as the new one's does.
-/

namespace SolutionSurvey.Grammar

/-- How the terminals of a grammar are spelled. -/
structure Spelling where
  /-- The spellings of each terminal that has finitely many. -/
  spellings : Array (List String)
  /-- The lexeme of plain words, from which keywords are told apart. -/
  word : Nat
  beginsWord : Char → Bool
  keywords : TokenSet
  /-- Lexemes that almost any text belongs to. -/
  loose : TokenSet
  /-- Lexemes that are read with the help of the reading state. -/
  contextual : TokenSet

namespace Spelling

def spelled (spelling : Spelling) (token : Nat) : List (List Char) :=
  (spelling.spellings.getD token []).map String.toList

def begins (spelling : Spelling) (c : Char) (token : Nat) : Bool :=
  (spelling.spelled token).any (·.head? == some c) ||
    (token == spelling.word && spelling.beginsWord c) || spelling.loose.contains token

def neighbours (tables : Tables) : Array TokenSet :=
  let last := Tables.edgeSets tables.numbering tables.productions Array.back?
  let terminals := List.range tables.numbering.terminals.size
  tables.productions.foldl (fun found production =>
    (production.steps.toList.zip production.steps.toList.tail).foldl (fun found (step, next) =>
      let before := last.getD step.symbol .empty
      let after := tables.first.getD next.symbol .empty
      terminals.foldl (fun found token =>
        if before.contains token then found.modify token (·.union after) else found) found) found)
    (Array.replicate tables.numbering.terminals.size TokenSet.empty)

/-- A longer spelling takes in a shorter one if what it goes on with could also come after the
shorter one. -/
def takesIn (spelling : Spelling) (terminals : List Nat) (after : TokenSet)
    (longer shorter : List Char) : Bool :=
  shorter.isPrefixOf longer &&
    match longer.drop shorter.length with
    | [] => true
    | c :: _ => terminals.any fun token => after.contains token && spelling.begins c token

/-- Whether one terminal may no longer be found where another is looked for too. -/
def hides (spelling : Spelling) (terminals : List Nat) (after : TokenSet) (token hidden : Nat) :
    Bool :=
  token != hidden && hidden != 0 &&
    if token == 0 then hidden == spelling.word
    else if token == spelling.word && spelling.keywords.contains hidden then false
    else if hidden == spelling.word && spelling.keywords.contains token then false
    else
      spelling.loose.contains token || spelling.loose.contains hidden ||
        (spelling.spelled token).any fun longer =>
          (spelling.spelled hidden).any fun shorter => spelling.takesIn terminals after longer shorter

/-- For each terminal those that it would hide. -/
def hiddenBy (spelling : Spelling) (tables : Tables) : Array TokenSet :=
  let after := neighbours tables
  let terminals := (List.range tables.numbering.terminals.size).filter fun token =>
    !spelling.contextual.contains token
  Array.ofFn fun token : Fin tables.numbering.terminals.size =>
    TokenSet.ofList (terminals.filter fun hidden =>
      spelling.hides terminals (after.getD hidden .empty) token hidden)

end Spelling

end SolutionSurvey.Grammar

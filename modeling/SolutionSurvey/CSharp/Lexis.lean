import SolutionSurvey.CSharp.ContextualTokens
import SolutionSurvey.CSharp.Grammar
import SolutionSurvey.Node.OfReading

/-!
# The tokens of C#

Of the tokens wanted at a place the longest is read.  The text of strings comes before everything
else, so that what looks like a comment there is not one, and the text of directives after it.
-/

namespace SolutionSurvey.CSharp

open SolutionSurvey.Grammar SolutionSurvey.Reading

def lexeme (name : String) : Nat := tables.numbering.lexemes.getD name 0

def contextualTokens : ContextualTokens :=
  { optionalSemicolon := lexeme "_optional_semi"
    regularStart := lexeme "interpolation_regular_start"
    verbatimStart := lexeme "interpolation_verbatim_start"
    rawStart := lexeme "interpolation_raw_start"
    startQuote := lexeme "interpolation_start_quote"
    endQuote := lexeme "interpolation_end_quote"
    openBrace := lexeme "interpolation_open_brace"
    closeBrace := lexeme "interpolation_close_brace"
    text := lexeme "interpolation_string_content"
    rawStringStart := lexeme "raw_string_start"
    rawStringEnd := lexeme "raw_string_end"
    rawStringText := lexeme "raw_string_content" }

def wordToken : Nat := lexeme grammar.keywordLexeme

def isWordSpelling (spelling : String) : Bool :=
  Lexeme.word spelling.toList == some spelling.length

def predefinedTypes : List String :=
  ["bool", "byte", "char", "decimal", "double", "float", "int", "long", "object", "sbyte",
    "short", "string", "uint", "ulong", "ushort", "nint", "nuint", "void"]

def keywords : Std.HashMap String Nat :=
  let words := tables.numbering.words.fold (fun found spelling token =>
    if isWordSpelling spelling then found.insert spelling token else found)
    (∅ : Std.HashMap String Nat)
  let types := predefinedTypes.foldl (fun found spelling =>
    found.insert spelling (lexeme "predefined_type")) words
  let encoding := lexeme "_string_encoding"
  (((types.insert "_" (lexeme "discard")).insert "null" (lexeme "null_literal")).insert "u8"
    encoding).insert "U8" encoding

def wordTokens : TokenSet :=
  keywords.fold (fun set _ token => set.insert token) (TokenSet.singleton wordToken)

/-- Signs by the code of their first character, longer ones first. -/
def signs : Std.HashMap Nat (List (List Char × Nat)) :=
  let all := tables.numbering.words.fold (fun (found : Std.HashMap Nat (List (List Char × Nat)))
      spelling token =>
    match spelling.toList with
    | [] => found
    | c :: rest =>
        if isWordSpelling spelling then found
        else found.insert c.toNat ((c :: rest, token) :: found.getD c.toNat [])) ∅
  all.map fun _ group => group.mergeSort fun left right => right.1.length ≤ left.1.length

def directiveNames : List String :=
  ["if", "elif", "else", "endif", "region", "endregion", "line", "pragma", "nullable", "error",
    "warning", "define", "undef"]

def directives : List (String × Nat) := directiveNames.map fun name => (name, lexeme ("#" ++ name))

/-- Lexical classes with their tokens, read at the first character that is not blank. -/
def classes : List (Nat × (List Char → Option Nat)) :=
  [(lexeme "integer_literal", Lexeme.integer), (lexeme "real_literal", Lexeme.real),
    (lexeme "verbatim_string_literal", Lexeme.verbatimString),
    (lexeme "escape_sequence", Lexeme.escapeSequence)]

def commentToken : Nat := lexeme "comment"
def lineEndToken : Nat := lexeme "_line_end"
def stringTextToken : Nat := lexeme "_string_text"
def characterToken : Nat := lexeme "character_literal_content"
def formatToken : Nat := lexeme "_format_text"
def directiveTextToken : Nat := lexeme "preproc_arg"
def shebangToken : Nat := lexeme "shebang_directive"

abbrev Candidate := Nat × Nat

/-- The longer of two candidates, the earlier one when they tie. -/
def longer (best : Option Candidate) (candidate : Option Candidate) : Option Candidate :=
  match best, candidate with
  | none, other => other
  | some best, none => some best
  | some best, some other => if best.2 < other.2 then some other else some best

def candidateOf (wanted : TokenSet) (text : List Char) (entry : Nat × (List Char → Option Nat)) :
    Option Candidate :=
  if wanted.contains entry.1 then (entry.2 text).map fun length => (entry.1, length) else none

def signAt (wanted : TokenSet) (text : List Char) : Option Candidate :=
  match text with
  | [] => none
  | c :: _ =>
      ((signs.getD c.toNat []).find? fun sign =>
        wanted.contains sign.2 && sign.1.isPrefixOf text).map fun sign => (sign.2, sign.1.length)

def directiveAt (wanted : TokenSet) (text : List Char) : Option Candidate :=
  match text with
  | '#' :: _ =>
      directives.foldl (fun best (name, token) =>
        longer best (candidateOf wanted text (token, Lexeme.directiveHead name)))
        (candidateOf wanted text (shebangToken, Lexeme.shebang))
  | _ => none

def wordAt (wanted : TokenSet) (text : List Char) : Option Candidate :=
  if wanted.meets wordTokens then (Lexeme.word text).map fun length => (wordToken, length)
  else none

/-- The longest token at the first character that is not blank.  The text of a directive gives way
to any other token. -/
def longestAt (wanted : TokenSet) (text : List Char) : Option Candidate :=
  let comment := (Lexeme.comment text).map fun length => (commentToken, length)
  let best := longer comment (signAt wanted text)
  let best := longer best (wordAt wanted text)
  let best := longer best (directiveAt wanted text)
  let best := classes.foldl (fun best entry => longer best (candidateOf wanted text entry)) best
  best.or (candidateOf wanted text (directiveTextToken, Lexeme.directiveText))

def skipBlanks (place : Position) : Position := place.skipWhile Lexeme.isSeparator

def readSpaced (wanted : TokenSet) (place : Position) : Option Scanned :=
  let inLine := place.skipWhile fun c => Lexeme.isSeparator c && c != '\n'
  if wanted.contains lineEndToken && inLine.peek == some '\n' then
    some ⟨lineEndToken, inLine, inLine.step, none⟩
  else
    let spaced := skipBlanks place
    let start := if wanted.contains directiveTextToken then place.skipWhile Lexeme.isPlainBlank
      else spaced
    if spaced.atEnd then some ⟨0, spaced, spaced, none⟩
    else
      (longestAt wanted start.rest).map fun candidate =>
        ⟨candidate.1, start, start.skip candidate.2, none⟩

/-- The text of a string, which comes before everything else. -/
def readStringText (wanted : TokenSet) (place : Position) : Option Scanned :=
  (candidateOf wanted place.rest (stringTextToken, Lexeme.stringText)).map fun candidate =>
    ⟨candidate.1, place, place.skip candidate.2, none⟩

/-- A token that may begin with a blank.  A blank is itself the content of a character literal;
otherwise a longer token wins. -/
def readUnspaced (wanted : TokenSet) (place : Position) : Option Scanned :=
  let content := candidateOf wanted place.rest (characterToken, Lexeme.characterContent)
  let format := candidateOf wanted place.rest (formatToken, Lexeme.formatText)
  let found := (longer content format).map fun (candidate : Candidate) =>
    (⟨candidate.1, place, place.skip candidate.2, none⟩ : Scanned)
  match found with
  | none => none
  | some scanned =>
      if content.isSome && place.peek.any Lexeme.isSeparator then some scanned
      else
        match readSpaced wanted place with
        | some other => if scanned.stop.bytes < other.stop.bytes then some other else some scanned
        | none => some scanned

def readPlain (wanted : TokenSet) (place : Position) : Option Scanned :=
  ((readStringText wanted place).or (readUnspaced wanted place)).or (readSpaced wanted place)

/-- How far a directive's first word agrees with a known one. -/
def directivePrefix (text : List Char) : Nat :=
  let blanks := Lexeme.span (fun c => c == ' ' || c == '\t') text
  let rest := text.drop blanks
  let common (name : String) : Nat :=
    ((name.toList.zip rest).takeWhile fun pair => pair.1 == pair.2).length
  blanks + (directiveNames.map common).foldl max 0

/-- How far the text is looked at when no token can be read. -/
def readUpTo (place : Position) : Position :=
  let start := skipBlanks place
  match start.rest with
  | '@' :: '"' :: rest => start.skip (2 + Lexeme.span (fun c => !Lexeme.isNull c) rest)
  | '@' :: _ => start.step
  | '#' :: rest => start.skip (1 + directivePrefix rest)
  | '\\' :: c :: rest =>
      if ['x', 'u', 'U'].contains c then start.skip (2 + Lexeme.span Lexeme.isHexDigit rest)
      else start.step
  | _ => start

def lexis : Lexis :=
  { contextual := TokenSet.ofList (contextualLexemes.map lexeme)
    readContextual := contextualTokens.read
    readPlain
    skipBlanks
    readUpTo
    word := wordToken
    keyword? := fun spelling => keywords[spelling]? }

/-- Tokens that almost any text belongs to. -/
def looseLexemes : List String :=
  ["_string_text", "character_literal_content", "_format_text", "_line_end", "preproc_arg"]

/-- The tokens that are looked for after the thread is lost. -/
def landmarks : TokenSet :=
  let unmarked := (looseLexemes ++ contextualLexemes).map lexeme
  TokenSet.ofList ((List.range tables.numbering.terminals.size).filter fun token =>
    !unmarked.contains token)

/-- The spellings of each token that has finitely many. -/
def spellings : Array (List String) :=
  (tables.numbering.words.toList ++ keywords.toList).foldl (fun found (spelling, token) =>
    found.modify token (spelling :: ·)) (Array.replicate tables.numbering.terminals.size [])

def spelling : Spelling :=
  { spellings
    word := wordToken
    beginsWord := fun c => (Lexeme.word [c]).isSome || c == '@'
    keywords := keywords.fold (fun set _ token => set.insert token) .empty
    loose := TokenSet.ofList (looseLexemes.map lexeme)
    contextual := lexis.contextual }

def automaton : Automaton := Automaton.ofTables tables spelling landmarks

def readTree (text : String) : Option Tree := read automaton lexis text

def parse : TreeReader := fun text => (readTree text).bind (Node.ofReading tables)

end SolutionSurvey.CSharp

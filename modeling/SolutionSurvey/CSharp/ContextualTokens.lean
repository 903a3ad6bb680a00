import SolutionSurvey.CSharp.Lexemes
import SolutionSurvey.Reading.Reader

/-!
# Tokens that depend on what came before

The pieces of raw and interpolated strings are told apart by how many quotes, dollar signs and
braces opened them, and the semicolon after a closing brace may be absent.
-/

namespace SolutionSurvey.CSharp

open SolutionSurvey.Grammar SolutionSurvey.Reading

structure ContextualTokens where
  optionalSemicolon : Nat
  regularStart : Nat
  verbatimStart : Nat
  rawStart : Nat
  startQuote : Nat
  endQuote : Nat
  openBrace : Nat
  closeBrace : Nat
  text : Nat
  rawStringStart : Nat
  rawStringEnd : Nat
  rawStringText : Nat

/-- Counts of quotes, dollar signs and braces are kept in eight bits. -/
def narrow (count : Nat) : Nat := count % 256

def countAt (c : Char) (place : Position) : Nat := (place.rest.takeWhile (· == c)).length

def isAt (c : Char) (place : Position) : Bool := place.peek == some c

/-- How far a piece was looked for before it turned out to be another one. -/
structure Lookout where
  place : Position
  quotes : Nat
  advanced : Bool

/-- Whether no text is left at a place; the null character ends it as well. -/
def isOver (place : Position) : Bool := place.atEnd || place.peek.any Lexeme.isNull

/-- The end of a raw string's text: before exactly as many quotes as began it. -/
def rawTextEnd (quotes : Nat) : Nat → Position → Position
  | 0, place => place
  | fuel + 1, place =>
      if isOver place then place
      else if isAt '"' place then
        let count := countAt '"' place
        if narrow count == quotes then place else rawTextEnd quotes fuel (place.skip count).step
      else rawTextEnd quotes fuel place.step

/-- The end of the text of an interpolated string, when there is any text.  Braces end it. -/
def interpolatedTextEnd (current : Interpolation) : Nat → Position → Bool → Option Position
  | 0, _, _ => none
  | fuel + 1, place, advanced =>
      let finish (stop : Position) : Option Position := if advanced then some stop else none
      let goOn (place : Position) : Option Position :=
        if isAt '{' place && advanced then finish place
        else interpolatedTextEnd current fuel place.step true
      if isOver place then finish place
      else if current.raw then
        if isAt '"' place then
          let count := countAt '"' place
          if count ≥ 2 && narrow count == current.quotes then finish place
          else goOn (place.skip count)
        else goOn place
      else if current.verbatim then
        if isAt '"' place then
          if countAt '"' place ≥ 2 then
            interpolatedTextEnd current fuel (place.skip 2) advanced
          else finish place
        else goOn place
      else if isAt '\\' place || isAt '\n' place || isAt '"' place then finish place
      else goOn place

namespace ContextualTokens

def found (token : Nat) (start stop : Position) (context : Context) : Option Scanned :=
  some ⟨token, start, stop, some context⟩

/-- The beginning of an interpolated string.  Two quotes promise neither a raw string nor text in
a plain one, and nothing is entered. -/
def readStart (tokens : ContextualTokens) (wanted : TokenSet) (context : Context)
    (lookout : Lookout) : Option Scanned :=
  if !(wanted.contains tokens.regularStart || wanted.contains tokens.verbatimStart ||
      wanted.contains tokens.rawStart) then none
  else
    let start := lookout.place.skipWhile Lexeme.isPlainBlank
    let before := isAt '@' start
    let signs := if before then start.step else start
    let signCount := if lookout.quotes == 0 then countAt '$' signs else 0
    let after := signs.skip signCount
    let dollars := narrow signCount
    if dollars == 0 || !(isAt '"' after || isAt '@' after) then none
    else
      let verbatim := before || isAt '@' after
      let stop := if isAt '@' after then after.step else after
      let quotes := countAt '"' stop
      let raw := !verbatim && quotes ≥ 3
      let token :=
        if raw then tokens.rawStart
        else if verbatim then tokens.verbatimStart else tokens.regularStart
      let entered : Context :=
        if !verbatim && quotes == 2 then context
        else { context with nesting := ⟨dollars, 0, 0, verbatim, raw⟩ :: context.nesting }
      found token start stop entered

def readStartQuote (tokens : ContextualTokens) (wanted : TokenSet) (context : Context)
    (place : Position) : Option Scanned :=
  match context.nesting with
  | [] => none
  | current :: outer =>
      if !wanted.contains tokens.startQuote then none
      else
        let count := countAt '"' place
        let count := if current.raw then count else min count 1
        let quotes := narrow (current.quotes + count)
        if quotes == 0 then none
        else
          found tokens.startQuote place (place.skip count)
            { context with nesting := { current with quotes } :: outer }

def readInside (tokens : ContextualTokens) (wanted : TokenSet) (context : Context)
    (start : Position) (lookout : Lookout) : Option Scanned :=
  match context.nesting with
  | [] => none
  | current :: outer =>
      let closes := wanted.contains tokens.endQuote
      let count := if closes then countAt '"' lookout.place else 0
      let quotes := narrow (lookout.quotes + count)
      let cursor := lookout.place.skip count
      if closes && quotes == current.quotes then
        found tokens.endQuote start cursor { context with nesting := outer }
      else
        let advanced := lookout.advanced || (closes && quotes > 0)
        let braces := countAt '{' cursor
        if wanted.contains tokens.openBrace && braces > 0 && braces == current.dollars then
          found tokens.openBrace start (cursor.skip braces)
            { context with nesting := { current with braces } :: outer }
        else if wanted.contains tokens.closeBrace then
          let closing := cursor.skipWhile Lexeme.isPlainBlank
          if current.braces > 0 && countAt '\x7d' closing ≥ current.braces then
            found tokens.closeBrace start (closing.skip current.braces)
              { context with nesting := { current with braces := 0 } :: outer }
          else none
        else if wanted.contains tokens.text then
          let cursor := cursor.skip braces
          (interpolatedTextEnd current (cursor.rest.length + 2) cursor (advanced || braces > 0)).bind
            fun stop => found tokens.text start stop context
        else none

/-- Read a contextual token.  Where every token is wanted the thread is lost and none is read. -/
def read (tokens : ContextualTokens) (wanted : TokenSet) (context : Context) (place : Position) :
    Option Scanned :=
  if wanted.contains tokens.optionalSemicolon then
    if wanted.contains tokens.regularStart then none
    else found tokens.optionalSemicolon place (if isAt ';' place then place.step else place) context
  else
    let start := if wanted.contains tokens.rawStringStart then place.skipWhile Lexeme.isPlainBlank else place
    let count := if wanted.contains tokens.rawStringStart then countAt '"' start else 0
    let quotes := narrow count
    if quotes ≥ 3 then
      found tokens.rawStringStart start (start.skip count) { context with quotes }
    else
      let cursor := start.skip count
      let closing := countAt '"' cursor
      if wanted.contains tokens.rawStringEnd && closing > 0 &&
          narrow (quotes + closing) == context.quotes then
        found tokens.rawStringEnd start (cursor.skip closing) { context with quotes := 0 }
      else if wanted.contains tokens.rawStringText then
        found tokens.rawStringText start (rawTextEnd context.quotes (cursor.rest.length + 1) cursor)
          context
      else
        let lookout : Lookout := ⟨cursor, quotes, false⟩
        (tokens.readStart wanted context lookout).or
          ((tokens.readStartQuote wanted context cursor).or
            (tokens.readInside wanted context start lookout))

end ContextualTokens

end SolutionSurvey.CSharp

import SolutionSurvey.Text.Blank
import SolutionSurvey.Text.Identifier

/-!
# The spellings of lexemes

For each lexical class a function gives the length of the longest member of the class at the
beginning of a text, or none when the text does not begin with one.  The null character ends a text
as far as lexemes go, so none of them holds it.
-/

namespace SolutionSurvey.CSharp.Lexeme

open SolutionSurvey.Text

def isPlainBlank (c : Char) : Bool := c == ' ' || ('\t' ≤ c && c ≤ '\r')

def isSeparator (c : Char) : Bool :=
  isPlainBlank c || c.toNat == 0xA0 || c.toNat == 0x3000 || c.toNat == 0xFEFF

def isNull (c : Char) : Bool := c.toNat == 0

def isHexDigit (c : Char) : Bool :=
  isAsciiDigit c || ('a' ≤ c && c ≤ 'f') || ('A' ≤ c && c ≤ 'F')

/-- The length of the longest beginning of a text whose characters are of a kind. -/
def span (kind : Char → Bool) (text : List Char) : Nat := (text.takeWhile kind).length

/-- A length of at least one. -/
def positive (length : Nat) : Option Nat := if length == 0 then none else some length

/-! ### Words -/

/-- The length of an escaped character of an identifier. -/
def escapedCharacter : List Char → Option Nat
  | '\\' :: 'u' :: rest => if (rest.take 4).length == 4 && (rest.take 4).all isHexDigit then some 6 else none
  | '\\' :: 'U' :: rest => if (rest.take 8).length == 8 && (rest.take 8).all isHexDigit then some 10 else none
  | _ => none

def wordTail : Nat → List Char → Nat
  | 0, _ => 0
  | fuel + 1, text =>
      match text with
      | [] => 0
      | c :: rest =>
          if isIdentifierContinuation c then 1 + wordTail fuel rest
          else
            match escapedCharacter text with
            | some length => length + wordTail fuel (text.drop length)
            | none => 0

def bareWord (text : List Char) : Option Nat :=
  match text with
  | [] => none
  | c :: rest =>
      if isIdentifierStart c || c == '_' then some (1 + wordTail rest.length rest)
      else (escapedCharacter text).map fun length =>
        length + wordTail text.length (text.drop length)

/-- An identifier or keyword, which an at sign may precede. -/
def word (text : List Char) : Option Nat :=
  match text with
  | '@' :: rest => (bareWord rest).map (· + 1)
  | _ => bareWord text

/-! ### Numbers -/

def digits (kind : Char → Bool) (text : List Char) : Nat :=
  let run := text.takeWhile fun c => kind c || c == '_'
  (run.reverse.dropWhile (· == '_')).length

def decimalDigits (text : List Char) : Nat :=
  match text with
  | c :: _ => if isAsciiDigit c then digits isAsciiDigit text else 0
  | [] => 0

def integerSuffix : List Char → Nat
  | a :: b :: _ =>
      let unsigned (c : Char) := c == 'u' || c == 'U'
      let long (c : Char) := c == 'l' || c == 'L'
      if (unsigned a && long b) || (long a && unsigned b) then 2
      else if unsigned a || long a then 1 else 0
  | [a] => if a == 'u' || a == 'U' || a == 'l' || a == 'L' then 1 else 0
  | [] => 0

def withSuffix (text : List Char) (length : Nat) : Option Nat :=
  (positive length).map fun length => length + integerSuffix (text.drop length)

def integer (text : List Char) : Option Nat :=
  let decimal := withSuffix text (decimalDigits text)
  match text with
  | '0' :: x :: rest =>
      let body :=
        if x == 'x' || x == 'X' then digits isHexDigit rest
        else if x == 'b' || x == 'B' then digits (fun c => c == '0' || c == '1') rest
        else 0
      if body == 0 then decimal else withSuffix text (body + 2)
  | _ => decimal

/-- An exponent; digits may end with underscores here. -/
def exponent (text : List Char) : Nat :=
  match text with
  | e :: rest =>
      if e == 'e' || e == 'E' then
        let signs :=
          match rest with
          | '+' :: _ => 1
          | '-' :: _ => 1
          | _ => 0
        match rest.drop signs with
        | c :: more =>
            if isAsciiDigit c then
              1 + signs + 1 + span (fun c => isAsciiDigit c || c == '_') more
            else 0
        | [] => 0
      else 0
  | [] => 0

def realSuffix : List Char → Nat
  | c :: _ => if ['f', 'F', 'd', 'D', 'm', 'M'].contains c then 1 else 0
  | [] => 0

def withExponent (text : List Char) (length : Nat) : Nat :=
  let length := length + exponent (text.drop length)
  length + realSuffix (text.drop length)

def real (text : List Char) : Option Nat :=
  let whole := decimalDigits text
  let fraction :=
    match text.drop whole with
    | '.' :: rest => decimalDigits rest
    | _ => 0
  if fraction > 0 then some (withExponent text (whole + 1 + fraction))
  else if whole == 0 then none
  else
    let length := withExponent text whole
    if length > whole then some length else none

/-! ### Strings and comments -/

/-- The encoding that may follow the closing quote of a string. -/
def stringEncoding : List Char → Nat
  | 'u' :: '8' :: _ => 2
  | 'U' :: '8' :: _ => 2
  | _ => 0

/-- The ends of verbatim strings: the length up to the last quote after which one could stop. -/
def verbatimTail : List Char → Nat → Option Nat → Option Nat
  | [], _, best => best
  | '"' :: '"' :: rest, length, _ => verbatimTail rest (length + 2) (some (length + 1))
  | '"' :: rest, length, _ => some (length + 1 + stringEncoding rest)
  | c :: rest, length, best => if isNull c then best else verbatimTail rest (length + 1) best

def verbatimString : List Char → Option Nat
  | '@' :: '"' :: rest => verbatimTail rest 2 none
  | _ => none

def blockCommentTail : List Char → Nat → Option Nat
  | '*' :: '/' :: _, length => some (length + 2)
  | c :: rest, length => if isNull c then none else blockCommentTail rest (length + 1)
  | [], _ => none

def comment : List Char → Option Nat
  | '/' :: '/' :: rest => some (2 + span (fun c => c != '\n' && c != '\r' && !isNull c) rest)
  | '/' :: '*' :: rest => blockCommentTail rest 2
  | _ => none

def isSimpleEscape (c : Char) : Bool := "abefnrtv'\"\\?0".toList.contains c

def escapeSequence : List Char → Option Nat
  | '\\' :: 'x' :: rest =>
      let count := ((rest.take 4).takeWhile isHexDigit).length
      if count == 0 then none else some (2 + count)
  | '\\' :: c :: rest =>
      if c == 'u' || c == 'U' then escapedCharacter ('\\' :: c :: rest)
      else if isSimpleEscape c then some 2 else none
  | _ => none

def stringText (text : List Char) : Option Nat :=
  positive (span (fun c => c != '"' && c != '\\' && c != '\n' && !isNull c) text)

def characterContent : List Char → Option Nat
  | c :: _ => if c == '\'' || c == '\\' || isNull c then none else some 1
  | [] => none

/-- The format of a hole in an interpolated string. -/
def formatText (text : List Char) : Option Nat :=
  positive (span (fun c => c != '"' && c != '\x7d' && !isNull c) text)

/-! ### Directives -/

/-- The rest of a directive's text.  A slash takes the next character along unless the two open a
block comment, and a backslash at the end of a line continues the text on the next. -/
def directiveTail : Nat → List Char → Nat
  | 0, _ => 0
  | fuel + 1, text =>
      match text with
      | '\n' :: _ => 0
      | '\\' :: '\n' :: rest => 2 + directiveTail fuel rest
      | '\\' :: '\r' :: '\n' :: rest => 3 + directiveTail fuel rest
      | '/' :: '*' :: _ => 0
      | '/' :: c :: rest => if isNull c then 0 else 2 + directiveTail fuel rest
      | ['/'] => 0
      | c :: rest => if isNull c then 0 else 1 + directiveTail fuel rest
      | [] => 0

def directiveText (text : List Char) : Option Nat :=
  match text with
  | c :: rest =>
      if isPlainBlank c || isNull c then none else some (1 + directiveTail rest.length rest)
  | [] => none

/-- The length of a directive's first word with its number sign. -/
def directiveHead (name : String) (text : List Char) : Option Nat :=
  match text with
  | '#' :: rest =>
      let blanks := span (fun c => c == ' ' || c == '\t') rest
      if name.toList.isPrefixOf (rest.drop blanks) then some (1 + blanks + name.length) else none
  | _ => none

def shebang : List Char → Option Nat
  | '#' :: '!' :: rest => some (2 + span (fun c => c != '\n' && !isNull c) rest)
  | _ => none

end SolutionSurvey.CSharp.Lexeme

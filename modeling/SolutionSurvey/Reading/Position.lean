/-!
# Positions in a text

A position carries the text that is still to be read, together with how much lies before it.
-/

namespace SolutionSurvey.Reading

/-- A place in a text, between two characters. -/
structure Position where
  /-- The characters after this place. -/
  rest : List Char
  /-- Characters before this place. -/
  offset : Nat
  /-- Bytes before this place, in UTF-8. -/
  bytes : Nat
  /-- Line feeds before this place. -/
  row : Nat
  deriving Inhabited

namespace Position

def start (text : String) : Position := ⟨text.toList, 0, 0, 0⟩

def peek (position : Position) : Option Char := position.rest.head?

/-- The place after the next character; the end of the text stays where it is. -/
def step (position : Position) : Position :=
  match position.rest with
  | [] => position
  | c :: rest =>
      ⟨rest, position.offset + 1, position.bytes + c.utf8Size,
        if c = '\n' then position.row + 1 else position.row⟩

def skip : Nat → Position → Position
  | 0, position => position
  | count + 1, position => skip count position.step

/-- Go on while the characters are of a kind. -/
def skipWhile (kind : Char → Bool) (position : Position) : Position :=
  skip (position.rest.takeWhile kind).length position

/-- The text from one place to a later one. -/
def textTo (first last : Position) : String :=
  String.ofList (first.rest.take (last.offset - first.offset))

def atEnd (position : Position) : Bool := position.rest.isEmpty

end Position

end SolutionSurvey.Reading

import SolutionSurvey.Text.Blank

/-!
# Lines

A line ends at a line feed, and a carriage return right before it belongs to the end.  The last
line need not be ended; an empty rest after the last line feed is no line.
-/

namespace SolutionSurvey.Text

/-- A line without the carriage return that belongs to its end. -/
def dropReturn (line : List Char) : List Char :=
  if line.getLast? = some '\r' then line.dropLast else line

/-- Turn the stretches between line feeds into lines. -/
def endLines : List (List Char) → List (List Char)
  | [] => []
  | [last] => if last.isEmpty then [] else [last]
  | line :: rest => dropReturn line :: endLines rest

def lines (text : String) : List String :=
  (endLines (pieces (· == '\n') text.toList)).map String.ofList

end SolutionSurvey.Text

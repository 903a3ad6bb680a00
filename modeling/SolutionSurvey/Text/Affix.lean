/-!
# Beginnings of texts
-/

namespace SolutionSurvey.Text

/-- What follows a beginning, if the text has it. -/
def after? (start text : String) : Option String :=
  if start.toList.isPrefixOf text.toList then
    some (String.ofList (text.toList.drop start.length))
  else none

/-- Skip some characters, and then a beginning as often as it is repeated. -/
def dropAllList (start : List Char) : Nat → List Char → List Char
  | _, [] => []
  | skip + 1, _ :: text => dropAllList start skip text
  | 0, c :: text =>
      if start.isPrefixOf (c :: text) then dropAllList start (start.length - 1) text
      else c :: text

/-- A text without a beginning, however often it is repeated there. -/
def dropAll (start text : String) : String :=
  String.ofList (dropAllList start.toList 0 text.toList)

/-- Skip some characters, and then leave out every occurrence of a part. -/
def withoutList (part : List Char) : Nat → List Char → List Char
  | _, [] => []
  | skip + 1, _ :: text => withoutList part skip text
  | 0, c :: text =>
      if part.isPrefixOf (c :: text) then withoutList part (part.length - 1) text
      else c :: withoutList part 0 text

/-- A text without any occurrence of a part, looked for from the left. -/
def without (part text : String) : String :=
  String.ofList (withoutList part.toList 0 text.toList)

def splitAtFirst? (c : Char) (text : String) : Option (String × String) :=
  match text.toList.dropWhile (· != c) with
  | [] => none
  | _ :: rest => some (String.ofList (text.toList.takeWhile (· != c)), String.ofList rest)

end SolutionSurvey.Text

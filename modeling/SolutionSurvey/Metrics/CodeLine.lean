import SolutionSurvey.Node.Walk
import SolutionSurvey.Text.Blank

/-!
# Code lines

A line is judged by itself: it is code if it is not blank and holds no comment.  It may also declare
the namespace of its file.
-/

namespace SolutionSurvey.CodeLine

def holdsComment (tree : Node) : Bool :=
  tree.places.any fun place => place.node.kind == "comment"

/-- Whether a text read by itself holds a comment. -/
def readsComment (read : TreeReader) (text : String) : Bool :=
  ((read text).map holdsComment).getD false

/-- Whether the opening of a block comment is in a line. -/
def hasOpening (line : String) : Bool :=
  (line.toList.zip line.toList.tail).contains ('/', '*')

/-- Whether a line holds a comment.  One that is not closed on its line shows once it is closed. -/
def isCommented (read : TreeReader) (line : String) : Bool :=
  readsComment read line || (hasOpening line && readsComment read (line ++ "*/"))

def isCode (read : TreeReader) (line : String) : Bool :=
  Text.trim line != "" && !isCommented read line

/-- The namespace that a line declares; none is named where its name is on a later line. -/
def declaredNamespace? (line : String) : Option (Option String) :=
  match Text.words line with
  | "namespace" :: rest =>
      some (match rest with
        | [] => none
        | word :: _ =>
            let name := Text.trimEndOf (fun c => c == ';' || c == '{') word
            if name == "" then none else some name)
  | _ => none

end SolutionSurvey.CodeLine

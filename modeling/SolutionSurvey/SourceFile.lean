import SolutionSurvey.Failure
import SolutionSurvey.FileTree
import SolutionSurvey.Node

/-!
# Source files

A source file is a text with its syntax tree.  A text that cannot be parsed makes no source file.
-/

namespace SolutionSurvey

structure SourceFile where
  project : String
  path : Path
  text : String
  tree : Node
  deriving Repr, Inhabited

/-- The syntax tree of a text without faults. -/
def parseWhole (read : TreeReader) (path : Path) (text : String) : Except Failure Node :=
  match read text with
  | none => .error (.unparsable path .noTree)
  | some tree =>
      if tree.damaged then .error (.unparsable path (.near (tree.faultLine?.getD 1)))
      else .ok tree

/-- How a tree is summed up for a reader. -/
def Node.summary (tree : Node) : String :=
  "SyntaxTree \x7b root: \"" ++ tree.kind ++ "\", has_errors: " ++ toString tree.damaged ++ " \x7d"

namespace SourceFile

/-- A text without the mark that may stand before its first character. -/
def withoutMark (text : String) : String :=
  match text.toList with
  | '\uFEFF' :: rest => String.ofList rest
  | _ => text

def ofText (read : TreeReader) (project : String) (path : Path) (text : String) :
    Except Failure SourceFile :=
  let text := withoutMark text
  (parseWhole read path text).map fun tree => ⟨project, path, text, tree⟩

def load (read : TreeReader) (tree : FileTree) (project : String) (path : Path) :
    Except Failure SourceFile :=
  match tree.find? path with
  | none => .error (.notFound path)
  | some ⟨.file content, _⟩ =>
      match content.text? with
      | none => .error (.unparsable path .notUnicode)
      | some text => ofText read project path text
  | some _ => .error (.access .isDirectory)

end SourceFile

end SolutionSurvey

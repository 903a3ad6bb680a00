import SolutionSurvey.Path
import SolutionSurvey.Text.Lines

/-!
# Manifests

A manifest lists projects, one on a line.  A row gives the type of the project, its name, its path
and its own key; rows of other projects than C# projects and all other lines are passed over.
-/

namespace SolutionSurvey

/-- A project that a manifest lists. -/
structure ProjectEntry where
  name : String
  /-- The project file, seen from the directory of the manifest. -/
  path : Path
  deriving DecidableEq, Repr, Inhabited

namespace Manifest

/-- Go past a fixed text. -/
def pass? (expected : List Char) (line : List Char) : Option (List Char) :=
  if expected.isPrefixOf line then some (line.drop expected.length) else none

def passBlanks (line : List Char) : List Char := line.dropWhile Text.isBlank

/-- Go past a key in braces; there is no closing brace in it. -/
def passKey? (line : List Char) : Option (List Char) :=
  match line with
  | '"' :: '{' :: rest => pass? ['}', '"'] (rest.dropWhile (· != '}'))
  | _ => none

def quoted? (line : List Char) : Option (String × List Char) :=
  match line with
  | '"' :: rest =>
      let text := rest.takeWhile (· != '"')
      match rest.dropWhile (· != '"') with
      | _ :: rest => if text.isEmpty then none else some (String.ofList text, rest)
      | [] => none
  | _ => none

/-- Go past a sign with white space around it. -/
def passSign? (sign : Char) (line : List Char) : Option (List Char) :=
  (pass? [sign] (passBlanks line)).map passBlanks

def row? (line : String) : Option (String × String) := do
  let rest ← pass? "Project(".toList (passBlanks line.toList)
  let rest ← passKey? rest
  let rest ← pass? [')'] rest
  let rest ← passSign? '=' rest
  let (name, rest) ← quoted? rest
  let rest ← passSign? ',' rest
  let (path, rest) ← quoted? rest
  let rest ← passSign? ',' rest
  let _ ← passKey? rest
  return (name, path)

def withSlashes (path : String) : String := path.map fun c => if c = '\\' then '/' else c

def entryOf? (directory : Path) (line : String) : Option ProjectEntry :=
  (row? line).bind fun (name, path) =>
    let path := withSlashes path
    if ".csproj".toList.isSuffixOf path.toList then some ⟨name, directory.join ⟨path⟩⟩ else none

def entries (text : String) (directory : Path) : List ProjectEntry :=
  (Text.lines text).filterMap (entryOf? directory)

end Manifest

end SolutionSurvey

import SolutionSurvey.Failure
import SolutionSurvey.FileTree
import SolutionSurvey.Solution.Manifest

/-!
# Solutions

A solution is opened from a manifest or from a single project file.  Every project file it names has
to be there.
-/

namespace SolutionSurvey

structure Project where
  name : String
  file : Path
  /-- The directory that holds its sources. -/
  directory : Path
  deriving DecidableEq, Repr, Inhabited

structure Solution where
  name : String
  manifest : Path
  projects : List Project
  deriving DecidableEq, Repr, Inhabited

def Project.ofFile (tree : FileTree) (name : String) (file : Path) : Except Failure Project :=
  if tree.isFile file then .ok ⟨name, file, file.parent?.getD ⟨"."⟩⟩ else .error (.notFound file)

namespace Solution

def ofManifest (tree : FileTree) (path : Path) : Except Failure Solution :=
  match tree.content? path with
  | none => .error (.notFound path)
  | some content =>
      match content.text? with
      | none => .error (.access .notUnicode)
      | some text => do
          let entries := Manifest.entries text (path.parent?.getD ⟨"."⟩)
          let projects ← entries.mapM fun entry => Project.ofFile tree entry.name entry.path
          return ⟨path.stem, path, projects⟩

def ofProject (tree : FileTree) (path : Path) : Except Failure Solution := do
  let project ← Project.ofFile tree path.stem path
  return ⟨path.stem, path, [project]⟩

/-- The solution at a path; the extension tells project files from manifests. -/
def ofPath (tree : FileTree) (path : Path) : Except Failure Solution :=
  if path.extension? == some "csproj" then ofProject tree path else ofManifest tree path

end Solution

end SolutionSurvey

import SolutionSurvey.Solution
import SolutionSurvey.Solution.Sources

/-!
# Which project owns a source file

A file may lie below the directories of several projects.  It belongs to the project whose directory
is the innermost of these; among equally deep ones the first wins.
-/

namespace SolutionSurvey.Ownership

/-- A source file and the place of its project in the solution. -/
structure Owned where
  owner : Nat
  path : Path
  deriving DecidableEq, Repr, Inhabited

def Owned.order (left right : Owned) : Ordering :=
  (compare left.owner right.owner).then (left.path.order right.path)

/-- Let a project claim a path; it gets the path if nobody has it or if its directory is deeper. -/
def claim (depthOf : Nat → Nat) (owner : Nat) (path : Path) : List Owned → List Owned
  | [] => [⟨owner, path⟩]
  | known :: rest =>
      if known.path.same path then
        (if depthOf known.owner < depthOf owner then { known with owner } else known) :: rest
      else known :: claim depthOf owner path rest

def claimAll (depthOf : Nat → Nat) (claims : List Owned) : List Owned :=
  claims.foldl (fun owned next => claim depthOf next.owner next.path owned) []

def depthIn (projects : List Project) (owner : Nat) : Nat :=
  ((projects[owner]?).map (·.directory.depth)).getD 0

/-- What each project reaches, in the order of the solution. -/
def claims (tree : FileTree) (settings : Settings) (projects : List Project) : List Owned :=
  projects.zipIdx.flatMap fun (project, owner) =>
    (Sources.collect tree settings project.directory).map fun path => ⟨owner, path⟩

/-- Every source file of a solution with its owner, in order. -/
def assign (tree : FileTree) (settings : Settings) (projects : List Project) : List Owned :=
  (claimAll (depthIn projects) (claims tree settings projects)).mergeSort fun left right =>
    (left.order right).isLE

end SolutionSurvey.Ownership

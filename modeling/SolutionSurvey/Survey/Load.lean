import SolutionSurvey.Solution.Ownership
import SolutionSurvey.SourceFile

/-!
# Loading the sources of a solution

Every source file is read and parsed once.  Files that cannot be parsed are left out or make the
survey fail, as the settings say; any other failure makes it fail.
-/

namespace SolutionSurvey

structure Stretch where
  start : Nat
  count : Nat
  deriving DecidableEq, Repr, Inhabited

/-- The files of a solution, those of one project next to each other. -/
structure LoadedSources where
  files : List SourceFile
  /-- The stretch of each project, in the order of the solution. -/
  stretches : List Stretch
  skipped : List String
  deriving Repr, Inhabited

namespace LoadedSources

def filesOf (sources : LoadedSources) (stretch : Stretch) : List SourceFile :=
  (sources.files.drop stretch.start).take stretch.count

inductive Outcome where
  | loaded (owner : Nat) (file : SourceFile)
  | skipped (path : Path)
  | failed (cause : Failure)
  deriving Repr, Inhabited

namespace Outcome

def file? : Outcome → Option (Nat × SourceFile)
  | loaded owner file => some (owner, file)
  | _ => none

def skipped? : Outcome → Option String
  | skipped path => some path.text
  | _ => none

def failure? : Outcome → Option Failure
  | failed cause => some cause
  | _ => none

/-- Judge a failure by what the settings say of files that cannot be parsed. -/
def ofFailure (brokenFiles : BrokenFiles) (cause : Failure) : Outcome :=
  match cause, brokenFiles with
  | .unparsable path _, .skip => skipped path
  | cause, _ => failed cause

end Outcome

def projectName (projects : List Project) (owner : Nat) : String :=
  ((projects[owner]?).map (·.name)).getD ""

def outcome (read : TreeReader) (tree : FileTree) (settings : Settings) (projects : List Project)
    (owned : Ownership.Owned) : Outcome :=
  match SourceFile.load read tree (projectName projects owned.owner) owned.path with
  | .ok file => .loaded owned.owner file
  | .error cause => .ofFailure settings.brokenFiles cause

/-- The stretch of a project among files that are ordered by project. -/
def stretchOf (loaded : List (Nat × SourceFile)) (project : Nat) : Stretch :=
  { start := (loaded.filter fun entry => entry.1 < project).length
    count := (loaded.filter fun entry => entry.1 == project).length }

/-- Put together what came of loading, unless something failed. -/
def ofOutcomes (projectCount : Nat) (outcomes : List Outcome) : Except Failure LoadedSources :=
  match Failure.gather (outcomes.filterMap Outcome.failure?) with
  | some cause => .error cause
  | none =>
      let loaded := outcomes.filterMap Outcome.file?
      .ok
        { files := loaded.map (·.2)
          stretches := (List.range projectCount).map (stretchOf loaded)
          skipped := (outcomes.filterMap Outcome.skipped?).mergeSort fun left right =>
            (compare left right).isLE }

def load (read : TreeReader) (tree : FileTree) (settings : Settings) (projects : List Project) :
    Except Failure LoadedSources :=
  ofOutcomes projects.length
    ((Ownership.assign tree settings projects).map (outcome read tree settings projects))

end LoadedSources

end SolutionSurvey

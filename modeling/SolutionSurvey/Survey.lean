import SolutionSurvey.Dependency.Relation
import SolutionSurvey.Duplication
import SolutionSurvey.Metrics.ProjectMetrics
import SolutionSurvey.Report
import SolutionSurvey.Survey.Load

/-!
# Surveys

A survey loads the sources of a solution, measures its projects, looks for duplicated blocks and for
dependencies, and puts everything into one report.
-/

namespace SolutionSurvey

/-- The sources as a report shows them: once they are loaded, their paths are only displayed. -/
def LoadedSources.shown (display : Path → Path) (sources : LoadedSources) : LoadedSources where
  files := sources.files.map fun file => { file with path := display file.path }
  stretches := sources.stretches
  skipped := (sources.skipped.map fun name => (display ⟨name⟩).text).mergeSort fun left right =>
    (compare left right).isLE

def Solution.shown (display : Path → Path) (solution : Solution) : Solution :=
  { solution with projects := solution.projects.map fun project =>
      { project with directory := display project.directory } }

namespace Survey

def measureAll (read : TreeReader) (projects : List Project) (sources : LoadedSources) :
    List ProjectMetrics :=
  (projects.zip sources.stretches).map fun (project, stretch) =>
    ProjectMetrics.measure read project.name project.directory.text (sources.filesOf stretch)

/-- The lines of each project name: projects of one name are added up. -/
def projectTotals (measured : List ProjectMetrics) : Table Nat :=
  measured.foldl (fun totals project => totals.add project.name project.totalLines) []

/-- The namespace counts of each project name: of projects of one name the last counts. -/
def namespaceLines (measured : List ProjectMetrics) : Table (Table Nat) :=
  measured.foldl (fun table project => table.insert project.name project.namespaceLines) []

def report (read : TreeReader) (settings : Settings) (solution : Solution) (sources : LoadedSources) :
    Report :=
  let measured := measureAll read solution.projects sources
  let groups := if settings.findDuplicates then Duplication.detect sources.files else []
  let duplications := Duplication.flatten groups
  let rows := measured.flatMap (·.rows) ++ [solutionTotal solution.name measured]
  { solutionName := solution.name
    metrics := DuplicateLines.enter duplications rows
    projectTotals := projectTotals measured
    namespaceLines := namespaceLines measured
    totalLines := sumOf (measured.map (·.totalLines))
    totalFiles := sumOf (measured.map (·.fileCount))
    groups
    duplications
    dependencies := if settings.findDependencies then Dependency.analyze sources.files else []
    skippedFiles := sources.skipped }

def run (read : TreeReader) (tree : FileTree) (settings : Settings) (solution : Solution) :
    Except Failure Report :=
  (LoadedSources.load read tree settings solution.projects).map (report read settings solution)

/-- A survey that displays paths in some way.  Names that are no Unicode texts cannot be displayed as
they are, and what stands for them may be the same for several. -/
def runShown (display : Path → Path) (read : TreeReader) (tree : FileTree) (settings : Settings)
    (solution : Solution) : Except Failure Report :=
  (LoadedSources.load read tree settings solution.projects).map fun sources =>
    report read settings (solution.shown display) (sources.shown display)

end Survey

end SolutionSurvey

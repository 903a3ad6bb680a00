import SolutionSurvey.Collection.Distinct
import SolutionSurvey.Collection.Tally
import SolutionSurvey.Metrics.FileMetrics

/-!
# Metrics of a project

The files of a project make one row each; rows that sum up its namespaces and the whole project
follow.
-/

namespace SolutionSurvey

structure ProjectMetrics where
  name : String
  rows : List Row
  totalLines : Nat
  fileCount : Nat
  namespaceLines : Table Nat
  deriving DecidableEq, Repr, Inhabited

namespace ProjectMetrics

def fileRow (name path : String) (file : SourceFile) (metrics : FileMetrics) : Row :=
  { scope := .file, projectName := name, projectPath := path
    namespaceName := metrics.namespaceName, fileName := file.path.fileName
    filePath := file.path.text, lineCount := metrics.lineCount, complexity := metrics.complexity
    duplicateLines := 0 }

/-- The rows of files in order, and the table of namespaces after them. -/
def measureFiles (read : TreeReader) (name path : String) :
    Table Nat → List SourceFile → List Row × Table Nat
  | namespaceLines, [] => ([], namespaceLines)
  | namespaceLines, file :: rest =>
      let (metrics, namespaceLines) := FileMetrics.measure read namespaceLines file
      let (rows, namespaceLines) := measureFiles read name path namespaceLines rest
      (fileRow name path file metrics :: rows, namespaceLines)

/-- What the files of each namespace amount to. -/
structure NamespaceSums where
  /-- The namespaces met, in ascending order. -/
  names : List (Option String)
  lines : Tally (Option String)
  complexity : Tally (Option String)

namespace NamespaceSums

def zero : NamespaceSums := ⟨[], .zero, .zero⟩

def addRow (sums : NamespaceSums) (row : Row) : NamespaceSums where
  names := Distinct.insert orderOption row.namespaceName sums.names
  lines := sums.lines.add row.namespaceName row.lineCount
  complexity := sums.complexity.add row.namespaceName row.complexity

end NamespaceSums

/-- The rows that sum up the namespaces of some files, files without a namespace first. -/
def namespaceTotals (name path : String) (rows : List Row) : List Row :=
  let sums := rows.foldl NamespaceSums.addRow .zero
  sums.names.map fun namespaceName =>
    .total .namespaceTotal name path namespaceName (sums.lines namespaceName)
      (sums.complexity namespaceName)

def projectTotal (name path : String) (rows : List Row) : Row :=
  .total .projectTotal name path none (lineTotal rows) (complexityTotal rows)

def ofRows (name path : String) (rows : List Row) (namespaceLines : Table Nat) : ProjectMetrics :=
  { name
    rows := rows ++ namespaceTotals name path rows ++ [projectTotal name path rows]
    totalLines := lineTotal rows
    fileCount := rows.length
    namespaceLines }

def measure (read : TreeReader) (name path : String) (files : List SourceFile) : ProjectMetrics :=
  let (rows, namespaceLines) := measureFiles read name path [] files
  ofRows name path rows namespaceLines

end ProjectMetrics

def solutionTotal (name : String) (projects : List ProjectMetrics) : Row :=
  .total .solutionTotal name "" none (sumOf (projects.map (·.totalLines)))
    (complexityTotal (fileRows (projects.flatMap (·.rows))))

end SolutionSurvey

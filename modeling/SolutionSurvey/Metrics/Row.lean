import SolutionSurvey.Collection.Tally

/-!
# Rows of the metrics table

A row is about one file, or sums up the files of a namespace, of a project or of the solution.
-/

namespace SolutionSurvey

inductive Scope where
  | file
  | namespaceTotal
  | projectTotal
  | solutionTotal
  deriving DecidableEq, Repr, Inhabited

structure Row where
  scope : Scope
  projectName : String
  projectPath : String
  /-- The namespace; none for files that declare none. -/
  namespaceName : Option String
  fileName : String
  filePath : String
  lineCount : Nat
  complexity : Nat
  /-- Lines of the file's blocks that occur elsewhere too. -/
  duplicateLines : Nat
  deriving DecidableEq, Repr, Inhabited

namespace Row

/-- How files without a namespace are shown. -/
def noNamespace : String := "No Namespace"

def namespaceShown (row : Row) : String := row.namespaceName.getD noNamespace

def isTotal (row : Row) : Bool := row.scope != .file

def total (scope : Scope) (projectName projectPath : String) (namespaceName : Option String)
    (lineCount complexity : Nat) : Row :=
  { scope, projectName, projectPath, namespaceName, fileName := "Total", filePath := ""
    lineCount, complexity, duplicateLines := 0 }

end Row

def lineTotal (rows : List Row) : Nat := sumOf (rows.map (·.lineCount))

def complexityTotal (rows : List Row) : Nat := sumOf (rows.map (·.complexity))

def fileRows (rows : List Row) : List Row := rows.filter fun row => row.scope == .file

end SolutionSurvey

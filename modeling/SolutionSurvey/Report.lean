import SolutionSurvey.Collection.Table
import SolutionSurvey.Collection.Tally
import SolutionSurvey.Dependency.Relation
import SolutionSurvey.Duplication.Record
import SolutionSurvey.Metrics.Row

/-!
# Reports

The outcome of a survey as plain data.
-/

namespace SolutionSurvey

structure Report where
  solutionName : String
  metrics : List Row
  projectTotals : Table Nat
  /-- For each project name, the count that each namespace was last given. -/
  namespaceLines : Table (Table Nat)
  totalLines : Nat
  totalFiles : Nat
  groups : List DuplicationGroup
  duplications : List DuplicationRecord
  dependencies : List Relation
  /-- The files that could not be parsed. -/
  skippedFiles : List String
  deriving DecidableEq, Repr, Inhabited

def Report.fileRows (report : Report) : List Row := SolutionSurvey.fileRows report.metrics

/-! ### Duplicate lines -/

namespace DuplicateLines

/-- The duplicated lines that records show in each file. -/
def perFile (duplications : List DuplicationRecord) : Tally String :=
  duplications.foldl (fun tally record => tally.add record.filePath record.lineCount) .zero

/-- The duplicated lines of the file rows gone past. -/
structure Sums where
  /-- Namespaces are told apart within projects of one name. -/
  namespaces : Tally (String × Option String)
  projects : Tally String
  solution : Nat

namespace Sums

def zero : Sums := ⟨.zero, .zero, 0⟩

def addFile (sums : Sums) (file : Row) : Sums where
  namespaces := sums.namespaces.add (file.projectName, file.namespaceName) file.duplicateLines
  projects := sums.projects.add file.projectName file.duplicateLines
  solution := sums.solution + file.duplicateLines

/-- The duplicated lines that a row has to show; a file row shows its own. -/
def shownBy (sums : Sums) (row : Row) : Nat :=
  match row.scope with
  | .file => row.duplicateLines
  | .namespaceTotal => sums.namespaces (row.projectName, row.namespaceName)
  | .projectTotal => sums.projects row.projectName
  | .solutionTotal => sums.solution

end Sums

def enterFile (perFile : Tally String) (row : Row) : Row :=
  match row.scope with
  | .file => { row with duplicateLines := perFile row.filePath }
  | _ => row

/-- Enter the duplicated lines into every file row, and then their sums into every total. -/
def enter (duplications : List DuplicationRecord) (rows : List Row) : List Row :=
  let entered := rows.map (enterFile (perFile duplications))
  let sums := (fileRows entered).foldl Sums.addFile .zero
  entered.map fun row => { row with duplicateLines := sums.shownBy row }

/-! ### Duplicate lines in machine words

A table that a caller hands in may hold any words, so the sums need not fit.
-/

def perFile? (overflow : Overflow) (duplications : List DuplicationRecord) : Option (Tally String) :=
  duplications.foldlM (fun tally record => tally.add? overflow record.filePath record.lineCount) .zero

def Sums.addFile? (overflow : Overflow) (sums : Sums) (file : Row) : Option Sums := do
  let namespaces ←
    sums.namespaces.add? overflow (file.projectName, file.namespaceName) file.duplicateLines
  let projects ← sums.projects.add? overflow file.projectName file.duplicateLines
  let solution ← overflow.add? sums.solution file.duplicateLines
  return ⟨namespaces, projects, solution⟩

/-- Enter the duplicated lines as words; nothing comes of it where a sum panics. -/
def enterWords? (overflow : Overflow) (duplications : List DuplicationRecord) (rows : List Row) :
    Option (List Row) := do
  let perFile ← perFile? overflow duplications
  let entered := rows.map (enterFile perFile)
  let sums ← (fileRows entered).foldlM (Sums.addFile? overflow) .zero
  return entered.map fun row => { row with duplicateLines := sums.shownBy row }

end DuplicateLines

end SolutionSurvey

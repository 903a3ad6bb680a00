import SolutionSurvey.Collection.Table
import SolutionSurvey.Metrics.CodeLine
import SolutionSurvey.Metrics.Complexity
import SolutionSurvey.Metrics.Row
import SolutionSurvey.SourceFile
import SolutionSurvey.Text.Lines

/-!
# Metrics of a file

The code lines of a file are counted from its beginning.  The files of a project share a table that
holds, for each namespace, the count reached at the last code line that belongs to it.
-/

namespace SolutionSurvey

structure FileMetrics where
  /-- The first namespace that the file declares. -/
  namespaceName : Option String
  lineCount : Nat
  complexity : Nat
  deriving DecidableEq, Repr, Inhabited

/-- What is known after some lines of a file. -/
structure LineTally where
  /-- The declaration found; none before the first one. -/
  declared : Option (Option String)
  lineCount : Nat
  namespaceLines : Table Nat
  deriving DecidableEq, Repr, Inhabited

namespace LineTally

def start (namespaceLines : Table Nat) : LineTally := ⟨none, 0, namespaceLines⟩

def namespaceName (tally : LineTally) : Option String := tally.declared.bind id

/-- Go past one line: the first declaration stays, and a code line sets the count of its namespace. -/
def addLine (isCode : String → Bool) (tally : LineTally) (line : String) : LineTally :=
  let declared := tally.declared.or (CodeLine.declaredNamespace? line)
  if isCode line then
    let lineCount := tally.lineCount + 1
    { declared, lineCount
      namespaceLines :=
        tally.namespaceLines.insert ((declared.bind id).getD Row.noNamespace) lineCount }
  else { tally with declared }

end LineTally

namespace FileMetrics

/-- Measure a file and bring the table of its project up to date. -/
def measure (read : TreeReader) (namespaceLines : Table Nat) (file : SourceFile) :
    FileMetrics × Table Nat :=
  let tally := (Text.lines file.text).foldl (LineTally.addLine (CodeLine.isCode read))
    (.start namespaceLines)
  (⟨tally.namespaceName, tally.lineCount, Complexity.ofTree file.tree⟩, tally.namespaceLines)

end FileMetrics

end SolutionSurvey

import SolutionSurvey.Json
import SolutionSurvey.Report

/-!
# Reports for readers

A report is written as a plain text or as JSON.  The text shows the beginning of each hash, which
must not end inside a character.
-/

namespace SolutionSurvey

/-! ### Columns -/

namespace Text

def padding (width : Nat) (entry : String) : String :=
  String.ofList (List.replicate (width - entry.length) ' ')

/-- Columns have a least width in characters; a longer entry takes the room it needs. -/
def leftColumn (width : Nat) (entry : String) : String := entry ++ padding width entry

def rightColumn (width : Nat) (entry : String) : String := padding width entry ++ entry

end Text

namespace Report

/-! ### Plain text -/

/-- How many bytes of a hash are shown. -/
def hashWidth : Nat := 12

/-- The characters in the first bytes of a text; none if the bytes end inside a character. -/
def firstBytes? : Nat → List Char → Option (List Char)
  | _, [] => some []
  | 0, _ :: _ => some []
  | bytes + 1, c :: rest =>
      if c.utf8Size ≤ bytes + 1 then
        (firstBytes? (bytes + 1 - c.utf8Size) rest).map (c :: ·)
      else none

def shortHash? (hash : String) : Option String :=
  (firstBytes? hashWidth hash.toList).map String.ofList

def metricsLine (project namespaceName file lines complexity duplicates : String) : String :=
  "  " ++ Text.leftColumn 20 project ++ " " ++ Text.leftColumn 28 namespaceName ++ " " ++
    Text.leftColumn 24 file ++ " " ++ Text.rightColumn 7 lines ++ " " ++
    Text.rightColumn 5 complexity ++ " " ++ Text.rightColumn 5 duplicates ++ "\n"

def heading : String := metricsLine "project" "namespace" "file" "lines" "cc" "dup"

/-- The line of a row; totals of projects and of the solution show no namespace. -/
def rowLine (row : Row) : String :=
  let namespaceName :=
    match row.scope with
    | .projectTotal | .solutionTotal => ""
    | .file | .namespaceTotal => row.namespaceShown
  metricsLine row.projectName namespaceName row.fileName (toString row.lineCount)
    (toString row.complexity) (toString row.duplicateLines)

def skippedLine (path : String) : String := "  " ++ path ++ "\n"

def memberLine (record : DuplicationRecord) : String :=
  "    " ++ record.filePath ++ ":" ++ toString record.startLine ++ " " ++ record.methodName ++ " (" ++
    toString record.lineCount ++ " lines)\n"

def groupLine (key hash : String) : String := "  " ++ key ++ " (" ++ hash ++ ")\n"

def groupLines? (group : DuplicationGroup) : Option (List String) :=
  (shortHash? group.hash).map fun hash => groupLine group.key hash :: group.members.map memberLine

def relationLine (relation : Relation) : String :=
  "  " ++ relation.source ++ " -> " ++ relation.target ++ "\n"

/-- The part about skipped files, which is left out if there are none. -/
def skippedLines (paths : List String) : List String :=
  if paths.isEmpty then []
  else ("skipped (parse errors): " ++ toString paths.length ++ "\n") :: paths.map skippedLine

/-- The lines of a report; there are none if a hash cannot be cut. -/
def lines? (report : Report) : Option (List String) :=
  (report.groups.mapM groupLines?).map fun groups =>
    ["solution: " ++ report.solutionName ++ "\n",
      "files: " ++ toString report.totalFiles ++ "  lines: " ++ toString report.totalLines ++
        "  projects: " ++ toString report.projectTotals.length ++ "\n"] ++
      skippedLines report.skippedFiles ++
      ["\nmetrics:\n", heading] ++ report.metrics.map rowLine ++
      ["\nduplicates: " ++ toString report.groups.length ++ " groups\n"] ++ groups.flatten ++
      ["\ndependencies: " ++ toString report.dependencies.length ++ "\n"] ++
      report.dependencies.map relationLine

def toText? (report : Report) : Option String := report.lines?.map String.join

/-! ### JSON -/

def scopeName : Scope → String
  | .file => "file"
  | .namespaceTotal => "namespace_total"
  | .projectTotal => "project_total"
  | .solutionTotal => "solution_total"

def rowJson (row : Row) : Json :=
  .object
    [("scope", .text (scopeName row.scope)), ("project_name", .text row.projectName),
      ("project_path", .text row.projectPath),
      ("namespace", .ofOption .text row.namespaceName), ("file_name", .text row.fileName),
      ("file_path", .text row.filePath), ("line_count", .number row.lineCount),
      ("complexity", .number row.complexity), ("duplicate_lines", .number row.duplicateLines)]

def recordJson (record : DuplicationRecord) : Json :=
  .object
    [("hash", .text record.hash), ("file_path", .text record.filePath),
      ("method_name", .text record.methodName), ("start_line", .number record.startLine),
      ("line_count", .number record.lineCount)]

def groupJson (group : DuplicationGroup) : Json :=
  .object
    [("hash", .text group.hash), ("key", .text group.key),
      ("members", .ofList recordJson group.members)]

def relationJson (relation : Relation) : Json :=
  .object
    [("source", .text relation.source), ("target", .text relation.target),
      ("file_path", .text relation.filePath), ("line", .number relation.line)]

def tableJson {α : Type} (encode : α → Json) (table : Table α) : Json :=
  .object (table.map fun (name, value) => (name, encode value))

def toJson (report : Report) : Json :=
  .object
    [("solution_name", .text report.solutionName), ("metrics", .ofList rowJson report.metrics),
      ("project_totals", tableJson .number report.projectTotals),
      ("namespace_lines", tableJson (tableJson .number) report.namespaceLines),
      ("total_lines", .number report.totalLines), ("total_files", .number report.totalFiles),
      ("duplication_groups", .ofList groupJson report.groups),
      ("duplications", .ofList recordJson report.duplications),
      ("dependencies", .ofList relationJson report.dependencies),
      ("skipped_files", .ofList .text report.skippedFiles)]

end Report

end SolutionSurvey

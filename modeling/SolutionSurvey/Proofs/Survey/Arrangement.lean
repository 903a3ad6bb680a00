import SolutionSurvey.Proofs.Metrics.ProjectRows
import SolutionSurvey.Proofs.Survey.Loading
import SolutionSurvey.Proofs.Survey.Tables

/-!
# How the rows of a report are arranged

A report goes through the projects in the order of the solution, each with its own files; a row about
the solution closes the table.
-/

namespace SolutionSurvey.Survey

/-- The table of a report consists of the rows about each project and a closing row about the
solution. -/
structure Arranged (solution : Solution) (sources : LoadedSources) (report : Report)
    (parts : List ProjectRows) (closing : Row) : Prop where
  metrics : report.metrics = parts.flatMap ProjectRows.all ++ [closing]
  projects : parts.map (·.whole.projectName) = solution.projects.map (·.name)
  files : parts.map (fun part => part.files.map (·.filePath)) =
    sources.stretches.map fun stretch => (sources.filesOf stretch).map (·.path.text)
  agree : ∀ part ∈ parts, part.Agree
  closingAbout : closing.scope = .solutionTotal
  closingLines : closing.lineCount = lineTotal (parts.flatMap (·.files))
  closingComplexity : closing.complexity = complexityTotal (parts.flatMap (·.files))
  totalLines : report.totalLines = closing.lineCount
  totalFiles : report.totalFiles = (parts.flatMap (·.files)).length
  duplicateLines : ∀ row ∈ report.metrics, row.scope ≠ .file →
    row.duplicateLines = duplicateTotal (report.fileRows.filter (DuplicateLines.covers row))

section Report

variable (read : TreeReader) (settings : Settings) (solution : Solution) (sources : LoadedSources)

/-! ### What is measured -/

def fileRowsOf (entry : Project × Stretch) : List Row :=
  (ProjectMetrics.measureFiles read entry.1.name entry.1.directory.text []
    (sources.filesOf entry.2)).1

/-- The rows about each project, before duplicated lines are entered. -/
def measuredRows : List ProjectRows :=
  (solution.projects.zip sources.stretches).map fun entry =>
    .ofRows entry.1.name entry.1.directory.text (fileRowsOf read sources entry)

theorem agree_measuredRows : ∀ part ∈ measuredRows read solution sources, part.Agree := by
  refine List.forall_mem_map.mpr fun entry _ => ProjectRows.agree_ofRows fun row membership => ?_
  exact ProjectMetrics.of_mem_measureFiles membership

theorem rows_measureAll :
    (measureAll read solution.projects sources).flatMap (·.rows) =
      (measuredRows read solution sources).flatMap ProjectRows.all := by
  rw [measureAll, measuredRows, List.flatMap_map, List.flatMap_map]
  rfl

theorem complexity_solutionTotal :
    (solutionTotal solution.name (measureAll read solution.projects sources)).complexity =
      complexityTotal ((measuredRows read solution sources).flatMap (·.files)) := by
  have files : fileRows ((measuredRows read solution sources).flatMap ProjectRows.all) =
      (measuredRows read solution sources).flatMap (·.files) :=
    (rowsAbout_flatMap .file _ _).trans (List.flatMap_congr fun part membership =>
      (agree_measuredRows read solution sources part membership).rowsAbout_all .file)
  rw [← files, ← rows_measureAll]
  rfl

/-! ### What is reported -/

/-- The table of the report, before duplicated lines are entered. -/
def measuredTable : List Row :=
  (measuredRows read solution sources).flatMap ProjectRows.all ++
    [solutionTotal solution.name (measureAll read solution.projects sources)]

theorem metrics_report : (report read settings solution sources).metrics =
    DuplicateLines.enter (report read settings solution sources).duplications
      (measuredTable read solution sources) := by
  rw [measuredTable, ← rows_measureAll]
  rfl

/-- The rows about each project in the report. -/
def reportedRows : List ProjectRows :=
  (measuredRows read solution sources).map
    (.entered (report read settings solution sources).duplications
      (fileRows (measuredTable read solution sources)))

/-- The row about the solution in the report. -/
def closingRow : Row :=
  DuplicateLines.entered (report read settings solution sources).duplications
    (fileRows (measuredTable read solution sources))
    (solutionTotal solution.name (measureAll read solution.projects sources))

theorem metrics_reportedRows : (report read settings solution sources).metrics =
    (reportedRows read settings solution sources).flatMap ProjectRows.all ++
      [closingRow read settings solution sources] := by
  rw [metrics_report, DuplicateLines.enter_eq_map, reportedRows, closingRow, measuredTable,
    List.map_append, List.map_flatMap, List.flatMap_map]
  simp only [ProjectRows.all_entered]
  rfl

theorem agree_reportedRows : ∀ part ∈ reportedRows read settings solution sources, part.Agree :=
  List.forall_mem_map.mpr fun part membership =>
    (agree_measuredRows read solution sources part membership).entered _ _

theorem files_reportedRows : (reportedRows read settings solution sources).flatMap (·.files) =
    ((measuredRows read solution sources).flatMap (·.files)).map
      (DuplicateLines.entered (report read settings solution sources).duplications
        (fileRows (measuredTable read solution sources))) := by
  rw [reportedRows, List.flatMap_map, List.map_flatMap]
  rfl

/-- What is measured of each project is what the rows about it amount to. -/
theorem totals_reportedRows :
    (measureAll read solution.projects sources).map (fun project =>
        (project.name, project.totalLines, project.fileCount)) =
      (reportedRows read settings solution sources).map fun part =>
        (part.whole.projectName, lineTotal part.files, part.files.length) := by
  rw [measureAll, reportedRows, measuredRows, List.map_map, List.map_map, List.map_map]
  refine List.map_congr_left fun entry _ => ?_
  simp only [Function.comp_apply, ProjectRows.entered, DuplicateLines.lineTotal_map_entered,
    List.length_map]
  rfl

theorem lineCount_closingRow : (closingRow read settings solution sources).lineCount =
    lineTotal ((reportedRows read settings solution sources).flatMap (·.files)) := by
  have lines := congrArg (List.map fun total => total.2.1)
    (totals_reportedRows read settings solution sources)
  rw [List.map_map, List.map_map] at lines
  rw [lineTotal_flatMap]
  exact congrArg sumOf lines

theorem totalFiles_report : (report read settings solution sources).totalFiles =
    ((reportedRows read settings solution sources).flatMap (·.files)).length := by
  have counts := congrArg (List.map fun total => total.2.2)
    (totals_reportedRows read settings solution sources)
  rw [List.map_map, List.map_map] at counts
  rw [List.length_flatMap]
  exact congrArg sumOf counts

/-- The lines of the measured projects of a name are those of the rows about them. -/
theorem totalLines_namesakes (name : String) :
    (namesakes name (measureAll read solution.projects sources)).map (·.totalLines) =
      (ProjectRows.partsNamed name (reportedRows read settings solution sources)).map fun part =>
        lineTotal part.files := by
  have named := congrArg
    (fun totals => (totals.filter fun total => total.1 == name).map fun total => total.2.1)
    (totals_reportedRows read settings solution sources)
  simp only [List.filter_map, List.map_map] at named
  exact named

variable {read settings solution sources} {tree : FileTree}

section Aligned

variable (aligned : sources.stretches.length = solution.projects.length)

include aligned

theorem projectNames_reportedRows :
    (reportedRows read settings solution sources).map (·.whole.projectName) =
      solution.projects.map (·.name) := by
  have first : (solution.projects.zip sources.stretches).map Prod.fst = solution.projects :=
    List.map_fst_zip aligned.ge
  conv_rhs => rw [← first]
  rw [reportedRows, measuredRows, List.map_map, List.map_map, List.map_map]
  rfl

theorem filePaths_reportedRows :
    (reportedRows read settings solution sources).map (fun part => part.files.map (·.filePath)) =
      sources.stretches.map fun stretch => (sources.filesOf stretch).map (·.path.text) := by
  have second : (solution.projects.zip sources.stretches).map Prod.snd = sources.stretches :=
    List.map_snd_zip aligned.le
  conv_rhs => rw [← second]
  rw [reportedRows, measuredRows, List.map_map, List.map_map, List.map_map]
  refine List.map_congr_left fun entry _ => ?_
  have entered : ∀ files : List Row, (files.map (DuplicateLines.entered
      (report read settings solution sources).duplications
      (fileRows (measuredTable read solution sources)))).map (·.filePath) =
        files.map (·.filePath) := fun _ => List.map_map
  exact (entered _).trans (ProjectMetrics.map_filePath_measureFiles ..)

/-- Where every project has its stretch, the report is arranged by them. -/
theorem arranged_of_aligned : Arranged solution sources (report read settings solution sources)
    (reportedRows read settings solution sources) (closingRow read settings solution sources) where
  metrics := metrics_reportedRows read settings solution sources
  projects := projectNames_reportedRows aligned
  files := filePaths_reportedRows aligned
  agree := agree_reportedRows read settings solution sources
  closingAbout := rfl
  closingLines := lineCount_closingRow read settings solution sources
  closingComplexity := by
    rw [files_reportedRows, DuplicateLines.complexityTotal_map_entered]
    exact complexity_solutionTotal read solution sources
  totalLines := rfl
  totalFiles := totalFiles_report read settings solution sources
  duplicateLines := by
    rw [Report.fileRows, metrics_report]
    exact fun row => DuplicateLines.duplicateLines_of_total

end Aligned

theorem arranged_report
    (done : LoadedSources.load read tree settings solution.projects = .ok sources) :
    Arranged solution sources (report read settings solution sources)
      (reportedRows read settings solution sources) (closingRow read settings solution sources) :=
  arranged_of_aligned (LoadedSources.length_stretches done)

end Report

/-! ### What follows from the arrangement -/

namespace Arranged

variable {solution : Solution} {sources : LoadedSources} {report : Report}
  {parts : List ProjectRows} {closing : Row}
  (arranged : Arranged solution sources report parts closing)

include arranged

theorem rowsAbout_metrics (scope : Scope) :
    rowsAbout scope report.metrics = match scope with
      | .file => parts.flatMap (·.files)
      | .namespaceTotal => parts.flatMap (·.namespaces)
      | .projectTotal => parts.map (·.whole)
      | .solutionTotal => [closing] := by
  have ofParts : rowsAbout scope (parts.flatMap ProjectRows.all) =
      parts.flatMap fun part => rowsAbout scope part.all := rowsAbout_flatMap ..
  have closingAbout : AllAbout .solutionTotal [closing] := by
    intro row membership
    rw [List.mem_singleton.mp membership, arranged.closingAbout]
  rw [arranged.metrics, rowsAbout_append, ofParts,
    List.flatMap_congr fun part membership => (arranged.agree part membership).rowsAbout_all scope]
  cases scope with
  | file => rw [closingAbout.rowsAbout_eq_nil (by decide), List.append_nil]
  | namespaceTotal => rw [closingAbout.rowsAbout_eq_nil (by decide), List.append_nil]
  | projectTotal =>
      rw [closingAbout.rowsAbout_eq_nil (by decide), List.append_nil, List.map_eq_flatMap]
  | solutionTotal => simp [closingAbout.rowsAbout_eq]

theorem fileRows_eq : report.fileRows = parts.flatMap (·.files) := arranged.rowsAbout_metrics .file

theorem closing_mem : closing ∈ report.metrics := by
  rw [arranged.metrics]
  exact List.mem_concat_self

theorem duplicateLines_closing : closing.duplicateLines = duplicateTotal report.fileRows := by
  have all : ∀ row ∈ report.fileRows, DuplicateLines.covers closing row := by
    intro row _
    simp [DuplicateLines.covers, arranged.closingAbout]
  rw [arranged.duplicateLines closing arranged.closing_mem (by simp [arranged.closingAbout]),
    List.filter_eq_self.mpr all]

/-- An amount that every total takes from the file rows below it is the same on every level. -/
theorem sum_rowsAbout (amount : Row → Nat)
    (namespaces : ∀ part ∈ parts, ∀ row ∈ part.namespaces,
      amount row = sumOf ((part.filesIn row.namespaceName).map amount))
    (wholes : ∀ part ∈ parts, amount part.whole = sumOf (part.files.map amount))
    (whole : amount closing = sumOf ((parts.flatMap (·.files)).map amount)) (scope : Scope) :
    sumOf ((rowsAbout scope report.metrics).map amount) = sumOf (report.fileRows.map amount) := by
  rw [arranged.rowsAbout_metrics scope, arranged.fileRows_eq]
  cases scope with
  | file => rfl
  | namespaceTotal =>
      rw [sumOf_map_flatMap, sumOf_map_flatMap]
      congr 1
      exact List.map_congr_left fun part membership =>
        (arranged.agree part membership).sum_namespaces amount (namespaces part membership)
  | projectTotal =>
      rw [sumOf_map_flatMap, List.map_map]
      congr 1
      exact List.map_congr_left wholes
  | solutionTotal => simpa [sumOf_eq_sum] using whole

end Arranged

theorem run_eq_report {read : TreeReader} {tree : FileTree} {settings : Settings}
    {solution : Solution} {sources : LoadedSources}
    (done : LoadedSources.load read tree settings solution.projects = .ok sources) :
    run read tree settings solution = .ok (report read settings solution sources) := by
  rw [run, done]
  rfl

theorem eq_report_of_run {read : TreeReader} {tree : FileTree} {settings : Settings}
    {solution : Solution} {outcome : Report} (done : run read tree settings solution = .ok outcome) :
    ∃ sources, LoadedSources.load read tree settings solution.projects = .ok sources ∧
      outcome = report read settings solution sources := by
  unfold run at done
  cases loaded : LoadedSources.load read tree settings solution.projects with
  | error cause => simp [loaded, Except.map] at done
  | ok sources =>
      simp only [loaded, Except.map, Except.ok.injEq] at done
      exact ⟨sources, rfl, done.symm⟩

end SolutionSurvey.Survey

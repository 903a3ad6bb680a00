import SolutionSurvey.Proofs.Collection.Alike
import SolutionSurvey.Proofs.Survey.Conservation

/-!
# The figures of a report

How many files, code lines and branches a report shows depends on nothing but the texts and the trees
of the loaded files.  So two surveys that load the same texts show the same figures, whatever the
paths of the files are.
-/

namespace SolutionSurvey

/-- How many lines of a text are code. -/
def codeLines (read : TreeReader) (text : String) : Nat :=
  ((Text.lines text).filter (CodeLine.isCode read)).length

/-- The lines and the complexity that a file brings into a report. -/
def SourceFile.figures (read : TreeReader) (file : SourceFile) : Nat × Nat :=
  (codeLines read file.text, Complexity.ofTree file.tree)

def Row.figures (row : Row) : Nat × Nat := (row.lineCount, row.complexity)

theorem lineTotal_eq_figures (rows : List Row) :
    lineTotal rows = sumOf ((rows.map Row.figures).map Prod.fst) := by
  rw [List.map_map]
  rfl

theorem complexityTotal_eq_figures (rows : List Row) :
    complexityTotal rows = sumOf ((rows.map Row.figures).map Prod.snd) := by
  rw [List.map_map]
  rfl

theorem ProjectMetrics.map_figures_measureFiles (read : TreeReader) (name path : String)
    (table : Table Nat) (files : List SourceFile) :
    (measureFiles read name path table files).1.map Row.figures =
      files.map (SourceFile.figures read) := by
  rw [measureFiles_fst, List.map_map]
  refine List.map_congr_left fun file _ => ?_
  rw [SourceFile.figures, codeLines, ← List.countP_eq_length_filter]
  rfl

namespace Survey

section Report

variable {read : TreeReader} {tree : FileTree} {settings : Settings} {solution : Solution}
  {sources : LoadedSources}

/-- The file rows show the figures of the loaded files. -/
theorem map_figures_fileRows
    (done : LoadedSources.load read tree settings solution.projects = .ok sources) :
    (report read settings solution sources).fileRows.map Row.figures =
      sources.files.map (SourceFile.figures read) := by
  have second : (solution.projects.zip sources.stretches).map Prod.snd = sources.stretches :=
    List.map_snd_zip (LoadedSources.length_stretches done).le
  have entered : ∀ rows : List Row, (rows.map (DuplicateLines.entered
      (report read settings solution sources).duplications
      (fileRows (measuredTable read solution sources)))).map Row.figures = rows.map Row.figures :=
    fun _ => List.map_map
  have measured : ∀ entry : Project × Stretch, (fileRowsOf read sources entry).map Row.figures =
      (sources.filesOf entry.2).map (SourceFile.figures read) :=
    fun entry => ProjectMetrics.map_figures_measureFiles ..
  have whole : (solution.projects.zip sources.stretches).flatMap
      (fun entry => sources.filesOf entry.2) = sources.files := by
    rw [← List.flatMap_map, second, LoadedSources.flatMap_filesOf done]
  rw [(arranged_report done).fileRows_eq, files_reportedRows, entered, measuredRows,
    List.flatMap_map, List.map_flatMap, ← whole, List.map_flatMap]
  exact List.flatMap_congr fun entry _ => measured entry

/-- Two reports show as many files, lines and branches. -/
structure SameFigures (first second : Report) : Prop where
  totalFiles : first.totalFiles = second.totalFiles
  totalLines : first.totalLines = second.totalLines
  complexity : complexityTotal (rowsAbout .solutionTotal first.metrics) =
    complexityTotal (rowsAbout .solutionTotal second.metrics)

theorem sameFigures_of_files {treeToo : FileTree} {other : Solution} {otherSources : LoadedSources}
    (done : LoadedSources.load read tree settings solution.projects = .ok sources)
    (doneToo : LoadedSources.load read treeToo settings other.projects = .ok otherSources)
    (same : sources.files.map (SourceFile.figures read) =
      otherSources.files.map (SourceFile.figures read)) :
    SameFigures (report read settings solution sources)
      (report read settings other otherSources) := by
  have arranged := arranged_report done
  have arrangedToo := arranged_report doneToo
  have rows := (map_figures_fileRows done).trans (same.trans (map_figures_fileRows doneToo).symm)
  constructor
  · have counted := congrArg List.length same
    rw [List.length_map, List.length_map] at counted
    rw [arranged.totalFiles_eq_files (LoadedSources.flatMap_filesOf done),
      arrangedToo.totalFiles_eq_files (LoadedSources.flatMap_filesOf doneToo), counted]
  · have lines := lineTotal_eq_figures (report read settings solution sources).fileRows
    rw [rows, ← lineTotal_eq_figures] at lines
    rw [← arranged.lineTotal_rowsAbout .file, ← arrangedToo.lineTotal_rowsAbout .file]
    exact lines
  · rw [arranged.complexityTotal_rowsAbout, arrangedToo.complexityTotal_rowsAbout,
      complexityTotal_eq_figures, rows, complexityTotal_eq_figures]

end Report

end Survey

/-! ### Loading the same texts -/

namespace LoadedSources

/-- Two outcomes of loading bring the same text, or both none. -/
inductive OutcomeAlike : Outcome → Outcome → Prop
  | loaded (owner ownerToo) {file other : SourceFile} : file.text = other.text →
      file.tree = other.tree → OutcomeAlike (.loaded owner file) (.loaded ownerToo other)
  | skipped (path other) : OutcomeAlike (.skipped path) (.skipped other)
  | failed (cause reason) : OutcomeAlike (.failed cause) (.failed reason)

theorem outcomeAlike_unparsable (brokenFiles : BrokenFiles) (path other : Path)
    (flaw flawToo : Flaw) :
    OutcomeAlike (.ofFailure brokenFiles (.unparsable path flaw))
      (.ofFailure brokenFiles (.unparsable other flawToo)) := by
  cases brokenFiles with
  | skip => exact .skipped path other
  | abort => exact .failed _ _

/-- What comes of loading depends on nothing but what the path leads to. -/
theorem outcomeAlike_of_find? {read : TreeReader} {tree : FileTree} {settings : Settings}
    {projects others : List Project} {owned other : Ownership.Owned}
    (same : tree.find? owned.path = tree.find? other.path) :
    OutcomeAlike (outcome read tree settings projects owned)
      (outcome read tree settings others other) := by
  unfold outcome SourceFile.load
  rw [same]
  rcases tree.find? other.path with _ | ⟨entry, around⟩
  · exact .failed _ _
  · cases entry with
    | directory entries => exact .failed _ _
    | link target => exact .failed _ _
    | file content =>
        cases spelled : content.text? with
        | none =>
            simp only [spelled]
            exact outcomeAlike_unparsable ..
        | some text =>
            simp only [spelled, SourceFile.ofText, parseWhole]
            cases read (SourceFile.withoutMark text) with
            | none => exact outcomeAlike_unparsable ..
            | some root =>
                by_cases damaged : root.damaged
                · simp only [damaged, if_true]
                  exact outcomeAlike_unparsable ..
                · simp only [damaged]
                  exact .loaded _ _ rfl rfl

theorem OutcomeAlike.failure? {first second : Outcome} (alike : OutcomeAlike first second) :
    Option.Rel (fun _ _ => True) first.failure? second.failure? := by
  cases alike with
  | loaded => exact .none
  | skipped => exact .none
  | failed => exact .some trivial

theorem OutcomeAlike.file? (read : TreeReader) {first second : Outcome}
    (alike : OutcomeAlike first second) :
    Option.Rel (fun entry other => entry.2.figures read = other.2.figures read) first.file?
      second.file? := by
  cases alike with
  | loaded _ _ texts trees =>
      exact .some (by rw [SourceFile.figures, SourceFile.figures, texts, trees])
  | skipped => exact .none
  | failed => exact .none

theorem endAlike_ofOutcomes (read : TreeReader) (count countToo : Nat) {left right : List Outcome}
    (alike : List.Forall₂ OutcomeAlike left right) :
    EndAlike (fun sources others : LoadedSources => sources.files.map (SourceFile.figures read) =
        others.files.map (SourceFile.figures read))
      (ofOutcomes count left) (ofOutcomes countToo right) := by
  have failures := (List.rel_filterMap (fun _ _ alike => OutcomeAlike.failure? alike)
    alike).length_eq
  have files := List.rel_filterMap (fun _ _ alike => OutcomeAlike.file? read alike) alike
  unfold ofOutcomes
  cases failed : Failure.gather (left.filterMap Outcome.failure?) with
  | none =>
      rw [Failure.gather_eq_none_iff.mp failed] at failures
      rw [List.eq_nil_of_length_eq_zero failures.symm]
      refine .succeeded ?_
      rw [List.map_map, List.map_map]
      exact map_eq_map_of_forall₂ files fun _ _ same => same
  | some cause =>
      cases failedToo : Failure.gather (right.filterMap Outcome.failure?) with
      | none =>
          rw [Failure.gather_eq_none_iff.mp failedToo] at failures
          rw [List.eq_nil_of_length_eq_zero failures] at failed
          cases failed
      | some reason => exact .failed cause reason

end LoadedSources

end SolutionSurvey

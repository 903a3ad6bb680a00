import SolutionSurvey.Proofs.Collection.Rearrangement
import SolutionSurvey.Proofs.Metrics.Rows
import SolutionSurvey.Report

/-!
# The duplicated lines of a table

Duplicated lines are entered into a finished table.  A file row shows what the records say of its
file, a total shows the sum of the file rows that it covers, wherever in the table these stand.
-/

namespace SolutionSurvey.DuplicateLines

/-! ### What the rows have to show -/

def inFile (duplications : List DuplicationRecord) (filePath : String) : Nat :=
  sumOf ((duplications.filter fun record => record.filePath == filePath).map (·.lineCount))

/-- Whether a total covers a file row; projects are told apart by their names. -/
def covers (total file : Row) : Bool :=
  match total.scope with
  | .file => false
  | .namespaceTotal =>
      file.projectName == total.projectName && file.namespaceName == total.namespaceName
  | .projectTotal => file.projectName == total.projectName
  | .solutionTotal => true

def sum (duplications : List DuplicationRecord) (files : List Row) : Nat :=
  sumOf (files.map fun file => inFile duplications file.filePath)

/-- The duplicated lines that a row has to show. -/
def shownBy (duplications : List DuplicationRecord) (files : List Row) (row : Row) : Nat :=
  match row.scope with
  | .file => inFile duplications row.filePath
  | _ => sum duplications (files.filter (covers row))

/-- A row with its duplicated lines, told from the file rows of the table. -/
def entered (duplications : List DuplicationRecord) (files : List Row) (row : Row) : Row :=
  { row with duplicateLines := shownBy duplications files row }

section Entered

variable (duplications : List DuplicationRecord) (files : List Row)

theorem rowsAbout_map_entered (scope : Scope) (rows : List Row) :
    rowsAbout scope (rows.map (entered duplications files)) =
      (rowsAbout scope rows).map (entered duplications files) :=
  List.filter_map

theorem lineTotal_map_entered (rows : List Row) :
    lineTotal (rows.map (entered duplications files)) = lineTotal rows := by
  simp [lineTotal, entered, Function.comp_def]

theorem complexityTotal_map_entered (rows : List Row) :
    complexityTotal (rows.map (entered duplications files)) = complexityTotal rows := by
  simp [complexityTotal, entered, Function.comp_def]

variable {duplications files}

theorem shownBy_of_file {row : Row} (about : row.scope = .file) :
    shownBy duplications files row = inFile duplications row.filePath := by
  rw [shownBy, about]

theorem shownBy_of_total {row : Row} (about : row.scope ≠ .file) :
    shownBy duplications files row = sum duplications (files.filter (covers row)) := by
  unfold shownBy
  split
  case h_1 isFile => exact absurd isFile about
  case h_2 => rfl

theorem duplicateTotal_map_entered {rows : List Row} (about : AllAbout .file rows) :
    duplicateTotal (rows.map (entered duplications files)) = sum duplications rows := by
  rw [duplicateTotal, sum, List.map_map]
  congr 1
  exact List.map_congr_left fun row membership => shownBy_of_file (about row membership)

/-- The order of the file rows does not show. -/
theorem entered_eq_of_perm {others : List Row} (perm : files.Perm others) :
    entered duplications files = entered duplications others := by
  have sums : ∀ row, sum duplications (files.filter (covers row)) =
      sum duplications (others.filter (covers row)) := fun row =>
    sumOf_map_eq_of_perm (perm.filter _) _
  funext row
  unfold entered shownBy
  rw [sums]

end Entered

theorem fileRows_allAbout (rows : List Row) : AllAbout .file (fileRows rows) :=
  fun row membership => by simpa using (List.mem_filter.mp membership).2

/-- What a total covers does not depend on duplicated lines. -/
theorem duplicateTotal_filter_covers (duplications : List DuplicationRecord) (files rows : List Row)
    (total : Row) :
    duplicateTotal (((fileRows rows).map (entered duplications files)).filter (covers total)) =
      sum duplications ((fileRows rows).filter (covers total)) := by
  have covered : AllAbout .file ((fileRows rows).filter (covers total)) := fun file inCovered =>
    fileRows_allAbout rows file (List.mem_of_mem_filter inCovered)
  rw [List.filter_map]
  exact duplicateTotal_map_entered covered

/-! ### Both passes over a table -/

/-- What is read off at a file is what the records say of it. -/
theorem perFile_eq (duplications : List DuplicationRecord) (filePath : String) :
    perFile duplications filePath = inFile duplications filePath := by
  induction duplications using List.reverseRecOn with
  | nil => rfl
  | append_singleton duplications last inductionHypothesis =>
      have step : perFile (duplications ++ [last]) filePath =
          perFile duplications filePath + if last.filePath = filePath then last.lineCount else 0 := by
        rw [perFile, List.foldl_append]
        rfl
      rw [step, inductionHypothesis, inFile, inFile, sumOf_filter_concat]
      simp only [beq_iff_eq]

namespace Sums

/-- One more file row adds to the totals that cover it, and to no others. -/
theorem shownBy_addFile (sums : Sums) (file : Row) {row : Row} (about : row.scope ≠ .file) :
    (sums.addFile file).shownBy row =
      sums.shownBy row + if covers row file then file.duplicateLines else 0 := by
  unfold shownBy covers
  cases scope : row.scope with
  | file => exact absurd scope about
  | namespaceTotal => simp [addFile, Tally.add]
  | projectTotal => simp [addFile, Tally.add]
  | solutionTotal => simp [addFile]

theorem shownBy_foldl_addFile (files : List Row) {row : Row} (about : row.scope ≠ .file) :
    (files.foldl addFile zero).shownBy row = duplicateTotal (files.filter (covers row)) := by
  induction files using List.reverseRecOn with
  | nil =>
      unfold shownBy
      cases scope : row.scope with
      | file => exact absurd scope about
      | namespaceTotal => rfl
      | projectTotal => rfl
      | solutionTotal => rfl
  | append_singleton files last inductionHypothesis =>
      rw [List.foldl_append, List.foldl_cons, List.foldl_nil, shownBy_addFile _ _ about,
        inductionHypothesis, duplicateTotal, duplicateTotal, sumOf_filter_concat]

end Sums

section Passes

variable (duplications : List DuplicationRecord) (rows : List Row)

theorem enterFile_eq (row : Row) : enterFile (perFile duplications) row =
    if row.scope = .file then { row with duplicateLines := inFile duplications row.filePath }
    else row := by
  unfold enterFile
  split
  case h_1 isFile => rw [if_pos isFile, perFile_eq]
  case h_2 isTotal => rw [if_neg isTotal]

theorem fileRows_map_enterFile (perFile : Tally String) :
    fileRows (rows.map (enterFile perFile)) = (fileRows rows).map (enterFile perFile) := by
  have sameScope : ∀ row, (enterFile perFile row).scope = row.scope := by
    intro row
    unfold enterFile
    split <;> rfl
  rw [fileRows, List.filter_map, Function.comp_def]
  simp only [sameScope]
  rfl

theorem fileRows_map_enterFile_perFile :
    fileRows (rows.map (enterFile (perFile duplications))) =
      (fileRows rows).map (entered duplications (fileRows rows)) := by
  rw [fileRows_map_enterFile]
  refine List.map_congr_left fun row membership => ?_
  have about := fileRows_allAbout rows row membership
  rw [enterFile_eq, if_pos about, entered, shownBy_of_file about]

/-- After both passes each row shows what it has to. -/
theorem enter_eq_map :
    enter duplications rows = rows.map (entered duplications (fileRows rows)) := by
  rw [enter, List.map_map]
  refine List.map_congr_left fun row _ => ?_
  rw [Function.comp_apply, enterFile_eq]
  by_cases about : row.scope = .file
  · rw [if_pos about, entered, shownBy_of_file about]
    simp only [Sums.shownBy, about]
  · rw [if_neg about, Sums.shownBy_foldl_addFile _ about, fileRows_map_enterFile_perFile,
      duplicateTotal_filter_covers, ← shownBy_of_total about, entered]

end Passes

section Table

variable {duplications : List DuplicationRecord} {rows : List Row} {row : Row}

theorem fileRows_enter : fileRows (enter duplications rows) =
    (fileRows rows).map (entered duplications (fileRows rows)) := by
  rw [enter_eq_map]
  exact rowsAbout_map_entered duplications (fileRows rows) .file rows

theorem map_filePath_fileRows_enter :
    (fileRows (enter duplications rows)).map (·.filePath) = (fileRows rows).map (·.filePath) := by
  rw [fileRows_enter, List.map_map]
  rfl

theorem duplicateLines_of_file (membership : row ∈ fileRows (enter duplications rows)) :
    row.duplicateLines = inFile duplications row.filePath := by
  rw [fileRows_enter] at membership
  obtain ⟨plain, listed, rfl⟩ := List.mem_map.mp membership
  exact shownBy_of_file (fileRows_allAbout rows plain listed)

/-- A total shows the duplicated lines of the file rows that it covers. -/
theorem duplicateLines_of_total (membership : row ∈ enter duplications rows)
    (about : row.scope ≠ .file) :
    row.duplicateLines =
      duplicateTotal ((fileRows (enter duplications rows)).filter (covers row)) := by
  rw [enter_eq_map] at membership
  obtain ⟨plain, _, rfl⟩ := List.mem_map.mp membership
  rw [fileRows_enter, duplicateTotal_filter_covers]
  exact shownBy_of_total about

/-- The file rows count each record on every row with its path, so they add up to the records just if
each of these paths is on one row only. -/
theorem duplicateTotal_fileRows_enter_iff
    (known : ∀ record ∈ duplications,
      record.filePath ∈ (fileRows (enter duplications rows)).map (·.filePath))
    (positive : ∀ record ∈ duplications, 0 < record.lineCount) :
    duplicateTotal (fileRows (enter duplications rows)) =
        sumOf (duplications.map (·.lineCount)) ↔
      ∀ record ∈ duplications,
        ((fileRows (enter duplications rows)).map (·.filePath)).count record.filePath = 1 := by
  rw [map_filePath_fileRows_enter] at known ⊢
  rw [fileRows_enter, duplicateTotal_map_entered (fileRows_allAbout rows), sum,
    ← sumOf_parts_eq_iff _ known positive, List.map_map]
  rfl

end Table

end SolutionSurvey.DuplicateLines

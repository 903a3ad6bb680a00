import SolutionSurvey.Proofs.Metrics.DuplicateLines

/-!
# Entering duplicated lines

The duplicated lines of a finished table are read off the records and the other fields of the rows.
What was entered before does not matter, nor does the order of the records or of the rows.
-/

namespace SolutionSurvey

def Row.withoutDuplicates (row : Row) : Row := { row with duplicateLines := 0 }

namespace DuplicateLines

section Records

variable {duplications others : List DuplicationRecord}

theorem inFile_eq_of_perm (perm : duplications.Perm others) : inFile duplications = inFile others :=
  funext fun _ => sumOf_map_eq_of_perm (perm.filter _) _

theorem shownBy_nil (files : List Row) (row : Row) : shownBy [] files row = 0 := by
  have nothing : ∀ rows : List Row, sum [] rows = 0 := by
    intro rows
    induction rows with
    | nil => rfl
    | cons file rest inductionHypothesis => exact (Nat.zero_add _).trans inductionHypothesis
  unfold shownBy
  cases row.scope with
  | file => rfl
  | namespaceTotal => exact nothing _
  | projectTotal => exact nothing _
  | solutionTotal => exact nothing _

theorem enter_nil (rows : List Row) : enter [] rows = rows.map Row.withoutDuplicates := by
  rw [enter_eq_map]
  unfold entered
  simp only [shownBy_nil]
  rfl

end Records

section Rows

variable (duplications : List DuplicationRecord) (rows : List Row)

/-- Whatever is entered, nothing but the duplicated lines of the rows changes. -/
theorem map_withoutDuplicates_enter :
    (enter duplications rows).map Row.withoutDuplicates = rows.map Row.withoutDuplicates := by
  rw [enter_eq_map, List.map_map]
  rfl

/-! ### Duplicated lines entered before -/

variable {rows}

end Rows

end DuplicateLines

end SolutionSurvey

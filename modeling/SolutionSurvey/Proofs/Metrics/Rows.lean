import SolutionSurvey.Proofs.Collection.Distinct
import SolutionSurvey.Proofs.Collection.Parts
import SolutionSurvey.Proofs.Metrics.NamespaceLines

/-!
# Rows and their totals

Rows are told apart by what they are about, and their figures are added up.  A project makes one row
for each of its files and one for each namespace that these have.
-/

namespace SolutionSurvey

instance : Std.TransCmp orderOption := by
  have standard : orderOption = compare := by
    funext left right
    cases left <;> cases right <;> rfl
  rw [standard]
  infer_instance

instance : Std.LawfulEqCmp orderOption where
  compare_self := order_self _
  eq_of_compare := by
    intro left right tie
    cases left with
    | none => cases right with
      | none => rfl
      | some right => cases tie
    | some left => cases right with
      | none => cases tie
      | some right => exact congrArg some (Std.LawfulEqOrd.eq_of_compare tie)

/-- The rows of one kind. -/
def rowsAbout (scope : Scope) (rows : List Row) : List Row :=
  rows.filter fun row => row.scope == scope

def duplicateTotal (rows : List Row) : Nat := sumOf (rows.map (·.duplicateLines))

section Totals

variable (scope : Scope) (first second : List Row)

@[simp]
theorem rowsAbout_append :
    rowsAbout scope (first ++ second) = rowsAbout scope first ++ rowsAbout scope second :=
  List.filter_append first second

@[simp]
theorem rowsAbout_flatMap {α : Type} (items : List α) (rows : α → List Row) :
    rowsAbout scope (items.flatMap rows) = items.flatMap fun item => rowsAbout scope (rows item) :=
  List.filter_flatMap

theorem duplicateTotal_singleton (row : Row) : duplicateTotal [row] = row.duplicateLines := by
  simp [duplicateTotal, sumOf_eq_sum]

theorem lineTotal_flatMap {α : Type} (items : List α) (rows : α → List Row) :
    lineTotal (items.flatMap rows) = sumOf (items.map fun item => lineTotal (rows item)) :=
  sumOf_map_flatMap Row.lineCount items rows

theorem duplicateTotal_flatMap {α : Type} (items : List α) (rows : α → List Row) :
    duplicateTotal (items.flatMap rows) =
      sumOf (items.map fun item => duplicateTotal (rows item)) :=
  sumOf_map_flatMap Row.duplicateLines items rows

end Totals

/-- What all rows of a list are about. -/
def AllAbout (scope : Scope) (rows : List Row) : Prop := ∀ row ∈ rows, row.scope = scope

theorem AllAbout.rowsAbout_eq {scope : Scope} {rows : List Row} (about : AllAbout scope rows) :
    rowsAbout scope rows = rows :=
  List.filter_eq_self.mpr fun row membership => by simp [about row membership]

theorem AllAbout.rowsAbout_eq_nil {scope other : Scope} {rows : List Row}
    (about : AllAbout scope rows) (different : scope ≠ other) : rowsAbout other rows = [] :=
  List.filter_eq_nil_iff.mpr fun row membership => by simp [about row membership, different]

namespace ProjectMetrics

section Files

variable (read : TreeReader) (name path : String) (table : Table Nat) (files : List SourceFile)

/-- The row of a file in a project. -/
def rowOf (file : SourceFile) : Row := fileRow name path file (.ofFile read file)

/-- The row of a file does not show which files come before it. -/
theorem measureFiles_fst :
    (measureFiles read name path table files).1 = files.map (rowOf read name path) := by
  induction files generalizing table with
  | nil => rfl
  | cons file rest inductionHypothesis =>
      rw [List.map_cons, rowOf, ← FileMetrics.measure_fst read table,
        ← inductionHypothesis (FileMetrics.measure read table file).2]
      rfl

theorem map_filePath_measureFiles :
    (measureFiles read name path table files).1.map (·.filePath) = files.map (·.path.text) := by
  rw [measureFiles_fst, List.map_map]
  rfl

variable {read name path table files}

theorem of_mem_measureFiles {row : Row}
    (membership : row ∈ (measureFiles read name path table files).1) :
    row.scope = .file ∧ row.projectName = name := by
  rw [measureFiles_fst] at membership
  obtain ⟨file, _, rfl⟩ := List.mem_map.mp membership
  exact ⟨rfl, rfl⟩

end Files

/-! ### The namespaces of some files -/

section Namespaces

variable (name path : String) (rows : List Row)

def namespaceNames : List (Option String) :=
  Distinct.ofList orderOption (rows.map (·.namespaceName))

theorem namespaceNames_nodup : (namespaceNames rows).Nodup := by
  have ascending : Ascending orderOption (namespaceNames rows) := Distinct.ascending_ofList _
  exact ascending.nodup

theorem mem_namespaceNames {namespaceName : Option String} :
    namespaceName ∈ namespaceNames rows ↔ ∃ row ∈ rows, row.namespaceName = namespaceName := by
  rw [namespaceNames, Distinct.mem_ofList, List.mem_map]

/-- The total of one namespace. -/
def namespaceTotal (namespaceName : Option String) : Row :=
  let covered := rows.filter fun row => row.namespaceName == namespaceName
  .total .namespaceTotal name path namespaceName (lineTotal covered) (complexityTotal covered)

/-- Each row goes into the sums of its own namespace. -/
theorem foldl_addRow : rows.foldl NamespaceSums.addRow .zero =
    { names := namespaceNames rows
      lines := fun namespaceName =>
        lineTotal (rows.filter fun row => row.namespaceName == namespaceName)
      complexity := fun namespaceName =>
        complexityTotal (rows.filter fun row => row.namespaceName == namespaceName) } := by
  induction rows using List.reverseRecOn with
  | nil => rfl
  | append_singleton rows last inductionHypothesis =>
      have names : namespaceNames (rows ++ [last]) =
          Distinct.insert orderOption last.namespaceName (namespaceNames rows) := by
        simp [namespaceNames, Distinct.ofList]
      rw [List.foldl_append, inductionHypothesis, names]
      simp only [lineTotal, complexityTotal, sumOf_filter_concat, beq_iff_eq]
      rfl

theorem namespaceTotals_eq_map :
    namespaceTotals name path rows = (namespaceNames rows).map (namespaceTotal name path rows) := by
  rw [namespaceTotals, foldl_addRow]
  rfl

theorem namespaceTotals_allAbout : AllAbout .namespaceTotal (namespaceTotals name path rows) := by
  rw [namespaceTotals_eq_map]
  exact List.forall_mem_map.mpr fun _ _ => rfl

end Namespaces

end ProjectMetrics

end SolutionSurvey

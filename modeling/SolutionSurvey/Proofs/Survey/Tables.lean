import SolutionSurvey.Proofs.Collection.Rearrangement
import SolutionSurvey.Proofs.Collection.Table
import SolutionSurvey.Survey

/-!
# The tables of a report

Two tables go by the names of projects.  The lines of projects that share a name are added up, but
only the last of them leaves its namespace counts behind.
-/

namespace SolutionSurvey.Survey

/-- The projects of a name, in the order of the solution. -/
def namesakes (name : String) (measured : List ProjectMetrics) : List ProjectMetrics :=
  measured.filter fun project => project.name == name

section Append

variable (measured : List ProjectMetrics) (last : ProjectMetrics)

theorem projectTotals_append : projectTotals (measured ++ [last]) =
    (projectTotals measured).add last.name last.totalLines := by
  rw [projectTotals, List.foldl_append]
  rfl

theorem namespaceLines_append : namespaceLines (measured ++ [last]) =
    (namespaceLines measured).insert last.name last.namespaceLines := by
  rw [namespaceLines, List.foldl_append]
  rfl

theorem namesakes_append_of_eq {name : String} (same : name = last.name) :
    namesakes name (measured ++ [last]) = namesakes name measured ++ [last] := by
  simp [namesakes, same]

theorem namesakes_append_of_ne {name : String} (different : name ≠ last.name) :
    namesakes name (measured ++ [last]) = namesakes name measured := by
  simp [namesakes, different.symm]

end Append

theorem ascending_projectTotals (measured : List ProjectMetrics) :
    Ascending Table.entryOrder (projectTotals measured) := by
  induction measured using List.reverseRecOn with
  | nil => exact .nil
  | append_singleton measured last inductionHypothesis =>
      rw [projectTotals_append]
      exact Table.ascending_insert inductionHypothesis

theorem total_projectTotals (measured : List ProjectMetrics) :
    (projectTotals measured).total = sumOf (measured.map (·.totalLines)) := by
  induction measured using List.reverseRecOn with
  | nil => rfl
  | append_singleton measured last inductionHypothesis =>
      rw [projectTotals_append, Table.total_add (ascending_projectTotals measured),
        inductionHypothesis]
      simp [sumOf_eq_sum]

theorem getD_get?_projectTotals (name : String) (measured : List ProjectMetrics) :
    ((projectTotals measured).get? name).getD 0 =
      sumOf ((namesakes name measured).map (·.totalLines)) := by
  induction measured using List.reverseRecOn with
  | nil => rfl
  | append_singleton measured last inductionHypothesis =>
      rw [projectTotals_append, Table.add, Table.get?_insert]
      by_cases same : name = last.name
      · rw [if_pos same, namesakes_append_of_eq measured last same, ← same, inductionHypothesis]
        simp [sumOf_eq_sum]
      · rw [if_neg same, namesakes_append_of_ne measured last same, inductionHypothesis]

/-- The lines of all projects of a name are in the table. -/
theorem get?_projectTotals {name : String} {measured : List ProjectMetrics}
    (used : namesakes name measured ≠ []) :
    (projectTotals measured).get? name =
      some (sumOf ((namesakes name measured).map (·.totalLines))) := by
  rw [← getD_get?_projectTotals]
  induction measured using List.reverseRecOn with
  | nil => exact absurd rfl used
  | append_singleton measured last inductionHypothesis =>
      rw [projectTotals_append, Table.add, Table.get?_insert]
      by_cases same : name = last.name
      · rw [if_pos same, Option.getD_some]
      · rw [if_neg same]
        rw [namesakes_append_of_ne measured last same] at used
        exact inductionHypothesis used

/-- Of the projects of a name the last one has its namespace counts in the table. -/
theorem get?_namespaceLines (name : String) (measured : List ProjectMetrics) :
    (namespaceLines measured).get? name =
      (namesakes name measured).getLast?.map (·.namespaceLines) := by
  induction measured using List.reverseRecOn with
  | nil => rfl
  | append_singleton measured last inductionHypothesis =>
      rw [namespaceLines_append, Table.get?_insert]
      by_cases same : name = last.name
      · rw [if_pos same, namesakes_append_of_eq measured last same, List.getLast?_concat,
          Option.map_some]
      · rw [if_neg same, namesakes_append_of_ne measured last same, inductionHypothesis]

theorem get?_projectTotals_eq_none {name : String} {measured : List ProjectMetrics}
    (unused : namesakes name measured = []) : (projectTotals measured).get? name = none := by
  induction measured using List.reverseRecOn with
  | nil => rfl
  | append_singleton measured last inductionHypothesis =>
      rw [projectTotals_append, Table.add, Table.get?_insert]
      by_cases same : name = last.name
      · simp [namesakes_append_of_eq measured last same] at unused
      · rw [if_neg same]
        rw [namesakes_append_of_ne measured last same] at unused
        exact inductionHypothesis unused

theorem ascending_namespaceLines (measured : List ProjectMetrics) :
    Ascending Table.entryOrder (namespaceLines measured) := by
  induction measured using List.reverseRecOn with
  | nil => exact .nil
  | append_singleton measured last inductionHypothesis =>
      rw [namespaceLines_append]
      exact Table.ascending_insert inductionHypothesis

/-! ### Projects in another order -/

section Perm

variable {measured others : List ProjectMetrics} (perm : measured.Perm others)

include perm

theorem namesakes_perm (name : String) : (namesakes name measured).Perm (namesakes name others) :=
  perm.filter _

theorem projectTotals_eq_of_perm : projectTotals measured = projectTotals others := by
  apply Table.eq_of_get?_eq (ascending_projectTotals _) (ascending_projectTotals _)
  intro name
  have alike := namesakes_perm perm name
  by_cases unused : namesakes name measured = []
  · have unusedToo : namesakes name others = [] := (unused ▸ alike).nil_eq.symm
    rw [get?_projectTotals_eq_none unused, get?_projectTotals_eq_none unusedToo]
  · have usedToo : namesakes name others ≠ [] := fun unusedToo =>
      unused (unusedToo ▸ alike).eq_nil
    rw [get?_projectTotals unused, get?_projectTotals usedToo,
      sumOf_map_eq_of_perm alike ProjectMetrics.totalLines]

/-- Of projects that share a name the last one counts, so the names have to differ. -/
theorem namespaceLines_eq_of_perm (distinct : (measured.map (·.name)).Nodup) :
    namespaceLines measured = namespaceLines others := by
  apply Table.eq_of_get?_eq (ascending_namespaceLines _) (ascending_namespaceLines _)
  intro name
  have alike : namesakes name measured = namesakes name others :=
    filter_key_eq_of_perm distinct perm name
  rw [get?_namespaceLines, get?_namespaceLines, alike]

end Perm

end SolutionSurvey.Survey

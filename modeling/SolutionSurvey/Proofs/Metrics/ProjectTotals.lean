import SolutionSurvey.Proofs.Metrics.ProjectRows

/-!
# The totals of a project

A project has a total for each namespace among its file rows and one for all of them.  What such
totals have to be does not depend on the order of the file rows, and a file row does not depend on
the files measured before it.
-/

namespace SolutionSurvey

/-- Files without a namespace come before all others. -/
theorem Ascending.head?_of_none_mem {names : List (Option String)}
    (ascending : Ascending orderOption names) (listed : none ∈ names) : names.head? = some none := by
  cases names with
  | nil => cases listed
  | cons first rest =>
      rcases List.mem_cons.mp listed with rfl | inRest
      · rfl
      · have before := (List.pairwise_cons.mp ascending).1 none inRest
        cases first <;> cases before

namespace ProjectRows

/-- What the totals of some file rows have to be. -/
structure SumsUp (name path : String) (part : ProjectRows) : Prop where
  ascending : Ascending orderOption (part.namespaces.map (·.namespaceName))
  occurring : ∀ namespaceName, namespaceName ∈ part.namespaces.map (·.namespaceName) ↔
    namespaceName ∈ part.files.map (·.namespaceName)
  namespaceTotals : ∀ row ∈ part.namespaces,
    row = .total .namespaceTotal name path row.namespaceName
      (lineTotal (part.filesIn row.namespaceName))
      (complexityTotal (part.filesIn row.namespaceName))
  projectTotal : part.whole = .total .projectTotal name path none (lineTotal part.files)
    (complexityTotal part.files)

theorem sumsUp_ofRows (name path : String) (rows : List Row) :
    (ofRows name path rows).SumsUp name path where
  ascending := by
    rw [map_namespaceName_ofRows]
    exact Distinct.ascending_ofList _
  occurring namespaceName := by
    rw [map_namespaceName_ofRows]
    exact Distinct.mem_ofList
  namespaceTotals _ membership := eq_of_mem_namespaces_ofRows membership
  projectTotal := rfl

namespace SumsUp

variable {name path : String} {part other : ProjectRows} (sumsUp : part.SumsUp name path)

include sumsUp

theorem coveredOnce {row : Row} (listed : row ∈ part.files) :
    part.namespaces.countP (fun total => total.namespaceName == row.namespaceName) = 1 := by
  have occurs : row.namespaceName ∈ part.namespaces.map (·.namespaceName) :=
    (sumsUp.occurring _).mpr (List.mem_map_of_mem listed)
  have once := List.count_eq_one_of_mem sumsUp.ascending.nodup occurs
  rwa [List.count, List.countP_map] at once

theorem namespaces_eq : part.namespaces = (part.namespaces.map (·.namespaceName)).map
    fun namespaceName => .total .namespaceTotal name path namespaceName
      (lineTotal (part.filesIn namespaceName)) (complexityTotal (part.filesIn namespaceName)) := by
  rw [List.map_map]
  exact (List.map_id _).symm.trans (List.map_congr_left sumsUp.namespaceTotals)

/-- The totals of the same file rows in another order are the same. -/
theorem eq_of_perm (otherSumsUp : other.SumsUp name path) (perm : part.files.Perm other.files) :
    part.namespaces = other.namespaces ∧ part.whole = other.whole := by
  have names : part.namespaces.map (·.namespaceName) = other.namespaces.map (·.namespaceName) := by
    refine sumsUp.ascending.eq_of_mem_iff otherSumsUp.ascending fun namespaceName => ?_
    rw [sumsUp.occurring, otherSumsUp.occurring, (perm.map _).mem_iff]
  have lines : ∀ namespaceName,
      lineTotal (part.filesIn namespaceName) = lineTotal (other.filesIn namespaceName) :=
    fun _ => sumOf_map_eq_of_perm (perm.filter _) Row.lineCount
  have complexity : ∀ namespaceName,
      complexityTotal (part.filesIn namespaceName) =
        complexityTotal (other.filesIn namespaceName) :=
    fun _ => sumOf_map_eq_of_perm (perm.filter _) Row.complexity
  constructor
  · rw [sumsUp.namespaces_eq, otherSumsUp.namespaces_eq, names]
    simp only [lines, complexity]
  · rw [sumsUp.projectTotal, otherSumsUp.projectTotal, lineTotal, complexityTotal,
      sumOf_map_eq_of_perm perm, sumOf_map_eq_of_perm perm, ← lineTotal, ← complexityTotal]

end SumsUp

end ProjectRows

namespace ProjectMetrics

/-- The rows about the files of a project, in the order in which these are measured. -/
def rowsOf (read : TreeReader) (name path : String) (files : List SourceFile) : ProjectRows :=
  .ofRows name path (files.map (rowOf read name path))

theorem measure_eq (read : TreeReader) (name path : String) (files : List SourceFile) :
    measure read name path files =
      { name
        rows := (rowsOf read name path files).all
        totalLines := lineTotal (rowsOf read name path files).files
        fileCount := (rowsOf read name path files).files.length
        namespaceLines := (measureFiles read name path [] files).2 } := by
  rw [rowsOf, ← measureFiles_fst read name path [] files]
  rfl

/-- How a project sums up its files, and that their order shows in nothing but the file rows. -/
structure RollsUp (read : TreeReader) (name path : String) (files : List SourceFile)
    (part : ProjectRows) : Prop where
  rows : (measure read name path files).rows = part.files ++ part.namespaces ++ [part.whole]
  fileRows : part.files = files.map (rowOf read name path)
  sumsUp : part.SumsUp name path
  noneFirst : none ∈ part.files.map (·.namespaceName) →
    (part.namespaces.map (·.namespaceName)).head? = some none
  coveredOnce : ∀ row ∈ part.files,
    part.namespaces.countP (fun total => total.namespaceName == row.namespaceName) = 1
  linesOnce : lineTotal part.namespaces = part.whole.lineCount
  complexityOnce : complexityTotal part.namespaces = part.whole.complexity
  totalLines : (measure read name path files).totalLines = lineTotal part.files
  fileCount : (measure read name path files).fileCount = part.files.length
  rearranged : ∀ others : List SourceFile, files.Perm others →
    part.files.Perm (others.map (rowOf read name path)) ∧
      (measure read name path others).rows =
        others.map (rowOf read name path) ++ part.namespaces ++ [part.whole] ∧
      (measure read name path others).totalLines = (measure read name path files).totalLines ∧
      (measure read name path others).fileCount = (measure read name path files).fileCount

/-- The rows of a project are its file rows, one total for each namespace among them, in order, and
one total for the whole project. -/
theorem rollsUp (read : TreeReader) (name path : String) (files : List SourceFile) :
    RollsUp read name path files (rowsOf read name path files) := by
  have sumsUp : (rowsOf read name path files).SumsUp name path := ProjectRows.sumsUp_ofRows ..
  have agree : (rowsOf read name path files).Agree :=
    ProjectRows.agree_ofRows (List.forall_mem_map.mpr fun _ _ => ⟨rfl, rfl⟩)
  refine ⟨?rows, rfl, sumsUp, ?noneFirst, fun row => sumsUp.coveredOnce, ?linesOnce,
    ?complexityOnce, ?totalLines, ?fileCount, fun others perm => ?rearranged⟩
  case rows => rw [measure_eq, ProjectRows.all]
  case noneFirst =>
    exact fun occurs => sumsUp.ascending.head?_of_none_mem ((sumsUp.occurring none).mpr occurs)
  case linesOnce =>
    exact (agree.sum_namespaces Row.lineCount agree.namespaceLines).trans agree.wholeLines.symm
  case complexityOnce =>
    exact (agree.sum_namespaces Row.complexity agree.namespaceComplexity).trans
      agree.wholeComplexity.symm
  case totalLines => rw [measure_eq]
  case fileCount => rw [measure_eq]
  case rearranged =>
    have fileRows : (rowsOf read name path files).files.Perm (rowsOf read name path others).files :=
      perm.map (rowOf read name path)
    obtain ⟨namespaces, whole⟩ := sumsUp.eq_of_perm (ProjectRows.sumsUp_ofRows ..) fileRows
    rw [measure_eq, measure_eq, ProjectRows.all]
    exact ⟨fileRows, by rw [namespaces, whole]; rfl,
      (sumOf_map_eq_of_perm fileRows Row.lineCount).symm, fileRows.length_eq.symm⟩

end ProjectMetrics

end SolutionSurvey

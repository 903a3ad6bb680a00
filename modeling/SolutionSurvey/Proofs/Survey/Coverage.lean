import SolutionSurvey.Proofs.Survey.Conservation

/-!
# Which file rows a total covers

The lines and the complexity of a total are those of the file rows of its own project.  Its
duplicated lines are told by the name of the project, so they take in the file rows of every project
of that name.  The two agree just as long as no duplicated line is in one of several projects of one
name.
-/

namespace SolutionSurvey.Survey

open ProjectRows (partsNamed filter_projectName_files)

/-- Every total shows the duplicated lines of the file rows whose lines it totals. -/
structure CoversOwnRows (parts : List ProjectRows) (solutionRow : Row) : Prop where
  wholes : ∀ part ∈ parts, part.whole.duplicateLines = duplicateTotal part.files
  namespaces : ∀ part ∈ parts, ∀ row ∈ part.namespaces,
    row.duplicateLines = duplicateTotal (part.filesIn row.namespaceName)
  solution : solutionRow.duplicateLines = duplicateTotal (parts.flatMap (·.files))
  addUp : duplicateTotal (parts.map (·.whole)) = solutionRow.duplicateLines

/-- Of two projects of one name neither has duplicated lines. -/
def NoSharedDuplicates (parts : List ProjectRows) : Prop :=
  parts.Pairwise fun first second => first.whole.projectName = second.whole.projectName →
    duplicateTotal first.files = 0 ∧ duplicateTotal second.files = 0

/-! ### Duplicated lines told by the name of a project -/

theorem sum_partsNamed_eq_iff (amount : ProjectRows → Nat) {parts : List ProjectRows} :
    (∀ part ∈ parts,
      sumOf ((partsNamed part.whole.projectName parts).map amount) = amount part) ↔
        parts.Pairwise fun first second => first.whole.projectName = second.whole.projectName →
          amount first = 0 ∧ amount second = 0 :=
  sumOf_part_eq_iff_alone amount

theorem duplicateTotal_filter_eq_zero {rows : List Row} (nothing : duplicateTotal rows = 0)
    (accept : Row → Bool) : duplicateTotal (rows.filter accept) = 0 := by
  have each := List.sum_eq_zero_iff_forall_eq_nat.mp nothing
  refine List.sum_eq_zero_iff_forall_eq_nat.mpr (List.forall_mem_map.mpr fun row membership => ?_)
  exact each _ (List.mem_map_of_mem (List.mem_of_mem_filter membership))

namespace Arranged

variable {solution : Solution} {sources : LoadedSources} {outcome : Report}
  {parts : List ProjectRows} {solutionRow : Row}
  (arranged : Arranged solution sources outcome parts solutionRow)

include arranged

theorem mem_metrics {part : ProjectRows} (listed : part ∈ parts) {row : Row}
    (membership : row ∈ part.all) : row ∈ outcome.metrics := by
  rw [arranged.metrics]
  exact List.mem_append_left _ (List.mem_flatMap.mpr ⟨part, listed, membership⟩)

theorem duplicateLines_whole {part : ProjectRows} (listed : part ∈ parts) :
    part.whole.duplicateLines =
      sumOf ((partsNamed part.whole.projectName parts).map fun other =>
        duplicateTotal other.files) := by
  have about := (arranged.agree part listed).wholeAbout
  have covers : DuplicateLines.covers part.whole =
      fun file => file.projectName == part.whole.projectName := by
    funext file
    simp [DuplicateLines.covers, about]
  rw [arranged.duplicateLines _ (arranged.mem_metrics listed (by simp [ProjectRows.all]))
    (by simp [about]), covers, arranged.fileRows_eq, filter_projectName_files arranged.agree,
    duplicateTotal_flatMap]

theorem duplicateLines_namespace {part : ProjectRows} (listed : part ∈ parts) {row : Row}
    (membership : row ∈ part.namespaces) :
    row.duplicateLines =
      sumOf ((partsNamed part.whole.projectName parts).map fun other =>
        duplicateTotal (other.filesIn row.namespaceName)) := by
  have about := (arranged.agree part listed).namespacesAbout row membership
  have covers : DuplicateLines.covers row = fun file =>
      file.namespaceName == row.namespaceName && file.projectName == part.whole.projectName := by
    funext file
    simp [DuplicateLines.covers, about, (arranged.agree part listed).namespacesNamed row membership,
      Bool.and_comm]
  rw [arranged.duplicateLines _
    (arranged.mem_metrics listed (by simp [ProjectRows.all, membership])) (by simp [about]), covers,
    ← List.filter_filter, arranged.fileRows_eq, filter_projectName_files arranged.agree,
    List.filter_flatMap, duplicateTotal_flatMap]
  rfl

/-- The duplicated lines of every total come from its own project, unless a project shares its name
and one of them has some. -/
theorem coversOwnRows : CoversOwnRows parts solutionRow ↔ NoSharedDuplicates parts := by
  constructor
  · intro covers
    refine (sum_partsNamed_eq_iff fun part => duplicateTotal part.files).mp fun part listed => ?_
    rw [← covers.wholes part listed, arranged.duplicateLines_whole listed]
  · intro apart
    -- What is nothing for a whole project is nothing for each of its namespaces.
    have wholes : ∀ part ∈ parts, part.whole.duplicateLines = duplicateTotal part.files := by
      intro part listed
      rw [arranged.duplicateLines_whole listed]
      exact (sum_partsNamed_eq_iff fun part => duplicateTotal part.files).mpr apart part listed
    have namespaces : ∀ part ∈ parts, ∀ row ∈ part.namespaces,
        row.duplicateLines = duplicateTotal (part.filesIn row.namespaceName) := by
      intro part listed row membership
      have alone : parts.Pairwise fun first second =>
          first.whole.projectName = second.whole.projectName →
            duplicateTotal (first.filesIn row.namespaceName) = 0 ∧
              duplicateTotal (second.filesIn row.namespaceName) = 0 :=
        apart.imp fun nothing same => ⟨duplicateTotal_filter_eq_zero (nothing same).1 _,
          duplicateTotal_filter_eq_zero (nothing same).2 _⟩
      rw [arranged.duplicateLines_namespace listed membership]
      exact (sum_partsNamed_eq_iff _).mpr alone part listed
    have solutionLines : solutionRow.duplicateLines = duplicateTotal (parts.flatMap (·.files)) := by
      rw [arranged.duplicateLines_closing, arranged.fileRows_eq]
    refine ⟨wholes, namespaces, solutionLines, ?_⟩
    have level := arranged.sum_rowsAbout Row.duplicateLines namespaces wholes solutionLines
      .projectTotal
    rw [arranged.rowsAbout_metrics .projectTotal, arranged.fileRows_eq] at level
    exact level.trans solutionLines.symm

end Arranged

/-- Whenever a survey succeeds, its totals cover the duplicated lines of their own file rows exactly
if no project shares its name with another one while one of them has duplicated lines. -/
theorem coversOwnRows_iff_of_run {read : TreeReader} {tree : FileTree} {settings : Settings}
    {solution : Solution} {outcome : Report} (done : run read tree settings solution = .ok outcome) :
    ∃ sources, LoadedSources.load read tree settings solution.projects = .ok sources ∧
      (∃ parts solutionRow, Arranged solution sources outcome parts solutionRow) ∧
      ∀ parts solutionRow, Arranged solution sources outcome parts solutionRow →
        (CoversOwnRows parts solutionRow ↔ NoSharedDuplicates parts) := by
  obtain ⟨sources, loaded, rfl⟩ := eq_report_of_run done
  exact ⟨sources, loaded, ⟨_, _, arranged_report loaded⟩, fun _ _ arranged => arranged.coversOwnRows⟩

/-! ### Two projects of one name -/

theorem twins_coversOwnRows_iff : ∃ sources,
    LoadedSources.load readClass twinsTree .standard twins.projects = .ok sources ∧
      (∃ parts solutionRow, Arranged twins sources (report readClass .standard twins twinsSources)
        parts solutionRow) ∧
      ∀ parts solutionRow, Arranged twins sources (report readClass .standard twins twinsSources)
        parts solutionRow → (CoversOwnRows parts solutionRow ↔ NoSharedDuplicates parts) :=
  coversOwnRows_iff_of_run run_twins

theorem duplications_twins : (report readClass .standard twins twinsSources).duplications =
    [ ⟨Duplication.hashOf "\x7b\x7d", "A/One.cs", "M", 1, 1⟩
    , ⟨Duplication.hashOf "\x7b\x7d", "B/Two.cs", "M", 1, 1⟩ ] :=
  flatten_detect_classFiles (by decide +kernel)

/-- Each of two projects of one name shows the duplicated lines of both. -/
theorem twins_not_coversOwnRows :
    (Solution.ofPath twinsTree ⟨"App.sln"⟩).toOption = some twins ∧
    run readClass twinsTree .standard twins =
      .ok (report readClass .standard twins twinsSources) ∧
    ∃ parts solutionRow, Arranged twins twinsSources (report readClass .standard twins twinsSources)
      parts solutionRow ∧ ¬CoversOwnRows parts solutionRow := by
  have shown : (reportedRows readClass .standard twins twinsSources).map (fun part =>
      (part.whole.duplicateLines, duplicateTotal part.files)) = [(2, 1), (2, 1)] := by
    rw [reportedRows, duplications_twins]
    decide +kernel
  refine ⟨by decide +kernel, run_twins, _, _, arranged_report load_twins, fun covers => ?_⟩
  have equal : ∀ pair ∈ (reportedRows readClass .standard twins twinsSources).map (fun part =>
      (part.whole.duplicateLines, duplicateTotal part.files)), pair.1 = pair.2 :=
    List.forall_mem_map.mpr covers.wholes
  rw [shown] at equal
  exact absurd (equal (2, 1) List.mem_cons_self) (by decide)

end SolutionSurvey.Survey

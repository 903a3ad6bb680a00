import SolutionSurvey.Proofs.Collection.Alike
import SolutionSurvey.Proofs.Duplication.Rearrangement
import SolutionSurvey.Proofs.Metrics.Entering
import SolutionSurvey.Proofs.Survey.Arrangement

/-!
# Optional passes

Duplicated blocks and dependencies are looked for only if the settings ask for it.  Loading and
measuring do not read these two settings, so a pass that is left out takes its own results from the
report and nothing else.  The results of the search for duplicated blocks are spread over the rows of
all scopes.
-/

namespace SolutionSurvey

/-! ### What the passes add to a report -/

namespace Report

/-- A report without what is known of duplicated blocks. -/
def withoutDuplicates (report : Report) : Report :=
  { report with metrics := report.metrics.map Row.withoutDuplicates, groups := [], duplications := [] }

def withoutDependencies (report : Report) : Report := { report with dependencies := [] }

end Report

/-! ### Settings that loading does not read -/

namespace Settings

/-- The settings with a choice of optional passes. -/
def withPasses (settings : Settings) (duplicates dependencies : Bool) : Settings :=
  { settings with findDuplicates := duplicates, findDependencies := dependencies }

end Settings

section Load

variable (read : TreeReader) (tree : FileTree) (settings : Settings) (projects : List Project)
  (duplicates dependencies : Bool)

theorem LoadedSources.load_withPasses :
    load read tree (settings.withPasses duplicates dependencies) projects =
      load read tree settings projects := by
  have assigned : Ownership.assign tree (settings.withPasses duplicates dependencies) projects =
      Ownership.assign tree settings projects := Ownership.assign_congr ⟨rfl, rfl⟩
  rw [load, assigned]
  rfl

end Load

namespace Survey

section Report

variable (read : TreeReader) (settings : Settings) (solution : Solution) (sources : LoadedSources)

theorem metrics_withoutDuplicates (dependencies : Bool) :
    (report read (settings.withPasses false dependencies) solution sources).metrics =
      (report read (settings.withPasses true dependencies) solution sources).metrics.map
        Row.withoutDuplicates := by
  rw [metrics_report, metrics_report, DuplicateLines.map_withoutDuplicates_enter]
  exact DuplicateLines.enter_nil _

theorem report_withoutDuplicates (dependencies : Bool) :
    report read (settings.withPasses false dependencies) solution sources =
      (report read (settings.withPasses true dependencies) solution sources).withoutDuplicates := by
  rw [Report.withoutDuplicates, ← metrics_withoutDuplicates]
  rfl

theorem report_withoutDependencies (duplicates : Bool) :
    report read (settings.withPasses duplicates false) solution sources =
      (report read (settings.withPasses duplicates true) solution sources).withoutDependencies := by
  cases duplicates with
  | false => rfl
  | true => rfl

end Report

/-! ### The whole survey -/

/-- Each optional pass adds its own results to a report and changes nothing else, whether the other
one is run or not; a survey succeeds or fails as it does without them. -/
structure PassesAreIndependent (read : TreeReader) (tree : FileTree) (settings : Settings)
    (solution : Solution) : Prop where
  duplicates : ∀ dependencies, run read tree (settings.withPasses false dependencies) solution =
    (run read tree (settings.withPasses true dependencies) solution).map Report.withoutDuplicates
  dependencies : ∀ duplicates, run read tree (settings.withPasses duplicates false) solution =
    (run read tree (settings.withPasses duplicates true) solution).map Report.withoutDependencies
  both : run read tree (settings.withPasses false false) solution =
    (run read tree (settings.withPasses true true) solution).map fun report =>
      report.withoutDuplicates.withoutDependencies
  succeeds : ∀ duplicates dependencies,
    (∃ report, run read tree (settings.withPasses duplicates dependencies) solution = .ok report) ↔
      ∃ report, run read tree settings solution = .ok report
  fails : ∀ duplicates dependencies cause,
    run read tree (settings.withPasses duplicates dependencies) solution = .error cause ↔
      run read tree settings solution = .error cause
  /-- With whatever other passes, and if the workers take other turns, the groups have the same
  content. -/
  anyTurns : ∀ duplicates dependencies sources further,
    LoadedSources.load read tree settings solution.projects = .ok sources →
      LoadedSources.load read tree (settings.withPasses duplicates dependencies) solution.projects =
          .ok further →
        Duplication.GroupsAlike sources.files further.files

section Run

variable (read : TreeReader) (tree : FileTree) (settings : Settings) (solution : Solution)

/-- If loading does not tell two settings apart, a survey differs as the reports do. -/
theorem run_eq_map {first second : Settings} {change : Report → Report}
    (loads : LoadedSources.load read tree first solution.projects =
      LoadedSources.load read tree second solution.projects)
    (reports : ∀ sources,
      report read first solution sources = change (report read second solution sources)) :
    run read tree first solution = (run read tree second solution).map change := by
  rw [run, run, loads, funext reports]
  cases LoadedSources.load read tree second solution.projects with
  | error cause => rfl
  | ok sources => rfl

theorem run_withoutDuplicates (dependencies : Bool) :
    run read tree (settings.withPasses false dependencies) solution =
      (run read tree (settings.withPasses true dependencies) solution).map
        Report.withoutDuplicates := by
  apply run_eq_map
  · rw [LoadedSources.load_withPasses, LoadedSources.load_withPasses]
  · intro sources
    exact report_withoutDuplicates read settings solution sources dependencies

theorem run_withoutDependencies (duplicates : Bool) :
    run read tree (settings.withPasses duplicates false) solution =
      (run read tree (settings.withPasses duplicates true) solution).map
        Report.withoutDependencies := by
  apply run_eq_map
  · rw [LoadedSources.load_withPasses, LoadedSources.load_withPasses]
  · intro sources
    exact report_withoutDependencies read settings solution sources duplicates

theorem passesAreIndependent : PassesAreIndependent read tree settings solution where
  duplicates := run_withoutDuplicates read tree settings solution
  dependencies := run_withoutDependencies read tree settings solution
  both := by
    rw [run_withoutDependencies, run_withoutDuplicates]
    cases run read tree (settings.withPasses true true) solution with
    | error cause => rfl
    | ok report => rfl
  succeeds duplicates dependencies := by
    simp only [run, LoadedSources.load_withPasses, map_eq_ok_iff]
    constructor
    · rintro ⟨_, sources, loaded, _⟩
      exact ⟨_, sources, loaded, rfl⟩
    · rintro ⟨_, sources, loaded, _⟩
      exact ⟨_, sources, loaded, rfl⟩
  fails duplicates dependencies cause := by
    rw [run, run, LoadedSources.load_withPasses, map_eq_error_iff, map_eq_error_iff]
  anyTurns duplicates dependencies sources further loaded loadedToo := by
    rw [LoadedSources.load_withPasses, loaded] at loadedToo
    obtain rfl := Except.ok.inj loadedToo
    exact Duplication.groupsAlike_of_perm (.refl sources.files)

end Run

end Survey

end SolutionSurvey

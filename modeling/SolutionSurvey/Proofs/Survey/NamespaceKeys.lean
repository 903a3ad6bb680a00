import SolutionSurvey.Proofs.Metrics.NamespaceLines
import SolutionSurvey.Proofs.Survey.Conservation

/-!
# Which namespace counts reach a report

The table of lines takes in every project of a name.  The table of namespace counts has only those
of the last project of a name, so no count is missing just if that project counts every namespace
that some project of its name does.
-/

namespace SolutionSurvey.Survey

open ProjectRows (partsNamed filter_projectName_files)

section Definitions

variable (read : TreeReader) (solution : Solution) (sources : LoadedSources)

/-- Every key that is written for a project is in the table under the name of the project. -/
def KeepsKeys (outcome : Report) : Prop :=
  ∀ entry ∈ solution.projects.zip sources.stretches, ∀ file ∈ sources.filesOf entry.2, ∀ key,
    file.WritesKey read key → ∃ counts, outcome.namespaceLines.get? entry.1.name = some counts ∧
      (counts.get? key).isSome

/-- The projects of a name, each with its stretch of files. -/
def entriesNamed (name : String) : List (Project × Stretch) :=
  (solution.projects.zip sources.stretches).filter fun entry => entry.1.name == name

/-- The last project of a name writes every key that some project of the name writes. -/
def LastWritesAll : Prop :=
  ∀ entry ∈ solution.projects.zip sources.stretches, ∀ last,
    (entriesNamed solution sources entry.1.name).getLast? = some last →
      ∀ file ∈ sources.filesOf entry.2, ∀ key, file.WritesKey read key →
        ∃ other ∈ sources.filesOf last.2, other.WritesKey read key

end Definitions

section Report

variable {read : TreeReader} {tree : FileTree} {settings : Settings} {solution : Solution}
  {sources : LoadedSources}

theorem get?_namespaceLines_report (name : String) :
    (report read settings solution sources).namespaceLines.get? name =
      (entriesNamed solution sources name).getLast?.map fun entry =>
        (ProjectMetrics.measure read entry.1.name entry.1.directory.text
          (sources.filesOf entry.2)).namespaceLines := by
  have measured : (report read settings solution sources).namespaceLines =
      namespaceLines (measureAll read solution.projects sources) := rfl
  rw [measured, get?_namespaceLines, namesakes, measureAll, List.filter_map, List.getLast?_map,
    Option.map_map]
  rfl

theorem keepsKeys_report :
    KeepsKeys read solution sources (report read settings solution sources) ↔
      LastWritesAll read solution sources := by
  constructor
  · intro keeps entry listed last isLast file inProject key writes
    obtain ⟨counts, found, counted⟩ := keeps entry listed file inProject key writes
    rw [get?_namespaceLines_report, isLast] at found
    obtain rfl := Option.some.inj found
    exact ProjectMetrics.isSome_get?_measure.mp counted
  · intro lastWrites entry listed file inProject key writes
    have named : entry ∈ entriesNamed solution sources entry.1.name :=
      List.mem_filter.mpr ⟨listed, BEq.rfl⟩
    obtain ⟨last, isLast⟩ := Option.isSome_iff_exists.mp
      (List.getLast?_isSome.mpr (List.ne_nil_of_mem named))
    rw [get?_namespaceLines_report, isLast]
    exact ⟨_, rfl, ProjectMetrics.isSome_get?_measure.mpr
      (lastWrites entry listed last isLast file inProject key writes)⟩

/-! ### The lines of all projects of a name -/

/-- The lines of a name in the table are those of all file rows that bear it. -/
theorem get?_projectTotals_report
    (done : LoadedSources.load read tree settings solution.projects = .ok sources)
    {project : Project} (listed : project ∈ solution.projects) :
    (report read settings solution sources).projectTotals.get? project.name =
      some (lineTotal ((report read settings solution sources).fileRows.filter fun row =>
        row.projectName == project.name)) := by
  have arranged := arranged_report done
  have named : project.name ∈ (reportedRows read settings solution sources).map
      (·.whole.projectName) := by
    rw [arranged.projects]
    exact List.mem_map_of_mem listed
  obtain ⟨part, isPart, same⟩ := List.mem_map.mp named
  have lines := totalLines_namesakes read settings solution sources project.name
  have used : namesakes project.name (measureAll read solution.projects sources) ≠ [] := by
    intro nothing
    rw [nothing] at lines
    have unnamed := List.map_eq_nil_iff.mp lines.symm
    exact List.filter_eq_nil_iff.mp unnamed part isPart (beq_iff_eq.mpr same)
  rw [arranged.fileRows_eq, filter_projectName_files arranged.agree, lineTotal_flatMap, ← lines]
  exact get?_projectTotals used

/-- Whenever a survey succeeds, the table of lines takes in all projects of a name, but the table of
namespace counts keeps every key that was written just if the last project of each name writes all
keys that projects of its name do. -/
theorem keepsKeys_iff_of_run {outcome : Report}
    (done : run read tree settings solution = .ok outcome) :
    ∃ sources, LoadedSources.load read tree settings solution.projects = .ok sources ∧
      (∀ project ∈ solution.projects, outcome.projectTotals.get? project.name =
        some (lineTotal (outcome.fileRows.filter fun row => row.projectName == project.name))) ∧
      (KeepsKeys read solution sources outcome ↔ LastWritesAll read solution sources) := by
  obtain ⟨sources, loaded, rfl⟩ := eq_report_of_run done
  exact ⟨sources, loaded, fun _ listed => get?_projectTotals_report loaded listed, keepsKeys_report⟩

end Report

/-! ### A project without files -/

theorem twins_keepsKeys_iff :
    run readClass twinsTree .standard twins = .ok (report readClass .standard twins twinsSources) ∧
      ∃ sources, LoadedSources.load readClass twinsTree .standard twins.projects = .ok sources ∧
        (∀ project ∈ twins.projects,
          (report readClass .standard twins twinsSources).projectTotals.get? project.name =
            some (lineTotal ((report readClass .standard twins twinsSources).fileRows.filter
              fun row => row.projectName == project.name))) ∧
        (KeepsKeys readClass twins sources (report readClass .standard twins twinsSources) ↔
          LastWritesAll readClass twins sources) :=
  ⟨run_twins, keepsKeys_iff_of_run run_twins⟩

/-- The second project of the name has no source file. -/
def bareTree : FileTree :=
  ⟨[ ("App.sln", .file (.text twinsManifest))
   , ("A", appDirectory "One.cs"), ("B", .directory [("App.csproj", .file (.text ""))]) ]
  , by decide +kernel, by decide +kernel⟩

def bareSources : LoadedSources := ⟨[classFile "A/One.cs"], [⟨0, 1⟩, ⟨1, 0⟩], []⟩

theorem load_bare :
    LoadedSources.load readClass bareTree .standard twins.projects = .ok bareSources := by
  have inA : Sources.collect bareTree .standard ⟨"A"⟩ = [⟨"A/One.cs"⟩] := by decide +kernel
  have inB : Sources.collect bareTree .standard ⟨"B"⟩ = [] := by decide +kernel
  have claimed : Ownership.claims bareTree .standard twins.projects = [⟨0, ⟨"A/One.cs"⟩⟩] := by
    simp [Ownership.claims, twins, appIn, inA, inB]
  exact LoadedSources.load_of_claims [(0, classFile "A/One.cs")] claimed rfl
    (List.pairwise_singleton ..) rfl

/-- The class of the first project is counted, but the empty table of the second one takes its
place. -/
theorem bare_not_keepsKeys :
    (Solution.ofPath bareTree ⟨"App.sln"⟩).toOption = some twins ∧
      run readClass bareTree .standard twins = .ok (report readClass .standard twins bareSources) ∧
      LoadedSources.load readClass bareTree .standard twins.projects = .ok bareSources ∧
      ¬KeepsKeys readClass twins bareSources (report readClass .standard twins bareSources) := by
  refine ⟨by decide +kernel, run_eq_report load_bare, load_bare, fun keeps => ?_⟩
  have written : (classFile "A/One.cs").WritesKey readClass Row.noNamespace :=
    ⟨[], classText, [], by decide +kernel, by decide +kernel, by decide +kernel⟩
  obtain ⟨counts, found, counted⟩ := keeps (appIn "A", ⟨0, 1⟩) (by decide) (classFile "A/One.cs")
    List.mem_cons_self Row.noNamespace written
  have last : (report readClass .standard twins bareSources).namespaceLines.get? "App" =
      some [] := by
    rw [get?_namespaceLines_report]
    rfl
  obtain rfl := Option.some.inj (last.symm.trans found)
  cases counted

end SolutionSurvey.Survey

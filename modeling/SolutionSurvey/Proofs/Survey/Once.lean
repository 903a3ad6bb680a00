import SolutionSurvey.Proofs.Solution.Sources
import SolutionSurvey.Proofs.Survey.Conservation

/-!
# Whether every file is analyzed once

Paths are told apart by their components, but a file may be reached by paths with different
components: through `..`, by a `.` at the start, or through symbolic links.  So every file is
analyzed once just if no file is reached by two spellings.
-/

namespace SolutionSurvey.Survey

open FileTree (SameFile)
open Ownership (Owned claims)
open LoadedSources (projectName)

/-- No file on disk stands for two files of the report, nor a block for two blocks. -/
structure AnalyzedOnce (tree : FileTree) (sources : LoadedSources) (outcome : Report) : Prop where
  files : sources.files.Pairwise fun first second => ¬SameFile tree first.path second.path
  rows : outcome.fileRows.Pairwise fun first second =>
    ¬SameFile tree ⟨first.filePath⟩ ⟨second.filePath⟩
  blocks : ∀ first ∈ outcome.duplications, ∀ second ∈ outcome.duplications,
    SameFile tree ⟨first.filePath⟩ ⟨second.filePath⟩ → first.filePath = second.filePath

section Spelling

variable (read : TreeReader) (tree : FileTree) (settings : Settings) (projects : List Project)

/-- Whether the file that a project claims can be loaded. -/
def Loadable (made : Owned) : Prop :=
  ∃ file, SourceFile.load read tree (projectName projects made.owner) made.path = .ok file

/-- Paths by which projects reach the same file have the same components. -/
def SpelledAlike : Prop :=
  ∀ first ∈ claims tree settings projects, ∀ second ∈ claims tree settings projects,
    Loadable read tree projects first → Loadable read tree projects second →
      SameFile tree first.path second.path → first.path.components = second.path.components

/-- The directories of all projects start alike and never go up. -/
def PlainDirectories : Prop :=
  ∃ start, ∀ project ∈ projects,
    project.directory.start = start ∧ ".." ∉ project.directory.names

end Spelling

section Files

variable {read : TreeReader} {tree : FileTree} {settings : Settings} {projects : List Project}
  {sources : LoadedSources}

theorem eq_of_sameFile {files : List SourceFile}
    (apart : files.Pairwise fun first second => ¬SameFile tree first.path second.path)
    {first second : SourceFile} (inFiles : first ∈ files) (inFilesToo : second ∈ files)
    (same : SameFile tree first.path second.path) : first = second := by
  have symmetric : Std.Symm fun first second : SourceFile =>
      ¬SameFile tree first.path second.path := ⟨fun _ _ unlike same => unlike same.symm⟩
  by_contra different
  exact apart.forall inFiles inFilesToo different same

theorem endsInName_of_mem_claims {made : Owned}
    (claimed : made ∈ claims tree settings projects) : made.path.EndsInName := by
  obtain ⟨project, _, collected⟩ := Ownership.mem_claims.mp claimed
  exact (Sources.spelledBelow_of_mem_collect collected).ending

section Loaded

variable (done : LoadedSources.load read tree settings projects = .ok sources)

include done

theorem exists_claim_of_mem_files {file : SourceFile} (membership : file ∈ sources.files) :
    ∃ made ∈ claims tree settings projects, Loadable read tree projects made ∧
      made.path = file.path := by
  rw [(LoadedSources.files_eq_of_load done).1] at membership
  obtain ⟨⟨owner, _⟩, loadable, rfl⟩ := List.mem_map.mp membership
  obtain ⟨owned, assigned, _, loaded⟩ := LoadedSources.mem_loadable.mp loadable
  obtain ⟨made, claimed, same⟩ := Ownership.settles_assign.reached owned assigned
  refine ⟨made, claimed, ?_, same.trans (SourceFile.path_of_load loaded).symm⟩
  exact SourceFile.load_congr (congrArg tree.find? same.symm) loaded _

/-- A file that a project claims is loaded, even if it is spelled in another way. -/
theorem exists_file_of_mem_claims {made : Owned}
    (claimed : made ∈ claims tree settings projects) (loadable : Loadable read tree projects made) :
    ∃ file ∈ sources.files, file.path.components = made.path.components ∧
      tree.way? file.path = tree.way? made.path := by
  obtain ⟨entry, assigned, same⟩ := Ownership.settles_assign.settled made claimed
  obtain ⟨other, otherClaimed, otherPath⟩ := Ownership.settles_assign.reached entry assigned
  have ways : tree.way? entry.path = tree.way? made.path :=
    FileTree.way?_congr same (otherPath ▸ endsInName_of_mem_claims otherClaimed)
      (endsInName_of_mem_claims claimed)
  have found : tree.find? made.path = tree.find? entry.path := by
    rw [FileTree.find?_eq_bind_way?, FileTree.find?_eq_bind_way?, ways]
  obtain ⟨_, madeLoaded⟩ := loadable
  obtain ⟨file, loaded⟩ := SourceFile.load_congr found madeLoaded (projectName projects entry.owner)
  have path := SourceFile.path_of_load loaded
  refine ⟨file, ?_, by rw [path, same], by rw [path, ways]⟩
  rw [(LoadedSources.files_eq_of_load done).1]
  exact List.mem_map_of_mem
    (LoadedSources.mem_loadable.mpr ⟨entry, assigned, rfl, loaded⟩ :
      (entry.owner, file) ∈ LoadedSources.loadable read tree settings projects)

theorem files_apart_iff :
    (sources.files.Pairwise fun first second => ¬SameFile tree first.path second.path) ↔
      SpelledAlike read tree settings projects := by
  constructor
  · -- Both claims come to files that are loaded; the same file must be one of them only.
    intro apart first firstClaimed second secondClaimed firstLoads secondLoads same
    obtain ⟨left, inFiles, leftComponents, leftWay⟩ :=
      exists_file_of_mem_claims done firstClaimed firstLoads
    obtain ⟨right, inFilesToo, rightComponents, rightWay⟩ :=
      exists_file_of_mem_claims done secondClaimed secondLoads
    have sameFile : SameFile tree left.path right.path := by
      rwa [SameFile, leftWay, rightWay]
    obtain rfl := eq_of_sameFile apart inFiles inFilesToo sameFile
    exact leftComponents.symm.trans rightComponents
  · -- Files that are loaded differ in their components, so by now they were spelled apart.
    intro alike
    have components := List.pairwise_map.mp (LoadedSources.components_apart done)
    refine components.imp_of_mem ?_
    intro first second inFiles inFilesToo different same
    obtain ⟨left, leftClaimed, leftLoads, leftPath⟩ := exists_claim_of_mem_files done inFiles
    obtain ⟨right, rightClaimed, rightLoads, rightPath⟩ := exists_claim_of_mem_files done inFilesToo
    rw [← leftPath, ← rightPath] at same different
    exact different (alike left leftClaimed right rightClaimed leftLoads rightLoads same)

end Loaded

/-- In a tree without links, plain directories lead to every file by one spelling only. -/
theorem spelledAlike_of_plain (linkless : tree.linkless)
    (plain : PlainDirectories projects) : SpelledAlike read tree settings projects := by
  obtain ⟨start, plain⟩ := plain
  have spelled : ∀ made ∈ claims tree settings projects, made.path.start = start ∧
      ∀ way, tree.way? made.path = some way → way = made.path.names := by
    intro made claimed
    obtain ⟨project, listed, collected⟩ := Ownership.mem_claims.mp claimed
    obtain ⟨starts, noUp⟩ := plain project (List.mem_of_getElem? listed)
    have below := Sources.spelledBelow_of_mem_collect collected
    obtain ⟨way, names, proper⟩ := below.names
    have neverUp : ".." ∉ made.path.names := by
      rw [names, List.mem_append]
      rintro (inDirectory | inWay)
      · exact noUp inDirectory
      · cases proper ".." inWay
    exact ⟨below.start.trans starts, fun _ leads =>
      FileTree.way?_eq_of_linkless linkless below.ending neverUp leads⟩
  rintro first firstClaimed second secondClaimed - - ⟨way, firstLeads, secondLeads⟩
  obtain ⟨firstStart, firstNames⟩ := spelled first firstClaimed
  obtain ⟨secondStart, secondNames⟩ := spelled second secondClaimed
  refine Path.components_eq_iff.mpr ⟨firstStart.trans secondStart.symm, ?_⟩
  rw [← firstNames way firstLeads, ← secondNames way secondLeads]

end Files

section Report

variable {read : TreeReader} {tree : FileTree} {settings : Settings} {solution : Solution}
  {sources : LoadedSources}

/-- If the files are apart, so are the rows about them and the blocks in them. -/
theorem analyzedOnce_of_files_apart
    (done : LoadedSources.load read tree settings solution.projects = .ok sources)
    (apart : sources.files.Pairwise fun first second => ¬SameFile tree first.path second.path) :
    AnalyzedOnce tree sources (report read settings solution sources) := by
  have paths := (arranged_report done).filePaths (LoadedSources.flatMap_filesOf done)
  refine ⟨apart, ?_, ?_⟩
  · have texts : (sources.files.map (·.path.text)).Pairwise fun first second =>
        ¬SameFile tree ⟨first⟩ ⟨second⟩ := List.pairwise_map.mpr apart
    rw [← paths] at texts
    exact List.pairwise_map.mp texts
  · intro first firstListed second secondListed same
    obtain ⟨left, inFiles, leftPath⟩ := List.mem_map.mp (of_mem_duplications firstListed).1
    obtain ⟨right, inFilesToo, rightPath⟩ := List.mem_map.mp (of_mem_duplications secondListed).1
    rw [← leftPath, ← rightPath] at same
    obtain rfl := eq_of_sameFile apart inFiles inFilesToo same
    exact leftPath.symm.trans rightPath

/-- Whenever a survey succeeds, it analyzes every file once exactly if projects reach no file by two
spellings; they do not if there are no links and their directories are spelled plainly. -/
theorem analyzedOnce_iff_of_run {outcome : Report}
    (done : run read tree settings solution = .ok outcome) :
    ∃ sources, LoadedSources.load read tree settings solution.projects = .ok sources ∧
      (AnalyzedOnce tree sources outcome ↔
        SpelledAlike read tree settings solution.projects) ∧
      (tree.linkless → PlainDirectories solution.projects → AnalyzedOnce tree sources outcome) := by
  obtain ⟨sources, loaded, rfl⟩ := eq_report_of_run done
  have apart := files_apart_iff loaded
  refine ⟨sources, loaded, ?_, ?_⟩
  · exact ⟨fun once => apart.mp once.files, fun alike =>
      analyzedOnce_of_files_apart loaded (apart.mpr alike)⟩
  · intro linkless plain
    exact analyzedOnce_of_files_apart loaded (apart.mpr (spelledAlike_of_plain linkless plain))

end Report

/-! ### Projects in directories of their own -/

theorem twins_analyzedOnce :
    run readClass twinsTree .standard twins = .ok (report readClass .standard twins twinsSources) ∧
      ∃ sources, LoadedSources.load readClass twinsTree .standard twins.projects = .ok sources ∧
        (AnalyzedOnce twinsTree sources (report readClass .standard twins twinsSources) ↔
          SpelledAlike readClass twinsTree .standard twins.projects) ∧
        AnalyzedOnce twinsTree sources (report readClass .standard twins twinsSources) := by
  have linkless : twinsTree.linkless := by decide +kernel
  have plain : PlainDirectories twins.projects := ⟨none, by decide +kernel⟩
  obtain ⟨sources, loaded, alike, once⟩ := analyzedOnce_iff_of_run run_twins
  exact ⟨run_twins, sources, loaded, alike, once linkless plain⟩

/-! ### A project inside the directory of another one -/

/-- The manifest lies in the directory of the inner project. -/
def nestedTree : FileTree :=
  ⟨[ ("Root.csproj", .file (.text ""))
   , ("build", .directory
      [ ("All.sln", .file (.text
          (manifestRow "Root" "..\\Root.csproj" ++ manifestRow "Build" "Build.csproj")))
      , ("Build.csproj", .file (.text "")), ("Tool.cs", .file (.text classText)) ]) ]
  , by decide +kernel, by decide +kernel⟩

def outerProject : Project := ⟨"Root", ⟨"build/../Root.csproj"⟩, ⟨"build/.."⟩⟩

def innerProject : Project := ⟨"Build", ⟨"build/Build.csproj"⟩, ⟨"build"⟩⟩

def nested : Solution := ⟨"All", ⟨"build/All.sln"⟩, [outerProject, innerProject]⟩

def nestedSources : LoadedSources :=
  ⟨[ ⟨"Root", ⟨"build/../build/Tool.cs"⟩, classText, classTree⟩
   , ⟨"Build", ⟨"build/Tool.cs"⟩, classText, classTree⟩ ], [⟨0, 1⟩, ⟨1, 1⟩], []⟩

theorem load_nested :
    LoadedSources.load readClass nestedTree .standard nested.projects = .ok nestedSources := by
  have outer : Sources.collect nestedTree .standard ⟨"build/.."⟩ = [⟨"build/../build/Tool.cs"⟩] := by
    decide +kernel
  have inner : Sources.collect nestedTree .standard ⟨"build"⟩ = [⟨"build/Tool.cs"⟩] := by
    decide +kernel
  have claimed : claims nestedTree .standard nested.projects =
      [⟨0, ⟨"build/../build/Tool.cs"⟩⟩, ⟨1, ⟨"build/Tool.cs"⟩⟩] := by
    simp [claims, nested, outerProject, innerProject, outer, inner]
  have owned : Ownership.claimAll (Ownership.depthIn nested.projects)
      [⟨0, ⟨"build/../build/Tool.cs"⟩⟩, ⟨1, ⟨"build/Tool.cs"⟩⟩] =
        [⟨0, ⟨"build/../build/Tool.cs"⟩⟩, ⟨1, ⟨"build/Tool.cs"⟩⟩] := by
    decide +kernel
  have sorted : Sorted Ownership.Owned.order
      [⟨0, ⟨"build/../build/Tool.cs"⟩⟩, ⟨1, ⟨"build/Tool.cs"⟩⟩] := by
    unfold Sorted
    decide +kernel
  exact LoadedSources.load_of_claims
    [ (0, ⟨"Root", ⟨"build/../build/Tool.cs"⟩, classText, classTree⟩)
    , (1, ⟨"Build", ⟨"build/Tool.cs"⟩, classText, classTree⟩) ] claimed owned sorted rfl

/-- The file of the inner project is analyzed twice, once by a way through `..`. -/
theorem nested_not_analyzedOnce :
    (Solution.ofPath nestedTree ⟨"build/All.sln"⟩).toOption = some nested ∧
    run readClass nestedTree .standard nested =
      .ok (report readClass .standard nested nestedSources) ∧
    LoadedSources.load readClass nestedTree .standard nested.projects = .ok nestedSources ∧
    ¬AnalyzedOnce nestedTree nestedSources (report readClass .standard nested nestedSources) := by
  have same : SameFile nestedTree ⟨"build/../build/Tool.cs"⟩ ⟨"build/Tool.cs"⟩ :=
    ⟨["build", "Tool.cs"], by decide +kernel, by decide +kernel⟩
  refine ⟨by decide +kernel, run_eq_report load_nested, load_nested, fun once => ?_⟩
  exact (List.pairwise_cons.mp once.files).1 _ List.mem_cons_self same

end SolutionSurvey.Survey

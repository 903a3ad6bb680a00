import SolutionSurvey.Proofs.Collection.Alike
import SolutionSurvey.Proofs.Dependency.Analysis
import SolutionSurvey.Proofs.Duplication.Rearrangement
import SolutionSurvey.Proofs.Solution.Rearrangement
import SolutionSurvey.Proofs.Survey.Allotment
import SolutionSurvey.Proofs.Survey.Conservation
import SolutionSurvey.Proofs.Survey.Outcomes

/-!
# Projects in another order

If the projects of a solution have different names and lie in different directories whose paths are
plain, their order shows only in the order of the blocks of rows in a report.
-/

namespace SolutionSurvey

namespace LoadedSources

open Ownership (IsOwn PlainlyApart assign)

/-! ### What comes of a source -/

section Outcome

variable (read : TreeReader) (tree : FileTree) (settings : Settings) {projects others : List Project}

/-- Whether a source fails or is skipped depends on nothing but its path. -/
theorem outcome_of_same_path {owned other : Ownership.Owned} (same : owned.path = other.path) :
    (outcome read tree settings projects owned).failure? =
        (outcome read tree settings others other).failure? ∧
      (outcome read tree settings projects owned).skipped? =
        (outcome read tree settings others other).skipped? := by
  unfold outcome
  rw [same]
  rcases SourceFile.loadEnds read tree other.path with
    ⟨_, _, fails⟩ | ⟨_, loads⟩ | ⟨_, _, _, fails⟩
  · rw [fails, fails]
    exact ⟨rfl, rfl⟩
  · obtain ⟨_, loaded⟩ := loads (projectName projects owned.owner)
    obtain ⟨_, loadedToo⟩ := loads (projectName others other.owner)
    rw [loaded, loadedToo]
    exact ⟨rfl, rfl⟩
  · rw [fails, fails]
    exact ⟨rfl, rfl⟩

variable {read tree settings}

theorem filterMap_outcome_perm {β : Type} {bring : Outcome → Option β}
    (alike : ∀ {first second : List Project} {owned other : Ownership.Owned},
      owned.path = other.path → bring (outcome read tree settings first owned) =
        bring (outcome read tree settings second other))
    (perm : ((assign tree settings others).map (·.path)).Perm
      ((assign tree settings projects).map (·.path))) :
    (((assign tree settings others).map (outcome read tree settings others)).filterMap bring).Perm
      (((assign tree settings projects).map (outcome read tree settings projects)).filterMap
        bring) := by
  let told (path : Path) : Option β := bring (outcome read tree settings [] ⟨0, path⟩)
  have byPath : ∀ order : List Project,
      ((assign tree settings order).map (outcome read tree settings order)).filterMap bring =
        ((assign tree settings order).map (·.path)).filterMap told := by
    intro order
    rw [List.filterMap_map, List.filterMap_map]
    apply List.filterMap_congr
    intro owned _
    exact alike rfl
  rw [byPath, byPath]
  exact perm.filterMap told

end Outcome

/-! ### The files of a project -/

/-- The own sources of a project that can be loaded, in the order of their paths. -/
structure ProjectFiles (read : TreeReader) (tree : FileTree) (settings : Settings)
    (projects : List Project) (project : Project) (files : List SourceFile) : Prop where
  ordered : Ascending (fun left right : SourceFile => left.path.order right.path) files
  members : ∀ file, file ∈ files ↔ ∃ path, IsOwn tree settings projects project path ∧
    SourceFile.load read tree project.name path = .ok file

section Files

variable {read : TreeReader} {tree : FileTree} {settings : Settings} {projects others : List Project}

theorem ProjectFiles.unique {project : Project} {files further : List SourceFile}
    (first : ProjectFiles read tree settings projects project files)
    (second : ProjectFiles read tree settings projects project further) : files = further := by
  have paths : Std.TransCmp fun left right : SourceFile => left.path.order right.path :=
    transCmp_comap SourceFile.path
  apply first.ordered.eq_of_mem_iff second.ordered
  intro file
  rw [first.members, second.members]

theorem ProjectFiles.of_perm (perm : others.Perm projects) {project : Project}
    {files : List SourceFile} (known : ProjectFiles read tree settings others project files) :
    ProjectFiles read tree settings projects project files where
  ordered := known.ordered
  members file := by
    rw [known.members]
    simp only [Ownership.isOwn_iff_of_perm perm]

variable (apart : PlainlyApart projects)

include apart

theorem OwnFiles.projectFiles {owner : Nat} {project : Project} {files : List SourceFile}
    (own : OwnFiles read tree settings projects owner files)
    (listed : projects[owner]? = some project) :
    ProjectFiles read tree settings projects project files where
  ordered := own.ordered
  members file := by
    have name : projectName projects owner = project.name := by
      rw [projectName, listed]
      rfl
    rw [own.members, name]
    constructor
    · rintro ⟨owned, assigned, rfl, loaded⟩
      exact ⟨owned.path, Ownership.isOwn_of_mem_assign apart assigned listed, loaded⟩
    · rintro ⟨path, isOwn, loaded⟩
      exact ⟨⟨owner, path⟩, (Ownership.mem_assign_iff_isOwn apart listed).mpr isOwn, rfl, loaded⟩

end Files

/-! ### The files of all projects -/

/-- What is loaded for each project of a solution. -/
def FilesFor (filesFor : Project → List SourceFile) (projects : List Project)
    (sources : LoadedSources) : Prop :=
  sources.stretches.map sources.filesOf = projects.map filesFor

/-- For two orders of the same projects every project is given the same files, and the same files are
skipped. -/
structure LoadedAlike (filesFor : Project → List SourceFile) (projects others : List Project)
    (sources further : LoadedSources) : Prop where
  perm : others.Perm projects
  known : FilesFor filesFor projects sources
  knownToo : FilesFor filesFor others further
  files : further.files.Perm sources.files
  distinct : (further.files.map (·.path.text)).Nodup
  skipped : further.skipped = sources.skipped

section All

variable {read : TreeReader} {tree : FileTree} {settings : Settings} {projects others : List Project}
  {sources further : LoadedSources}

theorem FilesFor.map_zip {β : Type} {filesFor : Project → List SourceFile}
    (known : FilesFor filesFor projects sources) (bring : Project → List SourceFile → β) :
    (projects.zip sources.stretches).map (fun entry => bring entry.1 (sources.filesOf entry.2)) =
      projects.map fun project => bring project (filesFor project) := by
  have pairs : (projects.zip sources.stretches).map (Prod.map id sources.filesOf) =
      projects.map fun project => (project, filesFor project) := by
    rw [← List.zip_map_right, known, List.map_prod_left_eq_zip]
  have brought := congrArg (List.map fun pair => bring pair.1 pair.2) pairs
  rwa [List.map_map, List.map_map] at brought

theorem filesFor_of_load (done : load read tree settings projects = .ok sources)
    {filesFor : Project → List SourceFile}
    (each : ∀ {owner project files}, projects[owner]? = some project →
      OwnFiles read tree settings projects owner files → files = filesFor project) :
    FilesFor filesFor projects sources := by
  apply List.ext_getElem?
  intro owner
  rw [List.getElem?_map, List.getElem?_map]
  by_cases within : owner < projects.length
  · have withinToo : owner < sources.stretches.length := length_stretches done ▸ within
    have listed := List.getElem?_eq_getElem within
    have stretchListed := List.getElem?_eq_getElem withinToo
    rw [listed, stretchListed, Option.map_some, Option.map_some,
      each listed (ownFiles_of_stretch done stretchListed)]
  · have beyond : sources.stretches.length ≤ owner := length_stretches done ▸ Nat.le_of_not_lt within
    rw [List.getElem?_eq_none beyond, List.getElem?_eq_none (Nat.le_of_not_lt within)]
    rfl

theorem FilesFor.files_eq (done : load read tree settings projects = .ok sources)
    {filesFor : Project → List SourceFile} (known : FilesFor filesFor projects sources) :
    sources.files = projects.flatMap filesFor := by
  rw [← flatMap_filesOf done, List.flatMap_def, known, List.flatMap_def]

variable (apart : PlainlyApart projects)

include apart

/-- Both orders let the loading fail or succeed, with the same files skipped. -/
theorem exists_load_of_perm (perm : others.Perm projects)
    (done : load read tree settings projects = .ok sources) : ∃ further,
      load read tree settings others = .ok further ∧ further.skipped = sources.skipped := by
  have paths : ((assign tree settings others).map (·.path)).Perm
      ((assign tree settings projects).map (·.path)) :=
    Ownership.map_path_assign_perm apart perm
  have failures : (((assign tree settings others).map
      (outcome read tree settings others)).filterMap Outcome.failure?).Perm
        (((assign tree settings projects).map (outcome read tree settings projects)).filterMap
          Outcome.failure?) :=
    filterMap_outcome_perm (fun same => (outcome_of_same_path read tree settings same).1) paths
  obtain ⟨noFailure, rfl⟩ := ofOutcomes_eq_ok_iff.mp done
  rw [List.filterMap_eq_nil_iff.mpr noFailure] at failures
  refine ⟨_, ofOutcomes_eq_ok_iff.mpr ⟨List.filterMap_eq_nil_iff.mp failures.eq_nil, rfl⟩, ?_⟩
  apply mergeSort_eq_of_perm
  exact filterMap_outcome_perm (fun same => (outcome_of_same_path read tree settings same).2) paths

/-- Every project is given the same files in both orders. -/
theorem exists_loadedAlike (perm : others.Perm projects)
    (done : load read tree settings projects = .ok sources) : ∃ filesFor further,
      load read tree settings others = .ok further ∧
        LoadedAlike filesFor projects others sources further := by
  obtain ⟨further, doneToo, skipped⟩ := exists_load_of_perm apart perm done
  -- Looked up in the first order; in the other one the files are told by the project as well.
  let filesFor (project : Project) : List SourceFile :=
    sources.filesOf (stretchOf (loadable read tree settings projects) (projects.idxOf project))
  have projectFiles : ∀ project ∈ projects,
      ProjectFiles read tree settings projects project (filesFor project) := by
    intro project membership
    exact (ownFiles_filesOf done _).projectFiles apart (List.getElem?_idxOf membership)
  have known : FilesFor filesFor projects sources := by
    apply filesFor_of_load done
    intro owner project files listed own
    exact (own.projectFiles apart listed).unique
      (projectFiles project (List.mem_of_getElem? listed))
  have knownToo : FilesFor filesFor others further := by
    apply filesFor_of_load doneToo
    intro owner project files listed own
    have ownToo := (own.projectFiles (apart.perm perm) listed).of_perm perm
    exact ownToo.unique (projectFiles project (perm.mem_iff.mp (List.mem_of_getElem? listed)))
  have files : further.files.Perm sources.files := by
    rw [known.files_eq done, knownToo.files_eq doneToo]
    exact perm.flatMap_right filesFor
  exact ⟨filesFor, further, doneToo, perm, known, knownToo, files, texts_apart doneToo, skipped⟩

end All

end LoadedSources

namespace Survey

open LoadedSources (FilesFor LoadedAlike)
open Ownership (PlainlyApart)
open Duplication (Recording)

/-! ### The report -/

/-- A report and another one about the same solution with its projects in another order.  The blocks
of rows about the projects are the same, each in the place of its project, and so is everything
else. -/
structure Rearranged (read : TreeReader) (tree : FileTree) (settings : Settings)
    (solution : Solution) (others : List Project) (report other : Report) : Prop where
  blocks : ∃ partOf closing sources further,
    LoadedSources.load read tree settings solution.projects = .ok sources ∧
      LoadedSources.load read tree settings others = .ok further ∧
        Arranged solution sources report (solution.projects.map partOf) closing ∧
          Arranged { solution with projects := others } further other (others.map partOf) closing
  rest : other = { report with metrics := other.metrics }
  /-- The groups have the same content even if the workers take other turns. -/
  anyTurns : ∀ sources further,
    LoadedSources.load read tree settings solution.projects = .ok sources →
      LoadedSources.load read tree settings others = .ok further → ∀ steps last turns final,
        (Recording.start sources.files).Run steps last → last.Finished →
          (Recording.start further.files).Run turns final → final.Finished →
            List.Forall₂ Duplication.SameContent last.detector.groups final.detector.groups

section Report

variable (read : TreeReader) (settings : Settings) {solution : Solution} {others : List Project}
  {sources further : LoadedSources} {filesFor : Project → List SourceFile}

/-- The rows about a project with some files, before duplicated lines are entered. -/
def rowsFor (filesFor : Project → List SourceFile) (project : Project) : ProjectRows :=
  .ofRows project.name project.directory.text
    (ProjectMetrics.measureFiles read project.name project.directory.text [] (filesFor project)).1

def measuredFor (filesFor : Project → List SourceFile) (project : Project) : ProjectMetrics :=
  .measure read project.name project.directory.text (filesFor project)

theorem measureAll_eq_map {projects : List Project} (known : FilesFor filesFor projects sources) :
    measureAll read projects sources = projects.map (measuredFor read filesFor) :=
  known.map_zip fun project files =>
    ProjectMetrics.measure read project.name project.directory.text files

theorem measuredRows_eq_map (known : FilesFor filesFor solution.projects sources) :
    measuredRows read solution sources = solution.projects.map (rowsFor read filesFor) :=
  known.map_zip fun project files => ProjectRows.ofRows project.name project.directory.text
    (ProjectMetrics.measureFiles read project.name project.directory.text [] files).1

theorem solutionTotal_eq_of_perm {measured further : List ProjectMetrics}
    (perm : measured.Perm further) (name : String) :
    solutionTotal name measured = solutionTotal name further := by
  have lines := sumOf_map_eq_of_perm perm ProjectMetrics.totalLines
  have complexity : complexityTotal (fileRows (measured.flatMap (·.rows))) =
      complexityTotal (fileRows (further.flatMap (·.rows))) :=
    sumOf_map_eq_of_perm ((perm.flatMap_right _).filter _) Row.complexity
  rw [solutionTotal, solutionTotal, lines, complexity]

variable (alike : LoadedAlike filesFor solution.projects others sources further)

include alike

theorem measureAll_perm :
    (measureAll read others further).Perm (measureAll read solution.projects sources) := by
  rw [measureAll_eq_map read alike.known, measureAll_eq_map read alike.knownToo]
  exact alike.perm.map _

theorem solutionTotal_measureAll_eq :
    solutionTotal solution.name (measureAll read others further) =
      solutionTotal solution.name (measureAll read solution.projects sources) :=
  solutionTotal_eq_of_perm (measureAll_perm read alike) solution.name

theorem fileRows_measuredTable_perm :
    (fileRows (measuredTable read { solution with projects := others } further)).Perm
      (fileRows (measuredTable read solution sources)) := by
  have rows : ((others.map (rowsFor read filesFor)).flatMap ProjectRows.all).Perm
      ((solution.projects.map (rowsFor read filesFor)).flatMap ProjectRows.all) :=
    (alike.perm.map _).flatMap_right _
  apply List.Perm.filter
  rw [measuredTable, measuredTable, measuredRows_eq_map read alike.known,
    measuredRows_eq_map read alike.knownToo, solutionTotal_measureAll_eq read alike]
  exact rows.append_right _

variable (names : (solution.projects.map (·.name)).Nodup)

include names

/-- Nothing but the rows can tell two orders of the projects apart. -/
theorem report_eq_of_loadedAlike :
    report read settings { solution with projects := others } further =
      { report read settings solution sources with
        metrics :=
          (report read settings { solution with projects := others } further).metrics } := by
  have measured := measureAll_perm read alike
  have named : (measureAll read others further).map (·.name) = others.map (·.name) := by
    rw [measureAll_eq_map read alike.knownToo, List.map_map]
    rfl
  have namesToo : ((measureAll read others further).map (·.name)).Nodup :=
    named ▸ (alike.perm.map _).nodup_iff.mpr names
  have dependencies : Dependency.analyze further.files = Dependency.analyze sources.files :=
    (Dependency.listsRelations_analyze sources.files).sameFiles _ fun _ => alike.files.mem_iff
  have groups := Duplication.detect_eq_of_perm alike.files alike.distinct
  simp only [report, projectTotals_eq_of_perm measured, namespaceLines_eq_of_perm measured namesToo,
    sumOf_map_eq_of_perm measured, dependencies, groups, alike.skipped]

theorem duplications_eq_of_loadedAlike :
    (report read settings { solution with projects := others } further).duplications =
      (report read settings solution sources).duplications := by
  rw [report_eq_of_loadedAlike read settings alike names]

/-- The rows about a project do not depend on its place. -/
theorem exists_partOf : ∃ partOf,
    reportedRows read settings solution sources = solution.projects.map partOf ∧
      reportedRows read settings { solution with projects := others } further =
        others.map partOf := by
  refine ⟨fun project => (rowsFor read filesFor project).entered
    (report read settings solution sources).duplications
    (fileRows (measuredTable read solution sources)), ?_, ?_⟩
  · rw [reportedRows, measuredRows_eq_map read alike.known, List.map_map]
    rfl
  · rw [reportedRows, measuredRows_eq_map read alike.knownToo, List.map_map,
      duplications_eq_of_loadedAlike read settings alike names]
    apply List.map_congr_left
    intro project _
    exact ProjectRows.entered_eq_of_perm _ (fileRows_measuredTable_perm read alike) _

theorem closingRow_eq_of_loadedAlike :
    closingRow read settings { solution with projects := others } further =
      closingRow read settings solution sources := by
  rw [closingRow, closingRow, duplications_eq_of_loadedAlike read settings alike names,
    DuplicateLines.entered_eq_of_perm (fileRows_measuredTable_perm read alike),
    solutionTotal_measureAll_eq read alike]

end Report

/-! ### The whole survey -/

section Run

variable {read : TreeReader} {tree : FileTree} {settings : Settings} {solution : Solution}
  {others : List Project} {filesFor : Project → List SourceFile} {sources further : LoadedSources}

theorem rearranged_report (names : (solution.projects.map (·.name)).Nodup)
    (done : LoadedSources.load read tree settings solution.projects = .ok sources)
    (doneToo : LoadedSources.load read tree settings others = .ok further)
    (alike : LoadedAlike filesFor solution.projects others sources further) :
    Rearranged read tree settings solution others (report read settings solution sources)
      (report read settings { solution with projects := others } further) := by
  constructor
  case blocks =>
    obtain ⟨partOf, parts, partsToo⟩ := exists_partOf read settings alike names
    have arranged : Arranged solution sources (report read settings solution sources) _ _ :=
      arranged_report done
    have arrangedToo : Arranged { solution with projects := others } further
        (report read settings { solution with projects := others } further) _ _ :=
      arranged_report doneToo
    rw [parts] at arranged
    rw [partsToo, closingRow_eq_of_loadedAlike read settings alike names] at arrangedToo
    exact ⟨partOf, _, sources, further, done, doneToo, arranged, arrangedToo⟩
  case rest => exact report_eq_of_loadedAlike read settings alike names
  case anyTurns =>
    intro loaded loadedToo isLoaded isLoadedToo steps last turns final run finished runToo finishedToo
    obtain rfl := Except.ok.inj (done.symm.trans isLoaded)
    obtain rfl := Except.ok.inj (doneToo.symm.trans isLoadedToo)
    exact Duplication.sameContent_of_runs alike.files.symm run finished runToo finishedToo

/-- The order of the projects shows only in the order of their blocks of rows. -/
theorem endAlike_of_perm (read : TreeReader) (tree : FileTree) (settings : Settings)
    (perm : others.Perm solution.projects) (names : (solution.projects.map (·.name)).Nodup)
    (apart : PlainlyApart solution.projects) :
    EndAlike (Rearranged read tree settings solution others) (run read tree settings solution)
      (run read tree settings { solution with projects := others }) := by
  cases loaded : LoadedSources.load read tree settings solution.projects with
  | ok sources =>
      obtain ⟨filesFor, further, loadedToo, alike⟩ :=
        LoadedSources.exists_loadedAlike apart perm loaded
      have surveyed : run read tree settings { solution with projects := others } =
          .ok (report read settings { solution with projects := others } further) :=
        run_eq_report loadedToo
      rw [run_eq_report loaded, surveyed]
      exact .succeeded (rearranged_report names loaded loadedToo alike)
  | error cause =>
      cases loadedToo : LoadedSources.load read tree settings others with
      | ok further =>
          -- What loads in one order loads in the other.
          obtain ⟨sources, done, _⟩ := LoadedSources.exists_load_of_perm (apart.perm perm)
            perm.symm loadedToo
          cases loaded.symm.trans done
      | error reason =>
          rw [run, run, loaded, loadedToo]
          exact .failed cause reason

end Run

/-! ### A project that houses another one -/

section Housed

def hostProject : Project := ⟨"App", ⟨"app/App.csproj"⟩, ⟨"app"⟩⟩

def guestProject : Project := ⟨"Lib", ⟨"app/lib/Lib.csproj"⟩, ⟨"app/lib"⟩⟩

def housedTree : FileTree :=
  ⟨[ ("All.sln", .file (.text
        (manifestRow "App" "app\\App.csproj" ++ manifestRow "Lib" "app\\lib\\Lib.csproj")))
   , ("app", .directory
      [ ("App.csproj", .file (.text "")), ("One.cs", .file (.text classText))
      , ("lib", .directory
          [("Lib.csproj", .file (.text "")), ("Two.cs", .file (.text classText))]) ]) ]
  , by decide +kernel, by decide +kernel⟩

/-- The directory of the first project reaches the file of the second one, too. -/
def housed : Solution := ⟨"All", ⟨"All.sln"⟩, [hostProject, guestProject]⟩

def housedSources : LoadedSources :=
  ⟨[ ⟨"App", ⟨"app/One.cs"⟩, classText, classTree⟩
   , ⟨"Lib", ⟨"app/lib/Two.cs"⟩, classText, classTree⟩ ], [⟨0, 1⟩, ⟨1, 1⟩], []⟩

theorem load_housed :
    LoadedSources.load readClass housedTree .standard housed.projects = .ok housedSources := by
  have ofHost : Sources.collect housedTree .standard ⟨"app"⟩ =
      [⟨"app/One.cs"⟩, ⟨"app/lib/Two.cs"⟩] := by
    apply Sources.collectWith_eq_of_sorted
    · decide +kernel
    · unfold Sorted
      decide +kernel
  have ofGuest : Sources.collect housedTree .standard ⟨"app/lib"⟩ = [⟨"app/lib/Two.cs"⟩] := by
    decide +kernel
  have claimed : Ownership.claims housedTree .standard housed.projects =
      [⟨0, ⟨"app/One.cs"⟩⟩, ⟨0, ⟨"app/lib/Two.cs"⟩⟩, ⟨1, ⟨"app/lib/Two.cs"⟩⟩] := by
    simp [Ownership.claims, housed, hostProject, guestProject, ofHost, ofGuest]
  have owned : Ownership.claimAll (Ownership.depthIn housed.projects)
      [⟨0, ⟨"app/One.cs"⟩⟩, ⟨0, ⟨"app/lib/Two.cs"⟩⟩, ⟨1, ⟨"app/lib/Two.cs"⟩⟩] =
        [⟨0, ⟨"app/One.cs"⟩⟩, ⟨1, ⟨"app/lib/Two.cs"⟩⟩] := by
    decide +kernel
  have sorted : Sorted Ownership.Owned.order
      [⟨0, ⟨"app/One.cs"⟩⟩, ⟨1, ⟨"app/lib/Two.cs"⟩⟩] := by
    unfold Sorted
    decide +kernel
  exact LoadedSources.load_of_claims
    [ (0, ⟨"App", ⟨"app/One.cs"⟩, classText, classTree⟩)
    , (1, ⟨"Lib", ⟨"app/lib/Two.cs"⟩, classText, classTree⟩) ] claimed owned sorted rfl

/-- The survey succeeds as well if the project in the inner directory comes first. -/
theorem housed_rearranged :
    (Solution.ofPath housedTree ⟨"All.sln"⟩).toOption = some housed ∧
    [guestProject, hostProject].Perm housed.projects ∧ (housed.projects.map (·.name)).Nodup ∧
    PlainlyApart housed.projects ∧
    run readClass housedTree .standard housed =
      .ok (report readClass .standard housed housedSources) ∧
    ∃ other,
      run readClass housedTree .standard { housed with projects := [guestProject, hostProject] } =
        .ok other ∧
      Rearranged readClass housedTree .standard housed [guestProject, hostProject]
        (report readClass .standard housed housedSources) other := by
  have perm : [guestProject, hostProject].Perm housed.projects := .swap _ _ _
  have names : (housed.projects.map (·.name)).Nodup := by decide
  have apart : PlainlyApart housed.projects := ⟨by decide +kernel, by decide⟩
  have surveyed : run readClass housedTree .standard housed =
      .ok (report readClass .standard housed housedSources) := run_eq_report load_housed
  have alike := endAlike_of_perm readClass housedTree .standard perm names apart
  exact ⟨by decide +kernel, perm, names, apart, surveyed, alike.exists_related surveyed⟩

end Housed

end Survey

end SolutionSurvey

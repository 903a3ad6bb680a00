import SolutionSurvey.Proofs.Solution.Respelling
import SolutionSurvey.Proofs.Survey.Figures

/-!
# How the path of a solution is spelled

A solution is opened by a path that leads to its file, and the directory of this path is where its
sources are looked for.  All spellings of the directory lead to the same sources, except that nothing
is found where the directory is not spelled at all, as before a bare file name.
-/

namespace SolutionSurvey

open FileTree (SameFile)

/-! ### Opening the same file -/

section Opening

variable {tree : FileTree}

theorem FileTree.FollowedAlike.congr {left right other another : Path}
    (alike : tree.FollowedAlike left right) (leftSame : other.components = left.components)
    (rightSame : another.components = right.components) : tree.FollowedAlike other another := by
  obtain ⟨leftStart, leftNames⟩ := Path.components_eq_iff.mp leftSame
  obtain ⟨rightStart, rightNames⟩ := Path.components_eq_iff.mp rightSame
  intro names proper way
  unfold LeadsDown
  rw [leftStart, leftNames, rightStart, rightNames]
  exact alike names proper way

variable {left right : Path}

theorem respelled_of_followedAlike (alike : tree.FollowedAlike left right) :
    Respelled tree left.components right.components left right where
  components := ⟨[], (List.append_nil _).symm, (List.append_nil _).symm⟩
  followed := alike

/-- A project file in a directory is opened by either spelling, with the directory it lies in. -/
theorem respelledProject_ofFile {name file : String} (proper : Path.properName file)
    (alike : tree.FollowedAlike left right) :
    EndAlike (RespelledProject tree left.components right.components)
      (Project.ofFile tree name (left.join ⟨file⟩))
      (Project.ofFile tree name (right.join ⟨file⟩)) := by
  have joined := (respelled_of_followedAlike alike).join proper
  obtain ⟨leftParent, leftFound, leftSame⟩ := Path.exists_parent?_join proper left
  obtain ⟨rightParent, rightFound, rightSame⟩ := Path.exists_parent?_join proper right
  unfold Project.ofFile FileTree.isFile
  rw [joined.find?_eq, leftFound, rightFound]
  split
  · exact .succeeded ⟨rfl, leftSame, rightSame, alike.congr leftSame rightSame⟩
  · exact .failed _ _

end Opening

namespace Manifest

/-- A row is read without regard to the directory of the manifest, which is put before its path. -/
theorem entries_eq_map (text : String) (directory : Path) :
    entries text directory =
      (entries text ⟨""⟩).map fun entry => ⟨entry.name, directory.join entry.path⟩ := by
  have bare : ∀ path : Path, (⟨""⟩ : Path).join path = path := by
    intro path
    unfold Path.join
    split <;> simp
  unfold entries
  rw [List.map_filterMap]
  congr 1
  funext line
  unfold entryOf?
  cases row? line with
  | none => rfl
  | some row =>
      simp only [Option.bind_some]
      split
      · simp only [Option.map_some, bare]
      · rfl

end Manifest

namespace Survey

section Definitions

variable (read : TreeReader) (tree : FileTree) (settings : Settings)

/-- A path leads to a project file, or to a manifest whose rows name project files beside it. -/
def ListsBeside (path : Path) : Prop :=
  path.extension? = some "csproj" ∨ ∀ content text, tree.content? path = some content →
    content.text? = some text → ∀ entry ∈ Manifest.entries text ⟨""⟩,
      Path.properName entry.path.text

/-- The files on disk that each project of a solution finds. -/
def sourcesFound (solution : Solution) : List (String × List (Option (List String))) :=
  solution.projects.map fun project =>
    (project.name, (Sources.collect tree settings project.directory).map tree.way?)

/-- Two paths open solutions whose projects find the same files on disk and whose surveys show the
same figures, or they both open none. -/
def SurveyedAlike (left right : Path) : Prop :=
  EndAlike (fun first second =>
      sourcesFound tree settings first = sourcesFound tree settings second ∧
      EndAlike SameFigures (run read tree settings first) (run read tree settings second))
    (Solution.ofPath tree left) (Solution.ofPath tree right)

/-- No project of the solution at a path finds a source. -/
def NoSources (path : Path) : Prop :=
  ∀ solution, Solution.ofPath tree path = .ok solution → ∀ project ∈ solution.projects,
    Sources.collect tree settings project.directory = []

end Definitions

variable {read : TreeReader} {tree : FileTree} {settings : Settings} {left right : Path}
  {name : String}

/-! ### Opening a solution -/

section Opening

variable (proper : Path.properName name) (alike : tree.FollowedAlike left right)

include proper alike

theorem respelled_ofProject :
    EndAlike (fun first second : Solution =>
        List.Forall₂ (RespelledProject tree left.components right.components) first.projects
          second.projects)
      (Solution.ofProject tree (left.join ⟨name⟩))
      (Solution.ofProject tree (right.join ⟨name⟩)) := by
  unfold Solution.ofProject Path.stem
  rw [Path.fileName?_join proper, Path.fileName?_join proper]
  apply (respelledProject_ofFile proper alike).bind
  intro project other respelled
  exact .succeeded (.cons respelled .nil)

theorem respelled_ofManifest
    (beside : ∀ content text, tree.content? (left.join ⟨name⟩) = some content →
      content.text? = some text → ∀ entry ∈ Manifest.entries text ⟨""⟩,
        Path.properName entry.path.text) :
    EndAlike (fun first second : Solution =>
        List.Forall₂ (RespelledProject tree left.components right.components) first.projects
          second.projects)
      (Solution.ofManifest tree (left.join ⟨name⟩))
      (Solution.ofManifest tree (right.join ⟨name⟩)) := by
  have joined := (respelled_of_followedAlike alike).join proper
  obtain ⟨leftParent, leftFound, leftSame⟩ := Path.exists_parent?_join proper left
  obtain ⟨rightParent, rightFound, rightSame⟩ := Path.exists_parent?_join proper right
  unfold Solution.ofManifest
  rw [joined.content?_eq, leftFound, rightFound, Option.getD_some, Option.getD_some]
  rw [joined.content?_eq] at beside
  cases held : tree.content? (right.join ⟨name⟩) with
  | none => exact .failed _ _
  | some content =>
      cases spelled : content.text? with
      | none =>
          simp only [spelled]
          exact .failed _ _
      | some text =>
          simp only [spelled]
          rw [Manifest.entries_eq_map text leftParent, Manifest.entries_eq_map text rightParent]
          -- Row by row the same project file is named, in the one or the other directory.
          have rows : List.Forall₂ (fun first second : ProjectEntry => first.name = second.name ∧
              ∃ file, Path.properName file ∧ first.path = leftParent.join ⟨file⟩ ∧
                second.path = rightParent.join ⟨file⟩)
              ((Manifest.entries text ⟨""⟩).map fun entry =>
                ⟨entry.name, leftParent.join entry.path⟩)
              ((Manifest.entries text ⟨""⟩).map fun entry =>
                ⟨entry.name, rightParent.join entry.path⟩) := by
            rw [List.forall₂_map_left_iff, List.forall₂_map_right_iff, List.forall₂_same]
            intro entry membership
            have properFile := beside content text held spelled entry membership
            exact ⟨rfl, entry.path.text, properFile, rfl, rfl⟩
          refine (endAlike_mapM rows ?_).bind fun opened others respelled => .succeeded respelled
          rintro first second ⟨sameName, file, properFile, firstPath, secondPath⟩
          rw [sameName, firstPath, secondPath, ← leftSame, ← rightSame]
          exact respelledProject_ofFile properFile (alike.congr leftSame rightSame)

/-- A solution that is opened by two spellings has the same projects, with their directories spelled
in the one or in the other way. -/
theorem respelled_ofPath (beside : ListsBeside tree (left.join ⟨name⟩)) :
    EndAlike (fun first second : Solution =>
        List.Forall₂ (RespelledProject tree left.components right.components) first.projects
          second.projects)
      (Solution.ofPath tree (left.join ⟨name⟩)) (Solution.ofPath tree (right.join ⟨name⟩)) := by
  have extensions : (right.join ⟨name⟩).extension? = (left.join ⟨name⟩).extension? := by
    unfold Path.extension?
    rw [Path.fileName?_join proper, Path.fileName?_join proper]
  unfold Solution.ofPath
  rw [extensions]
  by_cases isProject : (left.join ⟨name⟩).extension? = some "csproj"
  · rw [isProject, BEq.rfl, if_pos rfl, if_pos rfl]
    exact respelled_ofProject proper alike
  · rw [if_neg (by simpa using isProject), if_neg (by simpa using isProject)]
    exact respelled_ofManifest proper alike (beside.resolve_left isProject)

end Opening

/-! ### Surveying it -/

/-- If the owned files are the same ones, so are the figures of both surveys. -/
theorem endAlike_run_of_assign {solution other : Solution}
    (assigned : List.Forall₂ (fun owned another : Ownership.Owned =>
        tree.find? owned.path = tree.find? another.path)
      (Ownership.assign tree settings solution.projects)
      (Ownership.assign tree settings other.projects)) :
    EndAlike SameFigures (run read tree settings solution) (run read tree settings other) := by
  have outcomes : List.Forall₂ LoadedSources.OutcomeAlike
      ((Ownership.assign tree settings solution.projects).map
        (LoadedSources.outcome read tree settings solution.projects))
      ((Ownership.assign tree settings other.projects).map
        (LoadedSources.outcome read tree settings other.projects)) := by
    rw [List.forall₂_map_left_iff, List.forall₂_map_right_iff]
    exact assigned.imp fun _ _ same => LoadedSources.outcomeAlike_of_find? same
  have loaded : EndAlike _ (LoadedSources.load read tree settings solution.projects)
      (LoadedSources.load read tree settings other.projects) :=
    LoadedSources.endAlike_ofOutcomes read solution.projects.length other.projects.length outcomes
  unfold run
  cases done : LoadedSources.load read tree settings solution.projects with
  | error cause =>
      cases doneToo : LoadedSources.load read tree settings other.projects with
      | error reason => exact .failed cause reason
      | ok otherSources =>
          rw [done, doneToo] at loaded
          cases loaded
  | ok sources =>
      cases doneToo : LoadedSources.load read tree settings other.projects with
      | error reason =>
          rw [done, doneToo] at loaded
          cases loaded
      | ok otherSources =>
          rw [done, doneToo] at loaded
          cases loaded with
          | succeeded same => exact .succeeded (sameFigures_of_files done doneToo same)

theorem assign_of_no_sources {projects : List Project}
    (nothing : ∀ project ∈ projects, Sources.collect tree settings project.directory = []) :
    Ownership.assign tree settings projects = [] := by
  have unclaimed : Ownership.claims tree settings projects = [] := by
    apply List.flatMap_eq_nil_iff.mpr
    intro entry numbered
    exact List.map_eq_nil_iff.mpr (nothing entry.1 (List.fst_mem_of_mem_zipIdx numbered))
  unfold Ownership.assign
  rw [unclaimed]
  exact List.mergeSort_nil

/-- A directory that is not spelled at all hides all sources. -/
theorem no_sources_of_unwritten {projects : List Project} {base : Path} (unwritten : base.text = "")
    (spelled : ∀ project ∈ projects, project.directory.components = base.components) :
    ∀ project ∈ projects, Sources.collect tree settings project.directory = [] := by
  intro project listed
  apply Sources.collect_of_unwritten
  rw [← Path.components_eq_nil_iff, spelled project listed, Path.components_eq_nil_iff, unwritten]

/-- If one solution finds no sources and the other finds the same, it finds none either. -/
theorem no_sources_of_found {solution other : Solution}
    (found : sourcesFound tree settings solution = sourcesFound tree settings other)
    (nothing : ∀ project ∈ solution.projects,
      Sources.collect tree settings project.directory = []) :
    ∀ project ∈ other.projects, Sources.collect tree settings project.directory = [] := by
  intro project listed
  have among : (project.name, (Sources.collect tree settings project.directory).map tree.way?) ∈
      sourcesFound tree settings solution := by
    rw [found]
    exact List.mem_map_of_mem listed
  obtain ⟨another, inSolution, same⟩ := List.mem_map.mp among
  rw [nothing another inSolution, List.map_nil, Prod.mk.injEq] at same
  exact List.map_eq_nil_iff.mp same.2.symm

section Surveying

variable {solution other : Solution}
  (respelled : List.Forall₂ (RespelledProject tree left.components right.components)
    solution.projects other.projects)

include respelled

/-- Where both spellings of a directory are written out, nothing depends on the spelling. -/
theorem alike_of_written (leftWritten : left.text ≠ "") (rightWritten : right.text ≠ "") :
    sourcesFound tree settings solution = sourcesFound tree settings other ∧
      EndAlike SameFigures (run read tree settings solution) (run read tree settings other) := by
  have leftSpelled := mt Path.components_eq_nil_iff.mp leftWritten
  have rightSpelled := mt Path.components_eq_nil_iff.mp rightWritten
  constructor
  · apply map_eq_map_of_forall₂ respelled
    intro project another respelledProject
    have collected : List.Forall₂ _ (Sources.collect tree settings project.directory)
        (Sources.collect tree settings another.directory) :=
      respelledProject.collect leftSpelled rightSpelled
    rw [respelledProject.name, map_eq_map_of_forall₂ collected fun _ _ entry => entry.way?_eq]
  · apply endAlike_run_of_assign
    have assigned : List.Forall₂ _ (Ownership.assign tree settings solution.projects)
        (Ownership.assign tree settings other.projects) :=
      Ownership.respelled_assign respelled leftSpelled rightSpelled
    exact assigned.imp fun _ _ owned => owned.path.find?_eq

/-- Where no project finds a source, both surveys are empty. -/
theorem alike_of_no_sources
    (nothing : ∀ project ∈ solution.projects, Sources.collect tree settings project.directory = [])
    (nothingToo : ∀ project ∈ other.projects,
      Sources.collect tree settings project.directory = []) :
    sourcesFound tree settings solution = sourcesFound tree settings other ∧
      EndAlike SameFigures (run read tree settings solution) (run read tree settings other) := by
  constructor
  · have bare : ∀ projects : List Project,
        (∀ project ∈ projects, Sources.collect tree settings project.directory = []) →
          projects.map (fun project =>
            (project.name, (Sources.collect tree settings project.directory).map tree.way?)) =
              projects.map fun project => (project.name, []) := by
      intro projects nothing
      refine List.map_congr_left fun project listed => ?_
      rw [nothing project listed, List.map_nil]
    unfold sourcesFound
    rw [bare _ nothing, bare _ nothingToo]
    exact map_eq_map_of_forall₂ respelled fun _ _ project => congrArg (·, []) project.name
  · apply endAlike_run_of_assign
    rw [assign_of_no_sources nothing, assign_of_no_sources nothingToo]
    exact .nil

theorem alike_iff_of_respelled :
    (sourcesFound tree settings solution = sourcesFound tree settings other ∧
        EndAlike SameFigures (run read tree settings solution) (run read tree settings other)) ↔
      (left.text = "" ↔ right.text = "") ∨
        ((∀ project ∈ solution.projects, Sources.collect tree settings project.directory = []) ∧
          ∀ project ∈ other.projects, Sources.collect tree settings project.directory = []) := by
  obtain ⟨spelled, spelledToo⟩ := Ownership.spelled_of_respelled respelled
  constructor
  · rintro ⟨found, _⟩
    by_cases leftWritten : left.text = ""
    · have nothing : ∀ project ∈ solution.projects,
          Sources.collect tree settings project.directory = [] :=
        no_sources_of_unwritten leftWritten spelled
      exact .inr ⟨nothing, no_sources_of_found found nothing⟩
    · by_cases rightWritten : right.text = ""
      · have nothing : ∀ project ∈ other.projects,
            Sources.collect tree settings project.directory = [] :=
          no_sources_of_unwritten rightWritten spelledToo
        exact .inr ⟨no_sources_of_found found.symm nothing, nothing⟩
      · exact .inl (iff_of_false leftWritten rightWritten)
  · rintro (alike | ⟨nothing, nothingToo⟩)
    · by_cases leftWritten : left.text = ""
      · exact alike_of_no_sources respelled (no_sources_of_unwritten leftWritten spelled)
          (no_sources_of_unwritten (alike.mp leftWritten) spelledToo)
      · exact alike_of_written respelled leftWritten (mt alike.mpr leftWritten)
    · exact alike_of_no_sources respelled nothing nothingToo

end Surveying

/-- Two spellings of the directory of a project, or of a manifest that lists projects beside it, make
no difference to what is found and shown, except when the directory is not spelled at all in one of
them and there are sources to be found. -/
theorem surveyedAlike_iff (proper : Path.properName name)
    (same : SameFile tree (left.join ⟨name⟩) (right.join ⟨name⟩))
    (direct : tree.linkless ∨ tree.SameDirectory left right)
    (beside : ListsBeside tree (left.join ⟨name⟩)) :
    SurveyedAlike read tree settings (left.join ⟨name⟩) (right.join ⟨name⟩) ↔
      (left.text = "" ↔ right.text = "") ∨
        (NoSources tree settings (left.join ⟨name⟩) ∧
          NoSources tree settings (right.join ⟨name⟩)) := by
  have directory : tree.SameDirectory left right := by
    rcases direct with linkless | directory
    · exact FileTree.sameDirectory_of_sameFile linkless proper same
    · exact directory
  have opened : EndAlike _ _ _ := respelled_ofPath proper directory.followedAlike beside
  unfold SurveyedAlike NoSources
  generalize Solution.ofPath tree (left.join ⟨name⟩) = leftOpened at opened ⊢
  generalize Solution.ofPath tree (right.join ⟨name⟩) = rightOpened at opened ⊢
  cases opened with
  | failed cause reason =>
      constructor
      · intro _
        refine .inr ⟨?_, ?_⟩ <;> rintro solution ⟨⟩
      · exact fun _ => .failed cause reason
  | @succeeded solution other respelled =>
      rw [endAlike_ok_iff, alike_iff_of_respelled respelled]
      simp only [Except.ok.injEq, forall_eq']

/-! ### A project beside its source -/

def loneTree : FileTree :=
  ⟨[ ("R.csproj", .file (.text "")), ("A.cs", .file (.text classText)), ("sub", .directory []) ]
  , by decide +kernel, by decide +kernel⟩

/-- Different spellings of the directory that are written out make no difference. -/
theorem lone_surveyedAlike :
    loneTree.linkless ∧
    SameFile loneTree ((⟨"."⟩ : Path).join ⟨"R.csproj"⟩) ((⟨"sub/.."⟩ : Path).join ⟨"R.csproj"⟩) ∧
    ListsBeside loneTree ((⟨"."⟩ : Path).join ⟨"R.csproj"⟩) ∧
    SurveyedAlike readClass loneTree .standard ((⟨"."⟩ : Path).join ⟨"R.csproj"⟩)
      ((⟨"sub/.."⟩ : Path).join ⟨"R.csproj"⟩) := by
  have linkless : loneTree.linkless := by decide +kernel
  have same : SameFile loneTree ((⟨"."⟩ : Path).join ⟨"R.csproj"⟩)
      ((⟨"sub/.."⟩ : Path).join ⟨"R.csproj"⟩) :=
    ⟨["R.csproj"], by decide +kernel, by decide +kernel⟩
  have beside : ListsBeside loneTree ((⟨"."⟩ : Path).join ⟨"R.csproj"⟩) := .inl (by decide +kernel)
  refine ⟨linkless, same, beside, ?_⟩
  apply (surveyedAlike_iff (by decide +kernel) same (.inl linkless) beside).mpr
  exact .inl (by decide)

def loneOpened (file directory : String) : Solution :=
  ⟨"R", ⟨file⟩, [⟨"R", ⟨file⟩, ⟨directory⟩⟩]⟩

def loneSources : LoadedSources := ⟨[⟨"R", ⟨"./A.cs"⟩, classText, classTree⟩], [⟨0, 1⟩], []⟩

theorem load_lone_bare : LoadedSources.load readClass loneTree .standard
    (loneOpened "R.csproj" "").projects = .ok ⟨[], [⟨0, 0⟩], []⟩ := by
  have nothing : Sources.collect loneTree .standard ⟨""⟩ = [] := by decide +kernel
  have claimed : Ownership.claims loneTree .standard (loneOpened "R.csproj" "").projects = [] := by
    simp [Ownership.claims, loneOpened, nothing]
  exact LoadedSources.load_of_claims [] claimed rfl .nil rfl

theorem load_lone_dotted : LoadedSources.load readClass loneTree .standard
    (loneOpened "./R.csproj" ".").projects = .ok loneSources := by
  have found : Sources.collect loneTree .standard ⟨"."⟩ = [⟨"./A.cs"⟩] := by decide +kernel
  have claimed : Ownership.claims loneTree .standard (loneOpened "./R.csproj" ".").projects =
      [⟨0, ⟨"./A.cs"⟩⟩] := by
    simp [Ownership.claims, loneOpened, found]
  exact LoadedSources.load_of_claims [(0, ⟨"R", ⟨"./A.cs"⟩, classText, classTree⟩)] claimed rfl
    (List.pairwise_singleton ..) rfl

/-- Opened by its bare name, the project finds no source; opened with a leading `./`, it does. -/
theorem lone_not_surveyedAlike :
    SameFile loneTree ⟨"R.csproj"⟩ ⟨"./R.csproj"⟩ ∧
    (Solution.ofPath loneTree ⟨"R.csproj"⟩).toOption = some (loneOpened "R.csproj" "") ∧
    (Solution.ofPath loneTree ⟨"./R.csproj"⟩).toOption = some (loneOpened "./R.csproj" ".") ∧
    (run readClass loneTree .standard (loneOpened "R.csproj" "")).toOption.map (·.totalFiles) =
      some 0 ∧
    (run readClass loneTree .standard (loneOpened "./R.csproj" ".")).toOption.map (·.totalFiles) =
      some 1 ∧
    ¬SurveyedAlike readClass loneTree .standard ⟨"R.csproj"⟩ ⟨"./R.csproj"⟩ := by
  have bare : (Solution.ofPath loneTree ⟨"R.csproj"⟩).toOption =
      some (loneOpened "R.csproj" "") := by decide +kernel
  have dotted : (Solution.ofPath loneTree ⟨"./R.csproj"⟩).toOption =
      some (loneOpened "./R.csproj" ".") := by decide +kernel
  refine ⟨⟨["R.csproj"], by decide +kernel, by decide +kernel⟩, bare, dotted, ?_, ?_, ?_⟩
  · rw [run_eq_report load_lone_bare]
    decide +kernel
  · rw [run_eq_report load_lone_dotted]
    decide +kernel
  · intro surveyed
    obtain ⟨found, _⟩ := surveyed.related bare dotted
    revert found
    decide +kernel

end Survey

end SolutionSurvey

import SolutionSurvey.Proofs.Duplication.Rearrangement
import SolutionSurvey.Proofs.Solution.Removal
import SolutionSurvey.Proofs.Survey.Conservation
import SolutionSurvey.Proofs.Survey.Outcomes

/-!
# Files that cannot be parsed

Under the policy to skip them, files that cannot be parsed leave no trace in a report but their names:
it is the report of the tree without these files.  The only exception is a path on which more links
are followed than allowed.  The file behind it counts as missing, and a missing file makes the survey
fail.  Under the policy to abort, a survey succeeds just if nothing has to be skipped.
-/

namespace SolutionSurvey

open FileTree (GoneLeadsTo)

/-! ### The tree without these files -/

namespace Survey

open SourceFile (isUnparsable)
open Ownership (Owned assign)

section Definitions

variable (read : TreeReader) (tree : FileTree) (settings : Settings) (projects : List Project)

/-- The sources of some projects that cannot be parsed. -/
def brokenSources : List Path :=
  ((assign tree settings projects).map (·.path)).filter (isUnparsable read tree)

/-- Whether a way leads to the entry of one of these sources. -/
def isBrokenWay (way : List String) : Bool :=
  ((brokenSources read tree settings projects).filterMap tree.entryWay?).contains way

def withoutBroken : FileTree := tree.without (isBrokenWay read tree settings projects)

/-- Every source whose entry is taken out can be followed to the file behind it. -/
def AllFound : Prop :=
  ∀ owned ∈ assign tree settings projects,
    tree.isGone (isBrokenWay read tree settings projects) owned.path → tree.holds owned.path

/-- A way that leads to a file which cannot be parsed. -/
def LeadsToBroken (way : List String) : Prop :=
  ∃ content, tree.entryAt? way = some (.file content) ∧ content.isBroken read

end Definitions

variable {read : TreeReader} {tree : FileTree} {settings : Settings} {projects : List Project}

theorem isUnparsable_iff {path : Path} : isUnparsable read tree path ↔
    ∃ way, tree.way? path = some way ∧ LeadsToBroken read tree way := by
  have broken : isUnparsable read tree path ↔
      ∃ content, tree.content? path = some content ∧ content.isBroken read := by
    unfold isUnparsable
    cases tree.content? path <;> simp
  rw [broken]
  constructor
  · rintro ⟨content, found, isBroken⟩
    obtain ⟨way, leadsTo, entry⟩ := FileTree.content?_eq_some_iff.mp found
    exact ⟨way, leadsTo, content, entry, isBroken⟩
  · rintro ⟨way, leadsTo, content, entry, isBroken⟩
    exact ⟨content, FileTree.content?_eq_some_iff.mpr ⟨way, leadsTo, entry⟩, isBroken⟩

theorem listed_of_mem_assign {owned : Owned} (assigned : owned ∈ assign tree settings projects) :
    tree.isDirectory owned.path = false ∧ owned.path.EndsInName ∧
      ∃ way name, Sources.ListedIn tree owned.path way name := by
  obtain ⟨made, claimed, same⟩ := Ownership.settles_assign.reached owned assigned
  obtain ⟨project, _, collected⟩ := Ownership.mem_claims.mp claimed
  rw [same] at collected
  obtain ⟨noDirectory, listed⟩ := Sources.listed_of_mem_collect collected
  exact ⟨noDirectory, (Sources.spelledBelow_of_mem_collect collected).ending, listed⟩

theorem isBrokenWay_iff {way : List String} {name : String} :
    isBrokenWay read tree settings projects (way ++ [name]) ↔
      ∃ path ∈ brokenSources read tree settings projects, Sources.ListedIn tree path way name := by
  rw [isBrokenWay, List.contains_iff_mem, List.mem_filterMap]
  constructor
  · rintro ⟨path, broken, entryWay⟩
    obtain ⟨owned, assigned, rfl⟩ := List.mem_map.mp (List.mem_of_mem_filter broken)
    obtain ⟨_, _, other, last, listed⟩ := listed_of_mem_assign assigned
    rw [listed.entryWay?_eq, Option.some.injEq, List.append_singleton_inj] at entryWay
    obtain ⟨rfl, rfl⟩ := entryWay
    exact ⟨owned.path, broken, listed⟩
  · rintro ⟨path, broken, listed⟩
    exact ⟨path, broken, listed.entryWay?_eq⟩

/-- Every entry that is taken out led to a file that cannot be parsed. -/
theorem goneLeadsTo_broken :
    GoneLeadsTo (isBrokenWay read tree settings projects) tree (LeadsToBroken read tree) where
  goesDown way name taken := by
    obtain ⟨path, _, listed⟩ := (isBrokenWay_iff).mp taken
    exact listed.goesDown
  leads way name taken := by
    obtain ⟨path, broken, listed⟩ := (isBrokenWay_iff).mp taken
    obtain ⟨last, found, leadsToBroken⟩ := isUnparsable_iff.mp (List.mem_filter.mp broken).2
    obtain ⟨links, leads⟩ := listed.leads_of_way? found
    exact ⟨links, last, leads, leadsToBroken⟩
  noDirectory way leadsToBroken := by
    obtain ⟨content, file, _⟩ := leadsToBroken
    rw [FileTree.entriesAt?_eq_bind_entryAt?, file]
    rfl

section Assigned

variable {owned : Owned} (assigned : owned ∈ assign tree settings projects)

include assigned

/-- The entry of a source that cannot be parsed is taken out. -/
theorem isGone_of_unparsable (unparsable : isUnparsable read tree owned.path) :
    tree.isGone (isBrokenWay read tree settings projects) owned.path := by
  obtain ⟨_, _, way, name, listed⟩ := listed_of_mem_assign assigned
  rw [listed.isGone_eq, isBrokenWay_iff]
  exact ⟨owned.path, List.mem_filter.mpr ⟨List.mem_map_of_mem assigned, unparsable⟩, listed⟩

/-- Only sources that cannot be parsed have their entries taken out, if they are found at all. -/
theorem unparsable_of_isGone
    (taken : tree.isGone (isBrokenWay read tree settings projects) owned.path)
    (found : tree.holds owned.path) : isUnparsable read tree owned.path := by
  obtain ⟨_, _, way, name, listed⟩ := listed_of_mem_assign assigned
  rw [listed.isGone_eq] at taken
  rw [FileTree.holds, FileTree.find?_eq_bind_way?] at found
  obtain ⟨location, reached⟩ := Option.isSome_iff_exists.mp found
  obtain ⟨last, leadsTo, _⟩ := Option.bind_eq_some_iff.mp reached
  obtain ⟨links, leads⟩ := listed.leads_of_way? leadsTo
  exact isUnparsable_iff.mpr ⟨last, leadsTo, goneLeadsTo_broken.kind_of_leads taken leads⟩

/-- What is left is loaded as before. -/
theorem outcome_withoutBroken
    (kept : ¬tree.isGone (isBrokenWay read tree settings projects) owned.path) :
    LoadedSources.outcome read (withoutBroken read tree settings projects) settings projects owned =
      LoadedSources.outcome read tree settings projects owned := by
  obtain ⟨noDirectory, ending, _⟩ := listed_of_mem_assign assigned
  have otherKind : ∀ way, tree.way? owned.path = some way → ¬LeadsToBroken read tree way := by
    intro way leadsTo broken
    have unparsable := isUnparsable_iff.mpr ⟨way, leadsTo, broken⟩
    exact kept (isGone_of_unparsable assigned unparsable)
  have goneLeads : GoneLeadsTo (isBrokenWay read tree settings projects) tree _ :=
    goneLeadsTo_broken
  have same := goneLeads.entry_without ending noDirectory otherKind
  unfold LoadedSources.outcome
  rw [withoutBroken, SourceFile.load_congr_entry same]

end Assigned

/-! ### Skipping -/

theorem outcomes_withoutBroken :
    (assign (withoutBroken read tree settings projects) settings projects).map
        (LoadedSources.outcome read (withoutBroken read tree settings projects) settings projects) =
      ((assign tree settings projects).filter fun owned =>
        !tree.isGone (isBrokenWay read tree settings projects) owned.path).map
          (LoadedSources.outcome read tree settings projects) := by
  have goneLeads : GoneLeadsTo (isBrokenWay read tree settings projects) tree _ :=
    goneLeadsTo_broken
  have left : assign (withoutBroken read tree settings projects) settings projects = _ :=
    Ownership.assign_without goneLeads projects
  rw [left]
  refine List.map_congr_left fun owned membership => ?_
  obtain ⟨assigned, kept⟩ := List.mem_filter.mp membership
  exact outcome_withoutBroken assigned (by simpa using kept)

/-- The names of the sources that cannot be parsed, in order. -/
def brokenNames (read : TreeReader) (tree : FileTree) (settings : Settings)
    (projects : List Project) : List String :=
  ((brokenSources read tree settings projects).map Path.text).mergeSort (weakly compare)

section Skip

variable (skip : settings.brokenFiles = .skip)

include skip

theorem skipped?_outcome (owned : Owned) :
    (LoadedSources.outcome read tree settings projects owned).skipped? =
      if isUnparsable read tree owned.path then some owned.path.text else none := by
  rcases LoadedSources.outcomeEnds read tree projects owned with
    ⟨unparsable, skips, _⟩ | ⟨file, parsable, _, loads⟩ | ⟨cause, parsable, fails⟩
  · rw [skips settings skip, if_pos unparsable]
    rfl
  · rw [loads, parsable]
    rfl
  · rw [fails, parsable]
    rfl

theorem filterMap_skipped?_outcome :
    ((assign tree settings projects).map
        (LoadedSources.outcome read tree settings projects)).filterMap
          LoadedSources.Outcome.skipped? =
      (brokenSources read tree settings projects).map Path.text := by
  have names : (assign tree settings projects).filterMap (fun owned =>
      (LoadedSources.outcome read tree settings projects owned).skipped?) =
        ((assign tree settings projects).filter fun owned =>
          isUnparsable read tree owned.path).map fun owned => owned.path.text :=
    filterMap_of_filter fun owned _ => skipped?_outcome skip owned
  rw [List.filterMap_map, brokenSources, List.filter_map, List.map_map]
  exact names

theorem outcome_of_isGone {owned : Owned} (assigned : owned ∈ assign tree settings projects)
    (taken : tree.isGone (isBrokenWay read tree settings projects) owned.path) :
    (LoadedSources.outcome read tree settings projects owned).file? = none ∧
      ((LoadedSources.outcome read tree settings projects owned).failure? = none ↔
        tree.holds owned.path) := by
  by_cases found : tree.holds owned.path
  · have unparsable := unparsable_of_isGone assigned taken found
    rcases LoadedSources.outcomeEnds read tree projects owned with
      ⟨_, skips, _⟩ | ⟨file, parsable, _, loads⟩ | ⟨cause, parsable, fails⟩
    · rw [skips settings skip]
      exact ⟨rfl, iff_of_true rfl found⟩
    · simp [parsable] at unparsable
    · simp [parsable] at unparsable
  · rw [LoadedSources.outcome_of_missing (by simpa using found)]
    refine ⟨rfl, iff_of_false ?_ found⟩
    rintro ⟨⟩

/-- Loading skips the files that cannot be parsed and is otherwise what it is without them. -/
theorem load_eq_ok_iff_withoutBroken {sources : LoadedSources} :
    LoadedSources.load read tree settings projects = .ok sources ↔
      AllFound read tree settings projects ∧ ∃ clean,
        LoadedSources.load read (withoutBroken read tree settings projects) settings projects =
            .ok clean ∧
          sources = { clean with skipped := brokenNames read tree settings projects } := by
  unfold LoadedSources.load
  simp only [LoadedSources.ofOutcomes_eq_ok_iff, outcomes_withoutBroken, List.forall_mem_map]
  -- What is taken out brings no file, and fails just if it is not found.
  have gathered : LoadedSources.gathered projects.length ((assign tree settings projects).map
      (LoadedSources.outcome read tree settings projects)) =
        { LoadedSources.gathered projects.length (((assign tree settings projects).filter fun owned =>
            !tree.isGone (isBrokenWay read tree settings projects) owned.path).map
              (LoadedSources.outcome read tree settings projects)) with
          skipped := brokenNames read tree settings projects } := by
    have files : ∀ owned ∈ assign tree settings projects,
        (!tree.isGone (isBrokenWay read tree settings projects) owned.path) = false →
          (LoadedSources.outcome read tree settings projects owned).file? = none := by
      intro owned assigned taken
      exact (outcome_of_isGone skip assigned (by simpa using taken)).1
    unfold LoadedSources.gathered brokenNames
    rw [filterMap_skipped?_outcome skip, List.filterMap_map, List.filterMap_map]
    have same := filterMap_filter_of_none files
    simp only [Function.comp_def, same]
  have failures : (∀ owned ∈ assign tree settings projects,
      (LoadedSources.outcome read tree settings projects owned).failure? = none) ↔
        AllFound read tree settings projects ∧
          ∀ owned ∈ (assign tree settings projects).filter fun owned =>
              !tree.isGone (isBrokenWay read tree settings projects) owned.path,
            (LoadedSources.outcome read tree settings projects owned).failure? = none := by
    constructor
    · intro noFailure
      refine ⟨fun owned assigned taken => ?_, fun owned membership => ?_⟩
      · exact (outcome_of_isGone skip assigned taken).2.mp (noFailure owned assigned)
      · exact noFailure owned (List.mem_of_mem_filter membership)
    · rintro ⟨found, noFailure⟩ owned assigned
      by_cases taken : tree.isGone (isBrokenWay read tree settings projects) owned.path
      · exact (outcome_of_isGone skip assigned taken).2.mpr (found owned assigned taken)
      · exact noFailure owned (List.mem_filter.mpr ⟨assigned, by simpa using taken⟩)
  rw [gathered, failures]
  constructor
  · rintro ⟨⟨found, noFailure⟩, rfl⟩
    exact ⟨found, _, ⟨noFailure, rfl⟩, rfl⟩
  · rintro ⟨found, clean, ⟨noFailure, rfl⟩, rfl⟩
    exact ⟨⟨found, noFailure⟩, rfl⟩

end Skip

theorem run_eq_ok_iff {solution : Solution} {outcome : Report} :
    run read tree settings solution = .ok outcome ↔ ∃ sources,
      LoadedSources.load read tree settings solution.projects = .ok sources ∧
        outcome = report read settings solution sources := by
  constructor
  · exact eq_report_of_run
  · rintro ⟨sources, loaded, rfl⟩
    exact run_eq_report loaded

theorem run_skip_eq_ok_iff (skip : settings.brokenFiles = .skip)
    {solution : Solution} {outcome : Report} :
    run read tree settings solution = .ok outcome ↔
      AllFound read tree settings solution.projects ∧ ∃ clean,
        run read (withoutBroken read tree settings solution.projects) settings solution = .ok clean ∧
          outcome =
            { clean with skippedFiles := brokenNames read tree settings solution.projects } := by
  rw [run_eq_ok_iff]
  constructor
  · rintro ⟨sources, loaded, rfl⟩
    obtain ⟨found, clean, cleanLoaded, rfl⟩ := (load_eq_ok_iff_withoutBroken skip).mp loaded
    exact ⟨found, _, run_eq_report cleanLoaded, rfl⟩
  · rintro ⟨found, clean, done, rfl⟩
    obtain ⟨sources, loaded, rfl⟩ := run_eq_ok_iff.mp done
    exact ⟨_, (load_eq_ok_iff_withoutBroken skip).mpr ⟨found, sources, loaded, rfl⟩, rfl⟩

/-! ### Either file or name -/

/-- Every source is either loaded or cannot be parsed. -/
theorem perm_of_load_skip (skip : settings.brokenFiles = .skip) {sources : LoadedSources}
    (loaded : LoadedSources.load read tree settings projects = .ok sources) :
    (sources.files.map (·.path) ++ brokenSources read tree settings projects).Perm
      ((assign tree settings projects).map (·.path)) := by
  obtain ⟨noFailure, rfl⟩ := LoadedSources.ofOutcomes_eq_ok_iff.mp loaded
  have split : ∀ owned ∈ assign tree settings projects,
      ((LoadedSources.outcome read tree settings projects owned).file?.map (·.2.path) =
          some owned.path ∧
        (if isUnparsable read tree owned.path then some owned.path else none) = none) ∨
      ((LoadedSources.outcome read tree settings projects owned).file?.map (·.2.path) = none ∧
        (if isUnparsable read tree owned.path then some owned.path else none) =
          some owned.path) := by
    intro owned assigned
    have noFailureHere := noFailure _ (List.mem_map_of_mem assigned)
    rcases LoadedSources.outcomeEnds read tree projects owned with
      ⟨unparsable, skips, _⟩ | ⟨file, parsable, path, loads⟩ | ⟨cause, _, fails⟩
    · rw [skips settings skip, if_pos unparsable]
      exact .inr ⟨rfl, rfl⟩
    · rw [loads, parsable, ← path]
      exact .inl ⟨rfl, rfl⟩
    · rw [fails] at noFailureHere
      cases noFailureHere
  have files : (LoadedSources.gathered projects.length ((assign tree settings projects).map
      (LoadedSources.outcome read tree settings projects))).files.map (·.path) =
        (assign tree settings projects).filterMap fun owned =>
          (LoadedSources.outcome read tree settings projects owned).file?.map (·.2.path) := by
    simp only [LoadedSources.gathered, List.map_filterMap, List.filterMap_map, Option.map_map,
      Function.comp_def]
  have broken : (assign tree settings projects).filterMap (fun owned =>
      if isUnparsable read tree owned.path then some owned.path else none) =
        brokenSources read tree settings projects := by
    rw [brokenSources, List.filter_map]
    exact filterMap_of_filter fun owned _ => rfl
  rw [files, ← broken]
  exact perm_of_split split

/-! ### Aborting -/

theorem failure?_abort_eq_none_iff (owned : Owned) :
    (LoadedSources.outcome read tree { settings with brokenFiles := .abort } projects owned).failure? =
        none ↔
      (LoadedSources.outcome read tree { settings with brokenFiles := .skip } projects
          owned).failure? = none ∧
        (LoadedSources.outcome read tree { settings with brokenFiles := .skip } projects
          owned).skipped? = none := by
  rcases LoadedSources.outcomeEnds read tree projects owned with
    ⟨_, skips, aborts⟩ | ⟨file, _, path, loads⟩ | ⟨cause, _, fails⟩
  · obtain ⟨cause, aborted⟩ := aborts { settings with brokenFiles := .abort } rfl
    rw [skips { settings with brokenFiles := .skip } rfl, aborted]
    simp [LoadedSources.Outcome.failure?, LoadedSources.Outcome.skipped?]
  · rw [loads, loads]
    simp [LoadedSources.Outcome.failure?, LoadedSources.Outcome.skipped?]
  · rw [fails, fails]
    simp [LoadedSources.Outcome.failure?]

theorem outcome_abort_of_not_skipped {owned : Owned}
    (notSkipped : (LoadedSources.outcome read tree { settings with brokenFiles := .skip } projects
      owned).skipped? = none) :
    LoadedSources.outcome read tree { settings with brokenFiles := .abort } projects owned =
      LoadedSources.outcome read tree { settings with brokenFiles := .skip } projects owned := by
  rcases LoadedSources.outcomeEnds read tree projects owned with
    ⟨_, skips, _⟩ | ⟨file, _, _, loads⟩ | ⟨cause, _, fails⟩
  · rw [skips { settings with brokenFiles := .skip } rfl] at notSkipped
    cases notSkipped
  · rw [loads, loads]
  · rw [fails, fails]

/-- The policy has no part in what is owned. -/
theorem assign_policy (brokenFiles : BrokenFiles) :
    assign tree { settings with brokenFiles } projects = assign tree settings projects :=
  Ownership.assign_congr ⟨rfl, rfl⟩

theorem brokenSources_policy (brokenFiles : BrokenFiles) :
    brokenSources read tree { settings with brokenFiles } projects =
      brokenSources read tree settings projects := by
  rw [brokenSources, assign_policy]
  rfl

theorem brokenNames_policy (brokenFiles : BrokenFiles) :
    brokenNames read tree { settings with brokenFiles } projects =
      brokenNames read tree settings projects := by
  rw [brokenNames, brokenSources_policy]
  rfl

theorem isBrokenWay_policy (brokenFiles : BrokenFiles) :
    isBrokenWay read tree { settings with brokenFiles } projects =
      isBrokenWay read tree settings projects := by
  funext way
  rw [isBrokenWay, brokenSources_policy]
  rfl

theorem withoutBroken_policy (brokenFiles : BrokenFiles) :
    withoutBroken read tree { settings with brokenFiles } projects =
      withoutBroken read tree settings projects := by
  rw [withoutBroken, isBrokenWay_policy]
  rfl

theorem allFound_policy (brokenFiles : BrokenFiles) :
    AllFound read tree { settings with brokenFiles } projects =
      AllFound read tree settings projects := by
  rw [AllFound, assign_policy, isBrokenWay_policy]
  rfl

theorem load_abort_eq_ok_iff {sources : LoadedSources} :
    LoadedSources.load read tree { settings with brokenFiles := .abort } projects = .ok sources ↔
      LoadedSources.load read tree { settings with brokenFiles := .skip } projects = .ok sources ∧
        sources.skipped = [] := by
  unfold LoadedSources.load
  rw [assign_policy .abort, assign_policy .skip, LoadedSources.ofOutcomes_eq_ok_iff,
    LoadedSources.ofOutcomes_eq_ok_iff]
  simp only [List.forall_mem_map, failure?_abort_eq_none_iff, forall_and]
  have same : (∀ owned ∈ assign tree settings projects, (LoadedSources.outcome read tree
      { settings with brokenFiles := .skip } projects owned).skipped? = none) →
        (assign tree settings projects).map (LoadedSources.outcome read tree
            { settings with brokenFiles := .abort } projects) =
          (assign tree settings projects).map (LoadedSources.outcome read tree
            { settings with brokenFiles := .skip } projects) := fun notSkipped =>
    List.map_congr_left fun owned assigned =>
      outcome_abort_of_not_skipped (notSkipped owned assigned)
  constructor
  · rintro ⟨⟨noFailure, notSkipped⟩, rfl⟩
    rw [same notSkipped]
    refine ⟨⟨noFailure, rfl⟩, LoadedSources.skipped_gathered_eq_nil_iff.mpr ?_⟩
    exact List.forall_mem_map.mpr notSkipped
  · rintro ⟨⟨noFailure, rfl⟩, noNames⟩
    have notSkipped := List.forall_mem_map.mp (LoadedSources.skipped_gathered_eq_nil_iff.mp noNames)
    rw [same notSkipped]
    exact ⟨⟨noFailure, notSkipped⟩, rfl⟩

/-! ### The whole survey -/

/-- What the files that cannot be parsed do to a survey.  Skipped, they leave nothing but their names
in the report of the tree without them; if the policy is to abort, there must be none. -/
structure LeavesNoTrace (read : TreeReader) (tree : FileTree) (settings : Settings)
    (solution : Solution) : Prop where
  skips : ∀ outcome, run read tree { settings with brokenFiles := .skip } solution = .ok outcome ↔
    AllFound read tree settings solution.projects ∧ ∃ clean,
      run read (withoutBroken read tree settings solution.projects)
          { settings with brokenFiles := .skip } solution = .ok clean ∧
        outcome = { clean with skippedFiles := brokenNames read tree settings solution.projects }
  /-- No source is both in a row and skipped, and none is in neither. -/
  accounts : ∀ outcome,
    run read tree { settings with brokenFiles := .skip } solution = .ok outcome →
      ∃ loaded : List Path, outcome.fileRows.map (·.filePath) = loaded.map Path.text ∧
        outcome.skippedFiles.Perm
          ((brokenSources read tree settings solution.projects).map Path.text) ∧
        (loaded ++ brokenSources read tree settings solution.projects).Perm
          ((assign tree settings solution.projects).map (·.path)) ∧
        ((loaded ++ brokenSources read tree settings solution.projects).map
          Path.components).Nodup
  aborts : ∀ outcome,
    run read tree { settings with brokenFiles := .abort } solution = .ok outcome ↔
      run read tree { settings with brokenFiles := .skip } solution = .ok outcome ∧
        outcome.skippedFiles = []
  /-- If the workers take other turns, the groups have the same content as without these files. -/
  anyTurns : ∀ sources clean,
    LoadedSources.load read tree { settings with brokenFiles := .skip } solution.projects =
        .ok sources →
      LoadedSources.load read (withoutBroken read tree settings solution.projects)
          { settings with brokenFiles := .skip } solution.projects = .ok clean →
        Duplication.GroupsAlike sources.files clean.files

/-- Files that cannot be parsed do not interfere with the rest of a survey, as long as every source
can be followed to the file behind it. -/
theorem leavesNoTrace (read : TreeReader) (settings : Settings) (solution : Solution) :
    LeavesNoTrace read tree settings solution where
  skips outcome := by
    have skipped := @run_skip_eq_ok_iff read tree { settings with brokenFiles := .skip } rfl
      solution outcome
    simp only [allFound_policy, withoutBroken_policy, brokenNames_policy] at skipped
    exact skipped
  accounts outcome done := by
    obtain ⟨sources, loaded, rfl⟩ := run_eq_ok_iff.mp done
    have split := perm_of_load_skip rfl loaded
    obtain ⟨_, clean, _, made⟩ := (load_eq_ok_iff_withoutBroken rfl).mp loaded
    have names : sources.skipped = _ := congrArg LoadedSources.skipped made
    rw [brokenSources_policy, assign_policy] at split
    rw [brokenNames_policy] at names
    refine ⟨sources.files.map (·.path), ?_, ?_, split, ?_⟩
    · rw [(arranged_report loaded).filePaths (LoadedSources.flatMap_filesOf loaded), List.map_map]
      rfl
    · change sources.skipped.Perm _
      rw [names]
      exact List.mergeSort_perm _ _
    · have apart : ((assign tree settings solution.projects).map (·.path.components)).Nodup :=
        Ownership.settles_assign.apart
      rw [(split.map Path.components).nodup_iff, List.map_map]
      exact apart
  aborts outcome := by
    simp only [run_eq_ok_iff, load_abort_eq_ok_iff]
    constructor
    · rintro ⟨sources, ⟨loaded, noNames⟩, rfl⟩
      exact ⟨⟨sources, loaded, rfl⟩, noNames⟩
    · rintro ⟨⟨sources, loaded, rfl⟩, noNames⟩
      exact ⟨sources, ⟨loaded, noNames⟩, rfl⟩
  anyTurns sources clean loaded cleanLoaded := by
    obtain ⟨_, known, knownLoaded, rfl⟩ := (load_eq_ok_iff_withoutBroken rfl).mp loaded
    rw [withoutBroken_policy, cleanLoaded] at knownLoaded
    obtain rfl := Except.ok.inj knownLoaded
    exact Duplication.groupsAlike_of_perm (.refl clean.files)

/-! ### A link to a file that cannot be parsed -/

def linkedEntries : List (String × Entry) :=
  [ ("R.csproj", .file (.text "")), ("bad.txt", .file (.text "class \x7b"))
  , ("A.cs", .file (.text classText)), ("b.cs", .link ⟨"bad.txt"⟩) ]

def linkedTree : FileTree := ⟨linkedEntries, by decide +kernel, by decide +kernel⟩

/-- The project in the directory of these entries is opened with a leading `./`. -/
def linked : Solution := ⟨"R", ⟨"./R.csproj"⟩, [⟨"R", ⟨"./R.csproj"⟩, ⟨"."⟩⟩]⟩

theorem assign_of_sorted_sources {paths : List Path}
    (all : Sources.below .full tree settings (tree.deepest + 1) ⟨"."⟩ = paths)
    (sorted : Sorted Path.order paths)
    (owned : Ownership.claimAll (Ownership.depthIn linked.projects) (paths.map (⟨0, ·⟩)) =
      paths.map (⟨0, ·⟩))
    (sortedToo : Sorted Owned.order (paths.map (⟨0, ·⟩))) :
    assign tree settings linked.projects = paths.map (⟨0, ·⟩) := by
  refine Ownership.assign_eq_of_sorted ?_ owned sortedToo
  have collected : Sources.collect tree settings ⟨"."⟩ = paths :=
    Sources.collectWith_eq_of_sorted all sorted
  simp [Ownership.claims, linked, collected]

theorem assign_linked : assign linkedTree .standard linked.projects =
    [⟨0, ⟨"./A.cs"⟩⟩, ⟨0, ⟨"./b.cs"⟩⟩] := by
  have found : Sources.below .full linkedTree .standard (linkedTree.deepest + 1) ⟨"."⟩ =
      [⟨"./A.cs"⟩, ⟨"./b.cs"⟩] := by
    decide +kernel
  refine assign_of_sorted_sources found ?_ (by decide +kernel) ?_
  · unfold Sorted
    decide +kernel
  · unfold Sorted
    decide +kernel

/-- The link leaves its name behind, and nothing else. -/
theorem linked_leavesNoTrace :
    brokenSources readClass linkedTree .standard linked.projects = [⟨"./b.cs"⟩] ∧
    LeavesNoTrace readClass linkedTree .standard linked := by
  refine ⟨?_, leavesNoTrace readClass .standard linked⟩
  rw [brokenSources, assign_linked]
  decide +kernel

/-- Hidden links to the directory itself, each of which leads twice along the one before it, and a
link on which forty of them are followed. -/
def windingTree : FileTree :=
  ⟨linkedEntries ++
    [ (".0", .link ⟨"."⟩), (".1", .link ⟨".0/.0"⟩), (".2", .link ⟨".1/.1"⟩), (".3", .link ⟨".2/.2"⟩)
    , (".4", .link ⟨".3/.3"⟩), ("d", .link ⟨".4/.2/.0"⟩) ]
  , by decide +kernel, by decide +kernel⟩

theorem assign_winding : assign windingTree .standard linked.projects =
    [⟨0, ⟨"./A.cs"⟩⟩, ⟨0, ⟨"./b.cs"⟩⟩, ⟨0, ⟨"./d/A.cs"⟩⟩, ⟨0, ⟨"./d/b.cs"⟩⟩] := by
  have found : Sources.below .full windingTree .standard (windingTree.deepest + 1) ⟨"."⟩ =
      [⟨"./A.cs"⟩, ⟨"./b.cs"⟩, ⟨"./d/A.cs"⟩, ⟨"./d/b.cs"⟩] := by
    decide +kernel
  refine assign_of_sorted_sources found ?_ (by decide +kernel) ?_
  · unfold Sorted
    decide +kernel
  · unfold Sorted
    decide +kernel

theorem brokenSources_winding :
    brokenSources readClass windingTree .standard linked.projects = [⟨"./b.cs"⟩] := by
  rw [brokenSources, assign_winding]
  decide +kernel

/-- The survey succeeds without the link, but with it there is a path on which one link too many is
followed. -/
theorem winding_interferes :
    (Solution.ofPath windingTree ⟨"./R.csproj"⟩).toOption = some linked ∧
    Settings.standard.brokenFiles = .skip ∧
    (∃ clean, run readClass (withoutBroken readClass windingTree .standard linked.projects) .standard
      linked = .ok clean) ∧
    ¬∃ outcome, run readClass windingTree .standard linked = .ok outcome := by
  refine ⟨by decide +kernel, rfl, ?_, ?_⟩
  · have kept : ((assign windingTree .standard linked.projects).filter fun owned =>
        !windingTree.isGone (isBrokenWay readClass windingTree .standard linked.projects)
          owned.path) = [⟨0, ⟨"./A.cs"⟩⟩, ⟨0, ⟨"./d/A.cs"⟩⟩] := by
      unfold isBrokenWay
      rw [brokenSources_winding, assign_winding]
      decide +kernel
    have loaded : ∃ clean, LoadedSources.load readClass
        (withoutBroken readClass windingTree .standard linked.projects) .standard linked.projects =
          .ok clean := by
      simp only [LoadedSources.load, LoadedSources.ofOutcomes_eq_ok_iff,
        outcomes_withoutBroken, kept]
      refine ⟨_, ?_, rfl⟩
      have noFailure : ([⟨0, ⟨"./A.cs"⟩⟩, ⟨0, ⟨"./d/A.cs"⟩⟩] : List Owned).all (fun owned =>
          (LoadedSources.outcome readClass windingTree .standard linked.projects
            owned).failure?.isNone) := by decide +kernel
      simpa using noFailure
    obtain ⟨clean, loaded⟩ := loaded
    exact ⟨_, run_eq_report loaded⟩
  · rintro ⟨outcome, done⟩
    obtain ⟨sources, loaded, _⟩ := run_eq_ok_iff.mp done
    rw [LoadedSources.load, LoadedSources.ofOutcomes_eq_ok_iff, assign_winding] at loaded
    have missing : windingTree.holds ⟨"./d/b.cs"⟩ = false := by decide +kernel
    have among : (⟨0, ⟨"./d/b.cs"⟩⟩ : Owned) ∈ ([⟨0, ⟨"./A.cs"⟩⟩, ⟨0, ⟨"./b.cs"⟩⟩, ⟨0, ⟨"./d/A.cs"⟩⟩,
        ⟨0, ⟨"./d/b.cs"⟩⟩] : List Owned) := by simp
    have noFailure := loaded.1 _ (List.mem_map_of_mem among)
    rw [@LoadedSources.outcome_of_missing readClass windingTree linked.projects
      ⟨0, ⟨"./d/b.cs"⟩⟩ missing .standard] at noFailure
    cases noFailure

end Survey

end SolutionSurvey

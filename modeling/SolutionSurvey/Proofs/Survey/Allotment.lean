import SolutionSurvey.Proofs.Solution.Innermost
import SolutionSurvey.Proofs.Survey.Arrangement

/-!
# Every project gets its own files

A source belongs to the innermost project that reaches it.  The files of a project make one stretch
of all files; the stretches lie end to end in the order of the solution, those of projects without
files included, and the report takes the rows of each project from its stretch.
-/

namespace SolutionSurvey

namespace LoadedSources

open Ownership (Owned assign)

/-! ### Stretches that lie end to end -/

/-- There is a stretch for each project, each ends before the next one starts, and every file is in
one of them. -/
structure LaidOut (projectCount : Nat) (sources : LoadedSources) : Prop where
  stretches : sources.stretches.length = projectCount
  apart : sources.stretches.Pairwise fun first second => first.start + first.count ≤ second.start
  cover : ∀ index, index < sources.files.length ↔
    ∃ stretch ∈ sources.stretches, stretch.start ≤ index ∧ index < stretch.start + stretch.count

section Stretches

variable (loaded : List (Nat × SourceFile)) (project : Nat)

theorem start_stretchOf_zero : (stretchOf loaded 0).start = 0 := by
  simp [stretchOf]

theorem start_stretchOf_append (entry : Nat × SourceFile) :
    (stretchOf (loaded ++ [entry]) project).start =
      (stretchOf loaded project).start + if entry.1 < project then 1 else 0 := by
  by_cases before : entry.1 < project
  · simp [stretchOf, before]
  · simp [stretchOf, before]

theorem count_stretchOf_append (entry : Nat × SourceFile) :
    (stretchOf (loaded ++ [entry]) project).count =
      (stretchOf loaded project).count + if entry.1 = project then 1 else 0 := by
  by_cases own : entry.1 = project
  · simp [stretchOf, own]
  · simp [stretchOf, own]

/-- The next stretch starts where this one ends. -/
theorem start_stretchOf_succ :
    (stretchOf loaded (project + 1)).start =
      (stretchOf loaded project).start + (stretchOf loaded project).count := by
  induction loaded using List.reverseRecOn with
  | nil => rfl
  | append_singleton loaded entry inductionHypothesis =>
      rw [start_stretchOf_append, start_stretchOf_append, count_stretchOf_append,
        inductionHypothesis]
      split <;> split <;> split <;> omega

variable {loaded project}

theorem start_stretchOf_of_all (all : ∀ entry ∈ loaded, entry.1 < project) :
    (stretchOf loaded project).start = loaded.length := by
  have kept : loaded.filter (fun entry => entry.1 < project) = loaded :=
    List.filter_eq_self.mpr fun entry membership => decide_eq_true (all entry membership)
  rw [stretchOf, kept]

theorem end_le_start {first second : Nat} (before : first < second) :
    (stretchOf loaded first).start + (stretchOf loaded first).count ≤
      (stretchOf loaded second).start := by
  induction before with
  | refl => exact (start_stretchOf_succ loaded first).ge
  | @step second _ inductionHypothesis =>
      rw [start_stretchOf_succ]
      exact inductionHypothesis.trans (Nat.le_add_right _ _)

/-- Whatever comes before a stretch is in one of the stretches before it. -/
theorem lt_start_iff {index : Nat} :
    index < (stretchOf loaded project).start ↔ ∃ earlier < project,
      (stretchOf loaded earlier).start ≤ index ∧
        index < (stretchOf loaded earlier).start + (stretchOf loaded earlier).count := by
  induction project with
  | zero => simp [start_stretchOf_zero]
  | succ project inductionHypothesis =>
      rw [start_stretchOf_succ]
      constructor
      · intro within
        by_cases before : index < (stretchOf loaded project).start
        · obtain ⟨earlier, isEarlier, inside⟩ := inductionHypothesis.mp before
          exact ⟨earlier, Nat.lt_succ_of_lt isEarlier, inside⟩
        · exact ⟨project, Nat.lt_succ_self project, Nat.le_of_not_lt before, within⟩
      · rintro ⟨earlier, isEarlier, _, inside⟩
        rcases Nat.lt_succ_iff_lt_or_eq.mp isEarlier with isBefore | rfl
        · exact (inside.trans_le (end_le_start isBefore)).trans_le (Nat.le_add_right _ _)
        · exact inside

end Stretches

/-! ### One pass over the files -/

/-- What a pass over the loaded files has put together. -/
structure Placing where
  files : List SourceFile
  /-- Where the files of each project stand; nowhere until there are any. -/
  stretches : List Stretch

namespace Placing

def start (projectCount : Nat) : Placing := ⟨[], List.replicate projectCount ⟨0, 0⟩⟩

/-- Put a file at the end.  A stretch that is still empty is opened there, and it ends with the file. -/
def put (placing : Placing) (entry : Nat × SourceFile) : Placing :=
  let known := placing.stretches.getD entry.1 ⟨0, 0⟩
  let first := if known.count = 0 then placing.files.length else known.start
  { files := placing.files ++ [entry.2]
    stretches := placing.stretches.set entry.1 ⟨first, placing.files.length + 1 - first⟩ }

def putAll (projectCount : Nat) (loaded : List (Nat × SourceFile)) : Placing :=
  loaded.foldl put (start projectCount)

end Placing

/-- The stretch of a project in a pass that leaves projects without files where they were. -/
def placedStretch (loaded : List (Nat × SourceFile)) (project : Nat) : Stretch :=
  if (stretchOf loaded project).count = 0 then ⟨0, 0⟩ else stretchOf loaded project

/-- A pass has put all files into the stretches of their projects. -/
structure Places (projectCount : Nat) (loaded : List (Nat × SourceFile)) (placing : Placing) :
    Prop where
  files : placing.files = loaded.map (·.2)
  stretches : placing.stretches = (List.range projectCount).map (placedStretch loaded)

section Pass

variable {projectCount : Nat} {loaded : List (Nat × SourceFile)} {placing : Placing}
  {entry : Nat × SourceFile}

variable (projectCount) in
theorem places_start : Places projectCount [] (.start projectCount) where
  files := rfl
  stretches := by
    have nowhere : placedStretch [] = fun _ => ⟨0, 0⟩ := rfl
    rw [nowhere, List.map_const', List.length_range]
    rfl

theorem placedStretch_append_self : placedStretch (loaded ++ [entry]) entry.1 =
    ⟨(stretchOf loaded entry.1).start, (stretchOf loaded entry.1).count + 1⟩ := by
  have start := start_stretchOf_append loaded entry.1 entry
  have count := count_stretchOf_append loaded entry.1 entry
  rw [if_neg (Nat.lt_irrefl _), Nat.add_zero] at start
  rw [if_pos rfl] at count
  rw [placedStretch, if_neg (by omega)]
  exact congrArg₂ Stretch.mk start count

section Last

variable (last : ∀ earlier ∈ loaded, earlier.1 ≤ entry.1)

include last

/-- The stretch of the last owner ends where the files end. -/
theorem length_eq_of_last : loaded.length =
    (stretchOf loaded entry.1).start + (stretchOf loaded entry.1).count := by
  rw [← start_stretchOf_succ]
  exact (start_stretchOf_of_all fun earlier membership => Nat.lt_succ_of_le (last earlier membership)).symm

theorem count_eq_zero_of_last {project : Nat} (after : entry.1 < project) :
    (stretchOf loaded project).count = 0 := by
  have all : ∀ earlier ∈ loaded, earlier.1 < project := fun earlier membership =>
    (last earlier membership).trans_lt after
  have ends := start_stretchOf_succ loaded project
  rw [start_stretchOf_of_all all,
    start_stretchOf_of_all fun earlier membership => Nat.lt_succ_of_lt (all earlier membership)] at ends
  omega

theorem placedStretch_append_of_ne {project : Nat} (different : entry.1 ≠ project) :
    placedStretch (loaded ++ [entry]) project = placedStretch loaded project := by
  have count : (stretchOf (loaded ++ [entry]) project).count = (stretchOf loaded project).count := by
    rw [count_stretchOf_append, if_neg different, Nat.add_zero]
  unfold placedStretch
  rw [count]
  by_cases empty : (stretchOf loaded project).count = 0
  · rw [if_pos empty, if_pos empty]
  · -- Only the stretches of later projects move on, and those are still empty.
    have before : ¬entry.1 < project := fun after => empty (count_eq_zero_of_last last after)
    have start := start_stretchOf_append loaded project entry
    rw [if_neg before, Nat.add_zero] at start
    rw [if_neg empty, if_neg empty]
    exact congrArg₂ Stretch.mk start count

theorem Places.put (places : Places projectCount loaded placing) (inRange : entry.1 < projectCount) :
    Places projectCount (loaded ++ [entry]) (placing.put entry) where
  files := by rw [Placing.put, places.files, List.map_append, List.map_singleton]
  stretches := by
    have length : placing.files.length =
        (stretchOf loaded entry.1).start + (stretchOf loaded entry.1).count := by
      rw [places.files, List.length_map, length_eq_of_last last]
    have known : placing.stretches.getD entry.1 ⟨0, 0⟩ = placedStretch loaded entry.1 := by
      rw [places.stretches]
      simp [inRange]
    have first : (if (placedStretch loaded entry.1).count = 0 then placing.files.length
        else (placedStretch loaded entry.1).start) = (stretchOf loaded entry.1).start := by
      unfold placedStretch
      by_cases empty : (stretchOf loaded entry.1).count = 0
      · simp [empty, length]
      · simp [empty]
    have grown : placing.files.length + 1 - (stretchOf loaded entry.1).start =
        (stretchOf loaded entry.1).count + 1 := by omega
    rw [Placing.put, known]
    simp only [first, grown, places.stretches]
    apply List.ext_getElem
    · simp
    · intro project within _
      rw [List.getElem_set, List.getElem_map, List.getElem_map, List.getElem_range]
      by_cases own : entry.1 = project
      · rw [if_pos own, ← own, placedStretch_append_self]
      · rw [if_neg own, placedStretch_append_of_ne last own]

end Last

theorem Places.putAll {more : List (Nat × SourceFile)} (places : Places projectCount loaded placing)
    (ordered : (loaded ++ more).Pairwise fun first second => first.1 ≤ second.1)
    (inRange : ∀ entry ∈ more, entry.1 < projectCount) :
    Places projectCount (loaded ++ more) (more.foldl Placing.put placing) := by
  induction more generalizing loaded placing with
  | nil => simpa using places
  | cons entry more inductionHypothesis =>
      have last : ∀ earlier ∈ loaded, earlier.1 ≤ entry.1 := fun earlier membership =>
        (List.pairwise_append.mp ordered).2.2 earlier membership entry List.mem_cons_self
      obtain ⟨entryInRange, restInRange⟩ := List.forall_mem_cons.mp inRange
      have further := inductionHypothesis (places.put last entryInRange) (by simpa using ordered)
        restInRange
      rwa [List.append_assoc, List.singleton_append] at further

end Pass

/-! ### The files of one project -/

/-- All sources of a project that can be loaded, in the order of their paths. -/
structure OwnFiles (read : TreeReader) (tree : FileTree) (settings : Settings)
    (projects : List Project) (owner : Nat) (files : List SourceFile) : Prop where
  ordered : Ascending (fun left right : SourceFile => left.path.order right.path) files
  members : ∀ file, file ∈ files ↔ ∃ owned ∈ assign tree settings projects,
    owned.owner = owner ∧
      SourceFile.load read tree (projectName projects owner) owned.path = .ok file

section Load

variable {read : TreeReader} {tree : FileTree} {settings : Settings} {projects : List Project}

theorem loadable_ascending : (loadable read tree settings projects).Pairwise fun first second =>
    first.1 = second.1 → first.2.path.order second.2.path = .lt := by
  apply List.pairwise_filterMap.mpr
  apply List.pairwise_map.mpr
  apply Ownership.assign_ascending.imp
  rintro first second before ⟨owner, file⟩ isFirst ⟨other, further⟩ isSecond sameOwner
  obtain ⟨rfl, loaded⟩ := file?_outcome.mp isFirst
  obtain ⟨rfl, loadedToo⟩ := file?_outcome.mp isSecond
  rw [SourceFile.path_of_load loaded, SourceFile.path_of_load loadedToo]
  exact before sameOwner

variable {sources : LoadedSources} (done : load read tree settings projects = .ok sources)

include done

theorem laidOut_of_load : LaidOut projects.length sources where
  stretches := length_stretches done
  apart := by
    rw [(files_eq_of_load done).2]
    apply List.pairwise_map.mpr
    exact List.pairwise_lt_range.imp end_le_start
  cover index := by
    have all : (stretchOf (loadable read tree settings projects) projects.length).start =
        sources.files.length := by
      rw [start_stretchOf_of_all fun _ => owner_lt_of_mem_loadable, (files_eq_of_load done).1,
        List.length_map]
    rw [← all, lt_start_iff, (files_eq_of_load done).2]
    simp

theorem ownFiles_filesOf (owner : Nat) : OwnFiles read tree settings projects owner
    (sources.filesOf (stretchOf (loadable read tree settings projects) owner)) where
  ordered := by
    rw [filesOf_stretchOf done]
    apply List.pairwise_map.mpr
    apply List.pairwise_filter.mpr
    apply loadable_ascending.imp
    intro first second before isOwn isOwnToo
    exact before ((beq_iff_eq.mp isOwn).trans (beq_iff_eq.mp isOwnToo).symm)
  members file := by
    rw [filesOf_stretchOf done, List.mem_map]
    constructor
    · rintro ⟨⟨other, _⟩, membership, rfl⟩
      obtain ⟨inLoadable, isOwn⟩ := List.mem_filter.mp membership
      obtain ⟨owned, assigned, rfl, loaded⟩ := mem_loadable.mp inLoadable
      exact ⟨owned, assigned, beq_iff_eq.mp isOwn, beq_iff_eq.mp isOwn ▸ loaded⟩
    · rintro ⟨owned, assigned, rfl, loaded⟩
      have inLoadable := mem_loadable.mpr ⟨owned, assigned, rfl, loaded⟩
      exact ⟨_, List.mem_filter.mpr ⟨inLoadable, beq_self_eq_true _⟩, rfl⟩

theorem ownFiles_of_stretch {owner : Nat} {stretch : Stretch}
    (listed : sources.stretches[owner]? = some stretch) :
    OwnFiles read tree settings projects owner (sources.filesOf stretch) := by
  rw [(files_eq_of_load done).2, List.getElem?_map] at listed
  obtain ⟨other, place, rfl⟩ := Option.map_eq_some_iff.mp listed
  obtain ⟨_, rfl⟩ := List.getElem?_eq_some_iff.mp place
  rw [List.getElem_range]
  exact ownFiles_filesOf done owner

omit done in
theorem filesOf_placedStretch (loaded : List (Nat × SourceFile)) (project : Nat) :
    sources.filesOf (placedStretch loaded project) = sources.filesOf (stretchOf loaded project) := by
  unfold placedStretch
  by_cases empty : (stretchOf loaded project).count = 0
  · rw [if_pos empty, filesOf, filesOf, empty, List.take_zero, List.take_zero]
  · rw [if_neg empty]

/-- One pass over the loaded files gives every project the files of its stretch. -/
theorem places_loadable :
    (Placing.putAll projects.length (loadable read tree settings projects)).files = sources.files ∧
      (Placing.putAll projects.length (loadable read tree settings projects)).stretches.map
        sources.filesOf = sources.stretches.map sources.filesOf := by
  have ordered : List.Pairwise (fun first second : Nat × SourceFile => first.1 ≤ second.1)
      ([] ++ loadable read tree settings projects) := loadable_ordered
  have places := (places_start projects.length).putAll ordered fun _ => owner_lt_of_mem_loadable
  rw [List.nil_append] at places
  constructor
  · exact places.files.trans (files_eq_of_load done).1.symm
  · rw [Placing.putAll, places.stretches, (files_eq_of_load done).2, List.map_map, List.map_map]
    exact List.map_congr_left fun project _ => filesOf_placedStretch _ project

end Load

end LoadedSources

namespace Survey

open LoadedSources (LaidOut OwnFiles Placing loadable)
open Ownership (Owns Reaches Innermost)

/-- Every source goes to the innermost project that reaches it, and the files of each project make a
stretch of the loaded files and a block of the report, in the order of the solution. -/
structure Allots (read : TreeReader) (tree : FileTree) (settings : Settings) (solution : Solution) :
    Prop where
  oneOwner : ∀ path, (∃ owner, Reaches tree settings solution.projects owner path) →
    ∃! owner, Owns tree settings solution.projects owner path
  innermost : ∀ owner path, Owns tree settings solution.projects owner path ↔
    Innermost tree settings solution.projects owner path
  laidOut : ∀ sources, LoadedSources.load read tree settings solution.projects = .ok sources →
    LaidOut solution.projects.length sources
  files : ∀ sources, LoadedSources.load read tree settings solution.projects = .ok sources →
    ∀ owner stretch, sources.stretches[owner]? = some stretch →
      OwnFiles read tree settings solution.projects owner (sources.filesOf stretch)
  onePass : ∀ sources, LoadedSources.load read tree settings solution.projects = .ok sources →
    let placed :=
      Placing.putAll solution.projects.length (loadable read tree settings solution.projects)
    placed.files = sources.files ∧
      placed.stretches.map sources.filesOf = sources.stretches.map sources.filesOf
  rows : ∀ outcome, run read tree settings solution = .ok outcome → ∃ sources parts closing,
    LoadedSources.load read tree settings solution.projects = .ok sources ∧
      Arranged solution sources outcome parts closing ∧
        ∀ owner part, parts[owner]? = some part → ∃ files,
          OwnFiles read tree settings solution.projects owner files ∧
            part.files.map (·.filePath) = files.map (·.path.text)

variable {read : TreeReader} {tree : FileTree} {settings : Settings} {solution : Solution}

/-- The file rows of a project stand for its own files. -/
theorem ownFiles_of_arranged {sources : LoadedSources} {outcome : Report} {parts : List ProjectRows}
    {closing : Row}
    (done : LoadedSources.load read tree settings solution.projects = .ok sources)
    (arranged : Arranged solution sources outcome parts closing) {owner : Nat} {part : ProjectRows}
    (listed : parts[owner]? = some part) : ∃ files,
      OwnFiles read tree settings solution.projects owner files ∧
        part.files.map (·.filePath) = files.map (·.path.text) := by
  have paths := congrArg (·[owner]?) arranged.files
  simp only [List.getElem?_map, listed, Option.map_some] at paths
  obtain ⟨stretch, stretchListed, same⟩ := Option.map_eq_some_iff.mp paths.symm
  exact ⟨sources.filesOf stretch, LoadedSources.ownFiles_of_stretch done stretchListed, same.symm⟩

theorem allots (read : TreeReader) (tree : FileTree) (settings : Settings) (solution : Solution) :
    Allots read tree settings solution where
  oneOwner path reached := by
    obtain ⟨owner, owns⟩ := Ownership.exists_owns reached
    exact ⟨owner, owns, fun other ownsToo => ownsToo.innermost.unique owns.innermost⟩
  innermost owner path := Ownership.owns_iff_innermost
  laidOut sources done := LoadedSources.laidOut_of_load done
  files sources done owner stretch listed := LoadedSources.ownFiles_of_stretch done listed
  onePass sources done := LoadedSources.places_loadable done
  rows outcome done := by
    obtain ⟨sources, loaded, rfl⟩ := eq_report_of_run done
    exact ⟨sources, _, _, loaded, arranged_report loaded, fun owner part listed =>
      ownFiles_of_arranged loaded (arranged_report loaded) listed⟩

end Survey

end SolutionSurvey

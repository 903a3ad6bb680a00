import SolutionSurvey.Proofs.Collection.Parts
import SolutionSurvey.Proofs.Solution.Ownership
import SolutionSurvey.Survey.Load

/-!
# The files that are loaded

Loading goes through the owned paths in their order.  The files of one project make a stretch, the
stretches of all projects make up all files, and no two files have the same path.
-/

namespace SolutionSurvey

namespace SourceFile

variable {read : TreeReader} {tree : FileTree} {project : String} {path : Path}

theorem parseWhole_eq_ok_iff {text : String} {root : Node} :
    parseWhole read path text = .ok root ↔ read text = some root ∧ root.damaged = false := by
  unfold parseWhole
  cases parsed : read text with
  | none => simp
  | some other =>
      simp only [Option.some.injEq]
      by_cases damaged : other.damaged
      · rw [if_pos damaged]
        constructor
        · intro done
          cases done
        · rintro ⟨rfl, undamaged⟩
          simp [damaged] at undamaged
      · rw [if_neg damaged, Except.ok.injEq]
        constructor
        · rintro rfl
          exact ⟨rfl, by simpa using damaged⟩
        · exact And.left

theorem ofText_eq_ok_iff {text : String} {file : SourceFile} :
    ofText read project path text = .ok file ↔ ∃ root,
      parseWhole read path (withoutMark text) = .ok root ∧
        file = ⟨project, path, withoutMark text, root⟩ := by
  unfold ofText
  cases parsed : parseWhole read path (withoutMark text) with
  | error cause => simp [parsed, Except.map]
  | ok root => simp [parsed, Except.map, eq_comm]

/-- A source file is a text on disk with the undamaged tree that the reader has for it. -/
theorem load_eq_ok_iff {file : SourceFile} :
    load read tree project path = .ok file ↔ ∃ content around text root,
      tree.find? path = some ⟨.file content, around⟩ ∧ content.text? = some text ∧
        read (withoutMark text) = some root ∧ root.damaged = false ∧
          file = ⟨project, path, withoutMark text, root⟩ := by
  constructor
  · intro loaded
    unfold load at loaded
    split at loaded
    case h_1 => cases loaded
    case h_2 content around found =>
        split at loaded
        case h_1 => cases loaded
        case h_2 text spelled =>
            obtain ⟨root, parsed, made⟩ := ofText_eq_ok_iff.mp loaded
            obtain ⟨known, undamaged⟩ := parseWhole_eq_ok_iff.mp parsed
            exact ⟨content, around, text, root, found, spelled, known, undamaged, made⟩
    case h_3 => cases loaded
  · rintro ⟨content, around, text, root, found, spelled, known, undamaged, made⟩
    unfold load
    rw [found]
    simp only [spelled]
    exact ofText_eq_ok_iff.mpr ⟨root, parseWhole_eq_ok_iff.mpr ⟨known, undamaged⟩, made⟩

theorem path_of_load {file : SourceFile} (loaded : load read tree project path = .ok file) :
    file.path = path := by
  obtain ⟨_, _, _, _, _, _, _, _, rfl⟩ := load_eq_ok_iff.mp loaded
  rfl

/-- Whether a source file can be loaded depends on nothing but what its path leads to. -/
theorem load_congr {other : Path} (same : tree.find? path = tree.find? other) {file : SourceFile}
    (loaded : load read tree project path = .ok file) (name : String) :
    ∃ file, load read tree name other = .ok file := by
  obtain ⟨content, around, text, root, found, spelled, parsed, undamaged, _⟩ :=
    load_eq_ok_iff.mp loaded
  exact ⟨_, load_eq_ok_iff.mpr
    ⟨content, around, text, root, same ▸ found, spelled, parsed, undamaged, rfl⟩⟩

end SourceFile

theorem Failure.gather_eq_none_iff {causes : List Failure} :
    gather causes = none ↔ causes = [] := by
  rcases causes with _ | ⟨cause, _ | ⟨second, rest⟩⟩ <;> simp [gather]

namespace LoadedSources

/-! ### What is gathered -/

/-- What is put together from some outcomes if nothing failed. -/
def gathered (projectCount : Nat) (outcomes : List Outcome) : LoadedSources :=
  { files := (outcomes.filterMap Outcome.file?).map (·.2)
    stretches := (List.range projectCount).map (stretchOf (outcomes.filterMap Outcome.file?))
    skipped := (outcomes.filterMap Outcome.skipped?).mergeSort (weakly compare) }

theorem ofOutcomes_eq_ok_iff {projectCount : Nat} {outcomes : List Outcome}
    {sources : LoadedSources} :
    ofOutcomes projectCount outcomes = .ok sources ↔
      (∀ outcome ∈ outcomes, outcome.failure? = none) ∧ sources = gathered projectCount outcomes := by
  rw [← List.filterMap_eq_nil_iff, ← Failure.gather_eq_none_iff]
  unfold ofOutcomes
  cases Failure.gather (outcomes.filterMap Outcome.failure?) with
  | none => simp [gathered, eq_comm]
  | some cause => simp

theorem skipped_gathered_eq_nil_iff {projectCount : Nat} {outcomes : List Outcome} :
    (gathered projectCount outcomes).skipped = [] ↔
      ∀ outcome ∈ outcomes, outcome.skipped? = none := by
  rw [← List.filterMap_eq_nil_iff, ← List.length_eq_zero_iff, gathered, List.length_mergeSort,
    List.length_eq_zero_iff]

/-! ### The files that can be loaded -/

section Load

variable (read : TreeReader) (tree : FileTree) (settings : Settings) (projects : List Project)

/-- The files that can be loaded, each with its owner. -/
def loadable : List (Nat × SourceFile) :=
  ((Ownership.assign tree settings projects).map (outcome read tree settings projects)).filterMap
    Outcome.file?

variable {read tree settings projects}

theorem file?_ofFailure (brokenFiles : BrokenFiles) (cause : Failure) :
    (Outcome.ofFailure brokenFiles cause).file? = none := by
  unfold Outcome.ofFailure
  split <;> rfl

theorem file?_outcome {owned : Ownership.Owned} {owner : Nat} {file : SourceFile} :
    (outcome read tree settings projects owned).file? = some (owner, file) ↔
      owned.owner = owner ∧
        SourceFile.load read tree (projectName projects owned.owner) owned.path = .ok file := by
  unfold outcome
  cases SourceFile.load read tree (projectName projects owned.owner) owned.path with
  | ok other => simp [Outcome.file?]
  | error cause => simp [file?_ofFailure]

theorem mem_loadable {owner : Nat} {file : SourceFile} :
    (owner, file) ∈ loadable read tree settings projects ↔
      ∃ owned ∈ Ownership.assign tree settings projects, owned.owner = owner ∧
        SourceFile.load read tree (projectName projects owned.owner) owned.path = .ok file := by
  simp only [loadable, List.mem_filterMap, List.mem_map, exists_exists_and_eq_and, file?_outcome]

theorem loadable_ordered :
    (loadable read tree settings projects).Pairwise fun first second => first.1 ≤ second.1 := by
  refine List.pairwise_filterMap.mpr (List.pairwise_map.mpr ?_)
  refine Ownership.assign_ordered.imp ?_
  rintro first second before ⟨owner, file⟩ isFirst ⟨other, further⟩ isSecond
  obtain ⟨rfl, _⟩ := file?_outcome.mp isFirst
  obtain ⟨rfl, _⟩ := file?_outcome.mp isSecond
  exact before

theorem owner_lt_of_mem_loadable {entry : Nat × SourceFile}
    (membership : entry ∈ loadable read tree settings projects) : entry.1 < projects.length := by
  obtain ⟨owned, assigned, same, _⟩ := mem_loadable.mp membership
  exact same ▸ Ownership.owner_lt_of_mem_assign assigned

theorem loadable_apart :
    ((loadable read tree settings projects).map (·.2.path.components)).Nodup := by
  have apart := List.pairwise_map.mp (Ownership.settles_assign.apart : List.Nodup
    ((Ownership.assign tree settings projects).map (·.path.components)))
  refine List.pairwise_map.mpr (List.pairwise_filterMap.mpr (List.pairwise_map.mpr ?_))
  refine apart.imp ?_
  rintro first second different ⟨owner, file⟩ isFirst ⟨other, further⟩ isSecond
  have firstPath := SourceFile.path_of_load (file?_outcome.mp isFirst).2
  have secondPath := SourceFile.path_of_load (file?_outcome.mp isSecond).2
  rwa [firstPath, secondPath]

/-! ### What is loaded in the end -/

variable {sources : LoadedSources}

theorem files_eq_of_load (done : load read tree settings projects = .ok sources) :
    sources.files = (loadable read tree settings projects).map (·.2) ∧
      sources.stretches =
        (List.range projects.length).map (stretchOf (loadable read tree settings projects)) := by
  unfold load ofOutcomes at done
  split at done
  · cases done
  · obtain rfl := Except.ok.inj done
    exact ⟨rfl, rfl⟩

/-- If every owned file can be loaded, nothing is skipped and nothing fails. -/
theorem load_of_all_loaded {loaded : List (Nat × SourceFile)}
    (all : (Ownership.assign tree settings projects).map (outcome read tree settings projects) =
      loaded.map fun entry => .loaded entry.1 entry.2) :
    load read tree settings projects =
      .ok ⟨loaded.map (·.2), (List.range projects.length).map (stretchOf loaded), []⟩ := by
  have failures : (loaded.map fun entry => Outcome.loaded entry.1 entry.2).filterMap
      Outcome.failure? = [] := by
    simp [List.filterMap_map, Function.comp_def, Outcome.failure?]
  have skipped : (loaded.map fun entry => Outcome.loaded entry.1 entry.2).filterMap
      Outcome.skipped? = [] := by
    simp [List.filterMap_map, Function.comp_def, Outcome.skipped?]
  have files : (loaded.map fun entry => Outcome.loaded entry.1 entry.2).filterMap
      Outcome.file? = loaded := by
    simp [List.filterMap_map, Function.comp_def, Outcome.file?]
  rw [load, all, ofOutcomes, failures, skipped, files, List.mergeSort_nil]
  rfl

/-- If every file that is owned in the end can be loaded, the claims tell what is loaded. -/
theorem load_of_claims (loaded : List (Nat × SourceFile)) {claimed owned : List Ownership.Owned}
    (made : Ownership.claims tree settings projects = claimed)
    (all : Ownership.claimAll (Ownership.depthIn projects) claimed = owned)
    (sorted : Sorted Ownership.Owned.order owned)
    (outcomes : owned.map (outcome read tree settings projects) =
      loaded.map fun entry => .loaded entry.1 entry.2) :
    load read tree settings projects =
      .ok ⟨loaded.map (·.2), (List.range projects.length).map (stretchOf loaded), []⟩ := by
  refine load_of_all_loaded ?_
  rw [Ownership.assign_eq_of_sorted made all sorted]
  exact outcomes

theorem filesOf_stretchOf (done : load read tree settings projects = .ok sources) (project : Nat) :
    sources.filesOf (stretchOf (loadable read tree settings projects) project) =
      ((loadable read tree settings projects).filter fun entry => entry.1 == project).map (·.2) := by
  rw [filesOf, (files_eq_of_load done).1, stretchOf, ← List.map_drop, ← List.map_take,
    take_drop_of_ordered loadable_ordered]

theorem length_stretches (done : load read tree settings projects = .ok sources) :
    sources.stretches.length = projects.length := by
  rw [(files_eq_of_load done).2, List.length_map, List.length_range]

/-- The files of the projects, one project after the other, are all files. -/
theorem flatMap_filesOf (done : load read tree settings projects = .ok sources) :
    sources.stretches.flatMap sources.filesOf = sources.files := by
  rw [(files_eq_of_load done).2, List.flatMap_map,
    List.flatMap_congr fun project _ => filesOf_stretchOf done project, ← List.map_flatMap,
    flatMap_parts_of_ordered loadable_ordered fun _ => owner_lt_of_mem_loadable,
    (files_eq_of_load done).1]

theorem components_apart (done : load read tree settings projects = .ok sources) :
    (sources.files.map (·.path.components)).Nodup := by
  rw [(files_eq_of_load done).1, List.map_map]
  exact loadable_apart

theorem texts_apart (done : load read tree settings projects = .ok sources) :
    (sources.files.map (·.path.text)).Nodup := by
  refine List.pairwise_map.mpr ((List.pairwise_map.mp (components_apart done)).imp ?_)
  intro first second different same
  have samePath : first.path = second.path := congrArg Path.mk same
  exact different (congrArg Path.components samePath)

end Load

end LoadedSources

end SolutionSurvey

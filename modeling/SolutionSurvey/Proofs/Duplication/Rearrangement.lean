import SolutionSurvey.Proofs.Collection.Alike
import SolutionSurvey.Proofs.Duplication.Reproducibility

/-!
# Files in another order

Blocks that the sorting does not tell apart are in one file, so the order of the files does not show
in the groups.  If the workers take other turns as well, it shows only in the order of such blocks.
-/

namespace SolutionSurvey.Duplication

section Detect

theorem filePath_of_mem_blocksIn {file : SourceFile} {block : HashedBlock}
    (membership : block ∈ blocksIn file) : block.2.filePath = file.path.text := by
  obtain ⟨method, _, inMethod⟩ := List.mem_flatMap.mp membership
  obtain ⟨node, _, rfl⟩ := List.mem_map.mp inMethod
  rfl

theorem tiedWith_flatMap_blocksIn (hash : String) (place : Occurrence) (files : List SourceFile) :
    tiedWith Occurrence.order place (Detector.placesWith hash (files.flatMap blocksIn)) =
      files.flatMap fun file =>
        tiedWith Occurrence.order place (Detector.placesWith hash (blocksIn file)) := by
  simp only [tiedWith, Detector.placesWith, List.filter_flatMap, List.map_flatMap]

theorem filePath_of_tied {hash : String} {place : Occurrence} {file : SourceFile}
    (tied : tiedWith Occurrence.order place (Detector.placesWith hash (blocksIn file)) ≠ []) :
    file.path.text = place.filePath := by
  obtain ⟨other, membership⟩ := List.exists_mem_of_ne_nil _ tied
  obtain ⟨found, tie⟩ := mem_tiedWith.mp membership
  obtain ⟨block, inFile, rfl⟩ := List.mem_map.mp found
  have sameFile : place.filePath = block.2.filePath :=
    Std.LawfulEqOrd.eq_of_compare (Ordering.then_eq_eq.mp tie).1
  rw [sameFile, filePath_of_mem_blocksIn (List.mem_of_mem_filter inFile)]

variable {files others : List SourceFile}

theorem detect_eq_of_perm (perm : files.Perm others)
    (distinct : (files.map (·.path.text)).Nodup) : detect files = detect others := by
  have tracks := Detector.tracks_empty.recordAll (files.flatMap blocksIn)
  have tracksOthers := Detector.tracks_empty.recordAll (others.flatMap blocksIn)
  apply groups_eq_of_tiedWith_eq tracks tracksOthers (perm.flatMap_right blocksIn)
    (List.Perm.refl _) (List.Perm.refl _)
  intro hash place
  rw [List.nil_append, List.nil_append, tiedWith_flatMap_blocksIn, tiedWith_flatMap_blocksIn]
  apply flatMap_eq_of_perm distinct perm place.filePath
  -- Blocks that tie with one place are in one file, and no other file has its path.
  intro file tied
  exact filePath_of_tied tied

end Detect

/-! ### Any turns -/

/-- Two groups have the same members, if not in the same order. -/
structure SameContent (group other : DuplicationGroup) : Prop where
  hash : group.hash = other.hash
  key : group.key = other.key
  members : group.members.Perm other.members

section Group

variable {places others : List Occurrence} (perm : places.Perm others)

include perm

/-- The first members of two groups stand in the same method, if there are any. -/
theorem first_of_perm :
    (places.mergeSort (weakly Occurrence.order)).head?.map (fun first =>
        (first.filePath, first.methodName)) =
      (others.mergeSort (weakly Occurrence.order)).head?.map fun first =>
        (first.filePath, first.methodName) := by
  have sortedPerm : (places.mergeSort (weakly Occurrence.order)).Perm
      (others.mergeSort (weakly Occurrence.order)) := mergeSort_perm_mergeSort perm _
  have sorted : Sorted Occurrence.order (places.mergeSort (weakly Occurrence.order)) :=
    sorted_mergeSort places
  have sortedToo : Sorted Occurrence.order (others.mergeSort (weakly Occurrence.order)) :=
    sorted_mergeSort others
  cases first : places.mergeSort (weakly Occurrence.order) with
  | nil =>
      rw [first] at sortedPerm
      rw [← sortedPerm.nil_eq]
  | cons head rest =>
      rw [first] at sorted sortedPerm
      cases second : others.mergeSort (weakly Occurrence.order) with
      | nil =>
          rw [second] at sortedPerm
          exact absurd sortedPerm.eq_nil (List.cons_ne_nil head rest)
      | cons other further =>
          rw [second] at sortedToo sortedPerm
          have tie : head.order other = .eq := Std.OrientedCmp.isLE_antisymm
            (sorted.head_isLE (sortedPerm.mem_iff.mpr List.mem_cons_self))
            (sortedToo.head_isLE (sortedPerm.mem_iff.mp List.mem_cons_self))
          obtain ⟨sameFile, rest⟩ := Ordering.then_eq_eq.mp tie
          obtain ⟨_, sameMethod⟩ := Ordering.then_eq_eq.mp rest
          rw [List.head?_cons, List.head?_cons, Option.map_some, Option.map_some,
            Std.LawfulEqOrd.eq_of_compare sameFile, Std.LawfulEqOrd.eq_of_compare sameMethod]

theorem sameContent_group (hash : String) :
    SameContent (Detector.group hash places) (Detector.group hash others) where
  hash := rfl
  key := by
    have first := congrArg (Option.map fun first : String × String => first.1 ++ ":" ++ first.2)
      (first_of_perm perm)
    rw [Option.map_map, Option.map_map] at first
    exact congrArg (Option.getD · "") first
  members := by
    rw [Detector.members_group, Detector.members_group]
    exact (mergeSort_perm_mergeSort perm _).map _

end Group

section Groups

variable {detector other : Detector} {blocks further : List HashedBlock}
  (tracks : Detector.Tracks detector blocks) (tracksOther : Detector.Tracks other further)

include tracks

theorem groups_eq_map_hash :
    detector.groups = (detector.groups.map (·.hash)).map fun hash =>
      Detector.group hash (Detector.placesWith hash blocks) := by
  rw [List.map_map]
  apply List.map_id _ |>.symm.trans
  apply List.map_congr_left
  intro found grouped
  exact ((tracks.mem_groups (List.Perm.refl _)).mp grouped).2

include tracksOther

/-- Groups that are made of the same blocks are for the same hashes, in the same order. -/
theorem hashes_eq_of_perm (perm : blocks.Perm further) :
    detector.groups.map (·.hash) = other.groups.map (·.hash) := by
  let regrouped (found : DuplicationGroup) : DuplicationGroup :=
    Detector.group found.hash (Detector.placesWith found.hash blocks)
  have keys : ∀ found ∈ other.groups, (regrouped found).key = found.key := by
    intro found grouped
    have made := ((tracksOther.mem_groups (List.Perm.refl _)).mp grouped).2
    rw [(sameContent_group (Detector.placesWith_perm perm found.hash) found.hash).key, ← made]
  have ascending : Ascending DuplicationGroup.order (other.groups.map regrouped) := by
    apply List.pairwise_map.mpr
    apply (tracksOther.ascending_groups (List.Perm.refl _)).imp_of_mem
    intro first second grouped groupedToo before
    rw [DuplicationGroup.order, keys first grouped, keys second groupedToo]
    exact before
  have same : detector.groups = other.groups.map regrouped := by
    apply (tracks.ascending_groups (List.Perm.refl _)).eq_of_mem_iff ascending
    intro found
    rw [tracks.mem_groups (List.Perm.refl _), List.mem_map]
    constructor
    · rintro ⟨several, made⟩
      rw [(Detector.placesWith_perm perm found.hash).length_eq] at several
      refine ⟨Detector.group found.hash (Detector.placesWith found.hash further), ?_, made.symm⟩
      exact (tracksOther.mem_groups (List.Perm.refl _)).mpr ⟨several, rfl⟩
    · rintro ⟨group, grouped, rfl⟩
      have several := ((tracksOther.mem_groups (List.Perm.refl _)).mp grouped).1
      rw [← (Detector.placesWith_perm perm group.hash).length_eq] at several
      exact ⟨several, rfl⟩
  rw [same, List.map_map]
  rfl

theorem sameContent_of_perm (perm : blocks.Perm further) :
    List.Forall₂ SameContent detector.groups other.groups := by
  rw [groups_eq_map_hash tracks, groups_eq_map_hash tracksOther,
    hashes_eq_of_perm tracks tracksOther perm, List.forall₂_map_left_iff,
    List.forall₂_map_right_iff, List.forall₂_same]
  intro hash _
  exact sameContent_group (Detector.placesWith_perm perm hash) hash

end Groups

/-- However the files are ordered and whichever worker records next, the groups have the same
content. -/
theorem sameContent_of_runs {files others : List SourceFile} (perm : files.Perm others)
    {steps turns : List HashedBlock} {last final : Recording}
    (run : (Recording.start files).Run steps last) (finished : last.Finished)
    (runToo : (Recording.start others).Run turns final) (finishedToo : final.Finished) :
    List.Forall₂ SameContent last.detector.groups final.detector.groups := by
  apply sameContent_of_perm run.tracks runToo.tracks
  have workers : (workersOf files).flatten.Perm (workersOf others).flatten := by
    rw [flatten_workersOf, flatten_workersOf]
    exact perm.flatMap_right blocksIn
  exact ((run.perm_of_finished finished).trans workers).trans
    (runToo.perm_of_finished finishedToo).symm

/-- Whatever turns the workers take, the groups in two lists of files have the same content. -/
def GroupsAlike (files others : List SourceFile) : Prop :=
  ∀ steps last turns final,
    (Recording.start files).Run steps last → last.Finished →
      (Recording.start others).Run turns final → final.Finished →
        List.Forall₂ SameContent last.detector.groups final.detector.groups

theorem groupsAlike_of_perm {files others : List SourceFile} (perm : files.Perm others) :
    GroupsAlike files others := fun _ _ _ _ run finished runToo finishedToo =>
  sameContent_of_runs perm run finished runToo finishedToo

end SolutionSurvey.Duplication

import SolutionSurvey.Duplication.Detector
import SolutionSurvey.Proofs.Collection.Table

/-!
# What a detector knows

After any sequence of blocks a detector knows, for every hash, the occurrences with that hash in the
order in which they were recorded.  From this follows what the groups are.
-/

namespace SolutionSurvey

instance : Std.TransCmp Occurrence.order :=
  inferInstanceAs (Std.TransCmp (compareLex (compareOn Occurrence.filePath)
    (compareLex (compareOn Occurrence.startLine) (compareOn Occurrence.methodName))))

instance : Std.TransCmp DuplicationGroup.order :=
  inferInstanceAs (Std.TransCmp (compareLex (compareOn DuplicationGroup.key)
    (compareOn DuplicationGroup.hash)))

theorem DuplicationRecord.ofOccurrence_injective (hash : String) :
    Function.Injective (ofOccurrence hash) := by
  rintro ⟨_, _, _, _⟩ ⟨_, _, _, _⟩ same
  simpa [ofOccurrence] using same

theorem DuplicationGroup.hash_eq_of_order_eq {left right : DuplicationGroup}
    (tie : left.order right = .eq) : left.hash = right.hash :=
  Std.LawfulEqOrd.eq_of_compare (Ordering.then_eq_eq.mp tie).2

namespace Detector

def placesWith (hash : String) (blocks : List (String × Occurrence)) : List Occurrence :=
  (blocks.filter fun block => block.1 == hash).map (·.2)

def sightingOf : List Occurrence → Option Sighting
  | [] => none
  | [place] => some (.once place)
  | first :: second :: rest => some (.often (first :: second :: rest))

/-- A detector knows just what was recorded. -/
structure Tracks (detector : Detector) (blocks : List (String × Occurrence)) : Prop where
  ascending : Ascending Table.entryOrder detector
  get?_eq : ∀ hash, Table.get? hash detector = sightingOf (placesWith hash blocks)

theorem placesWith_append (hash : String) (first second : List (String × Occurrence)) :
    placesWith hash (first ++ second) = placesWith hash first ++ placesWith hash second := by
  simp [placesWith]

theorem placesWith_cons (hash : String) (block : String × Occurrence)
    (rest : List (String × Occurrence)) :
    placesWith hash (block :: rest) =
      if block.1 = hash then block.2 :: placesWith hash rest else placesWith hash rest := by
  by_cases same : block.1 = hash <;> simp [placesWith, same]

theorem placesWith_perm {first second : List (String × Occurrence)} (perm : first.Perm second)
    (hash : String) : (placesWith hash first).Perm (placesWith hash second) :=
  (perm.filter _).map _

theorem recordAll_append (detector : Detector) (first second : List (String × Occurrence)) :
    detector.recordAll (first ++ second) = (detector.recordAll first).recordAll second :=
  List.foldl_append

/-! ### One step and many -/

theorem sight_sightingOf (place : Occurrence) (places : List Occurrence) :
    some (sight place (sightingOf places)) = sightingOf (places ++ [place]) := by
  match places with
  | [] => rfl
  | [_] => rfl
  | _ :: _ :: _ => rfl

theorem tracks_empty : Tracks empty [] := ⟨.nil, fun _ => rfl⟩

theorem Tracks.record {detector : Detector} {blocks : List (String × Occurrence)}
    (tracks : Tracks detector blocks) (hash : String) (place : Occurrence) :
    Tracks (detector.record hash place) (blocks ++ [(hash, place)]) where
  ascending := Table.ascending_insert tracks.ascending
  get?_eq other := by
    rw [Detector.record, Table.get?_insert, tracks.get?_eq, tracks.get?_eq, placesWith_append,
      placesWith_cons]
    by_cases same : other = hash
    · subst same
      simp [sight_sightingOf, placesWith]
    · simp [same, Ne.symm same, placesWith]

theorem Tracks.recordAll {detector : Detector} {blocks : List (String × Occurrence)}
    (tracks : Tracks detector blocks) (more : List (String × Occurrence)) :
    Tracks (detector.recordAll more) (blocks ++ more) := by
  induction more generalizing detector blocks with
  | nil => simpa [Detector.recordAll] using tracks
  | cons block more inductionHypothesis =>
      have further := inductionHypothesis (tracks.record block.1 block.2)
      rwa [List.append_assoc, List.singleton_append] at further

/-! ### Groups -/

theorem sightingOf_eq_often_iff {places found : List Occurrence} :
    sightingOf places = some (.often found) ↔ 2 ≤ places.length ∧ places = found := by
  match places with
  | [] => simp [sightingOf]
  | [_] => simp [sightingOf]
  | _ :: _ :: _ => simp [sightingOf]

/-- The groups are those of the hashes that were met at least twice, however the entries are gone
through. -/
theorem Tracks.mem_groups {detector : Detector} {blocks : List (String × Occurrence)}
    (tracks : Tracks detector blocks) {entries : List (String × Sighting)}
    (listed : entries.Perm detector) {found : DuplicationGroup} :
    found ∈ groups entries ↔
      2 ≤ (placesWith found.hash blocks).length ∧
        found = group found.hash (placesWith found.hash blocks) := by
  rw [groups, List.mem_mergeSort, List.mem_filterMap]
  constructor
  · rintro ⟨⟨hash, sighting⟩, membership, grouped⟩
    have known := (Table.mem_iff_get?_eq_some tracks.ascending).mp (listed.mem_iff.mp membership)
    rw [tracks.get?_eq] at known
    cases sighting with
    | once place => simp [group?] at grouped
    | often places =>
        obtain ⟨several, rfl⟩ := sightingOf_eq_often_iff.mp known
        obtain rfl : group hash _ = found := Option.some.inj grouped
        exact ⟨several, rfl⟩
  · rintro ⟨several, same⟩
    have known := sightingOf_eq_often_iff.mpr ⟨several, rfl⟩
    rw [← tracks.get?_eq, ← Table.mem_iff_get?_eq_some tracks.ascending] at known
    exact ⟨_, listed.mem_iff.mpr known, by rw [group?, ← same]⟩

theorem keys_nodup {detector : Detector} (ascending : Ascending Table.entryOrder detector) :
    (detector.map (·.1)).Nodup := by
  refine List.pairwise_map.mpr (ascending.imp ?_)
  intro earlier later before same
  simp [Table.entryOrder, same] at before

theorem hashes_group? (entries : List (String × Sighting)) :
    ((entries.filterMap group?).map (·.hash)).Sublist (entries.map (·.1)) := by
  induction entries with
  | nil => exact .slnil
  | cons entry rest inductionHypothesis =>
      obtain ⟨hash, sighting⟩ := entry
      cases sighting with
      | once place => exact inductionHypothesis.cons hash
      | often places => exact inductionHypothesis.cons_cons hash

theorem Tracks.hashes_nodup {detector : Detector} {blocks : List (String × Occurrence)}
    (tracks : Tracks detector blocks) {entries : List (String × Sighting)}
    (listed : entries.Perm detector) : ((groups entries).map (·.hash)).Nodup := by
  have entriesNodup : (entries.map (·.1)).Nodup :=
    (listed.map (·.1)).nodup_iff.mpr (keys_nodup tracks.ascending)
  have perm := (List.mergeSort_perm (entries.filterMap group?) (weakly DuplicationGroup.order)).map
    (·.hash)
  exact perm.nodup_iff.mpr (entriesNodup.sublist (hashes_group? entries))

theorem Tracks.ascending_groups {detector : Detector} {blocks : List (String × Occurrence)}
    (tracks : Tracks detector blocks) {entries : List (String × Sighting)}
    (listed : entries.Perm detector) : Ascending DuplicationGroup.order (groups entries) := by
  have sorted : Sorted DuplicationGroup.order (groups entries) :=
    sorted_mergeSort (entries.filterMap group?)
  have distinct := List.pairwise_map.mp (tracks.hashes_nodup listed)
  refine (sorted.and distinct).imp ?_
  rintro earlier later ⟨before, different⟩
  cases compared : earlier.order later with
  | lt => rfl
  | eq => exact absurd (DuplicationGroup.hash_eq_of_order_eq compared) different
  | gt => simp [compared] at before

theorem members_group (hash : String) (places : List Occurrence) :
    (group hash places).members =
      (places.mergeSort (weakly Occurrence.order)).map (.ofOccurrence hash) := rfl

theorem groups_recordAll_pair (hash : String) (first second : Occurrence) :
    (empty.recordAll [(hash, first), (hash, second)]).groups = [group hash [first, second]] := by
  simp [recordAll, record, empty, Table.insert, Table.get?, sight, groups, group?]

end Detector

end SolutionSurvey

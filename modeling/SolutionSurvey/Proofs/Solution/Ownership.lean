import SolutionSurvey.Proofs.Path.Order
import SolutionSurvey.Solution.Ownership

/-!
# What claiming leaves

Every path that is claimed gets an owner, and no path gets two: paths with the same components count
as one, whichever of them was claimed first.
-/

namespace SolutionSurvey

theorem Path.same_iff {left right : Path} :
    left.same right ↔ left.components = right.components := by
  rw [Path.same, beq_iff_eq]

namespace Ownership

/-- Some claims are settled: each path they were made for has one owner, who is among those who
claimed it. -/
structure Settles (claimed owned : List Owned) : Prop where
  apart : (owned.map (·.path.components)).Nodup
  reached : ∀ entry ∈ owned, ∃ made ∈ claimed, made.path = entry.path
  owners : ∀ entry ∈ owned, ∃ made ∈ claimed,
    made.owner = entry.owner ∧ made.path.components = entry.path.components
  settled : ∀ made ∈ claimed, ∃ entry ∈ owned, entry.path.components = made.path.components

/-! ### One claim -/

section Claim

variable {depthOf : Nat → Nat} {owner : Nat} {path : Path} {known claimed : List Owned}

theorem claim_of_unknown (unknown : ∀ entry ∈ known, entry.path.components ≠ path.components) :
    claim depthOf owner path known = known ++ [⟨owner, path⟩] := by
  induction known with
  | nil => rfl
  | cons head rest inductionHypothesis =>
      obtain ⟨different, unknownRest⟩ := List.forall_mem_cons.mp unknown
      rw [claim, if_neg (mt Path.same_iff.mp different), inductionHypothesis unknownRest,
        List.cons_append]

theorem map_path_claim_of_known {holder : Owned} (membership : holder ∈ known)
    (same : holder.path.components = path.components) :
    (claim depthOf owner path known).map (·.path) = known.map (·.path) := by
  induction known with
  | nil => cases membership
  | cons head rest inductionHypothesis =>
      rw [claim]
      by_cases first : head.path.same path
      · rw [if_pos first, List.map_cons, List.map_cons]
        by_cases deeper : depthOf head.owner < depthOf owner
        · rw [if_pos deeper]
        · rw [if_neg deeper]
      · have inRest : holder ∈ rest := by
          rcases List.mem_cons.mp membership with rfl | inRest
          · exact absurd (Path.same_iff.mpr same) first
          · exact inRest
        rw [if_neg first, List.map_cons, inductionHypothesis inRest, List.map_cons]

/-- A claim makes the claimant the owner of the claimed path or changes nothing. -/
theorem mem_claim {entry : Owned} (membership : entry ∈ claim depthOf owner path known) :
    entry ∈ known ∨ entry.owner = owner ∧ entry.path.components = path.components := by
  induction known with
  | nil =>
      obtain rfl := List.mem_singleton.mp membership
      exact .inr ⟨rfl, rfl⟩
  | cons head rest inductionHypothesis =>
      rw [claim] at membership
      by_cases same : head.path.same path
      · rw [if_pos same] at membership
        rcases List.mem_cons.mp membership with rfl | inRest
        · by_cases deeper : depthOf head.owner < depthOf owner
          · rw [if_pos deeper]
            exact .inr ⟨rfl, Path.same_iff.mp same⟩
          · rw [if_neg deeper]
            exact .inl List.mem_cons_self
        · exact .inl (List.mem_cons_of_mem head inRest)
      · rw [if_neg same] at membership
        rcases List.mem_cons.mp membership with rfl | inClaim
        · exact .inl List.mem_cons_self
        · exact (inductionHypothesis inClaim).imp (List.mem_cons_of_mem head) id

variable (depthOf owner path) in
theorem Settles.owners_claim (settles : Settles claimed known) :
    ∀ entry ∈ claim depthOf owner path known, ∃ made ∈ claimed ++ [⟨owner, path⟩],
      made.owner = entry.owner ∧ made.path.components = entry.path.components := by
  intro entry membership
  rcases mem_claim membership with inKnown | ⟨sameOwner, samePath⟩
  · obtain ⟨made, inClaimed, agree⟩ := settles.owners entry inKnown
    exact ⟨made, List.mem_append_left _ inClaimed, agree⟩
  · exact ⟨_, List.mem_append_right claimed List.mem_cons_self, sameOwner.symm, samePath.symm⟩

theorem Settles.claim_known (settles : Settles claimed known) {holder : Owned}
    (membership : holder ∈ known) (same : holder.path.components = path.components) :
    Settles (claimed ++ [⟨owner, path⟩]) (claim depthOf owner path known) := by
  -- The paths stay as they are, so what holds of them before holds of them after.
  have paths : (claim depthOf owner path known).map (·.path) = known.map (·.path) :=
    map_path_claim_of_known membership same
  refine ⟨?apart, ?reached, settles.owners_claim depthOf owner path, ?settled⟩
  case apart =>
    have components := congrArg (List.map Path.components) paths
    rw [List.map_map, List.map_map] at components
    exact components ▸ settles.apart
  case reached =>
    intro entry inClaim
    obtain ⟨other, inKnown, samePath⟩ := List.mem_map.mp (paths ▸ List.mem_map_of_mem inClaim)
    obtain ⟨made, inClaimed, reached⟩ := settles.reached other inKnown
    exact ⟨made, List.mem_append_left _ inClaimed, reached.trans samePath⟩
  case settled =>
    intro made inClaims
    have holds : ∃ entry ∈ known, entry.path.components = made.path.components := by
      rcases List.mem_append.mp inClaims with inClaimed | isNext
      · exact settles.settled made inClaimed
      · obtain rfl := List.mem_singleton.mp isNext
        exact ⟨holder, membership, same⟩
    obtain ⟨entry, inKnown, sameComponents⟩ := holds
    obtain ⟨other, inClaim, samePath⟩ := List.mem_map.mp (paths ▸ List.mem_map_of_mem inKnown)
    exact ⟨other, inClaim, samePath ▸ sameComponents⟩

theorem Settles.claim_unknown (settles : Settles claimed known)
    (unknown : ∀ entry ∈ known, entry.path.components ≠ path.components) :
    Settles (claimed ++ [⟨owner, path⟩]) (claim depthOf owner path known) := by
  have owners := settles.owners_claim depthOf owner path
  rw [claim_of_unknown unknown] at owners ⊢
  refine ⟨?apart, ?reached, owners, ?settled⟩
  case apart =>
    rw [List.map_append]
    refine List.nodup_append.mpr ⟨settles.apart, List.pairwise_singleton _ _, ?_⟩
    intro components membership other isNext
    obtain ⟨entry, inKnown, rfl⟩ := List.mem_map.mp membership
    obtain rfl := List.mem_singleton.mp isNext
    exact unknown entry inKnown
  case reached =>
    intro entry membership
    rcases List.mem_append.mp membership with inKnown | isNext
    · obtain ⟨made, inClaimed, reached⟩ := settles.reached entry inKnown
      exact ⟨made, List.mem_append_left _ inClaimed, reached⟩
    · obtain rfl := List.mem_singleton.mp isNext
      exact ⟨_, List.mem_append_right claimed List.mem_cons_self, rfl⟩
  case settled =>
    intro made membership
    rcases List.mem_append.mp membership with inClaimed | isNext
    · obtain ⟨entry, inKnown, same⟩ := settles.settled made inClaimed
      exact ⟨entry, List.mem_append_left _ inKnown, same⟩
    · obtain rfl := List.mem_singleton.mp isNext
      exact ⟨_, List.mem_append_right known List.mem_cons_self, rfl⟩

variable (depthOf owner path) in
theorem Settles.claim (settles : Settles claimed known) :
    Settles (claimed ++ [⟨owner, path⟩]) (claim depthOf owner path known) := by
  by_cases held : ∃ holder ∈ known, holder.path.components = path.components
  · obtain ⟨holder, membership, same⟩ := held
    exact settles.claim_known membership same
  · exact settles.claim_unknown fun entry membership same => held ⟨entry, membership, same⟩

end Claim

/-! ### All claims -/

theorem settles_nil : Settles [] [] where
  apart := .nil
  reached := by simp
  owners := by simp
  settled := by simp

theorem Settles.claimAll {depthOf : Nat → Nat} {claimed owned : List Owned}
    (settles : Settles claimed owned) (more : List Owned) :
    Settles (claimed ++ more)
      (more.foldl (fun owned next => Ownership.claim depthOf next.owner next.path owned) owned) := by
  induction more generalizing claimed owned with
  | nil => simpa using settles
  | cons next more inductionHypothesis =>
      have further := inductionHypothesis (settles.claim depthOf next.owner next.path)
      rwa [List.append_assoc, List.singleton_append] at further

theorem Settles.perm {claimed owned others : List Owned} (settles : Settles claimed owned)
    (perm : others.Perm owned) : Settles claimed others where
  apart := (perm.map _).nodup_iff.mpr settles.apart
  reached entry membership := settles.reached entry (perm.mem_iff.mp membership)
  owners entry membership := settles.owners entry (perm.mem_iff.mp membership)
  settled made membership := by
    obtain ⟨entry, inOwned, same⟩ := settles.settled made membership
    exact ⟨entry, perm.mem_iff.mpr inOwned, same⟩

/-! ### All files of a solution -/

instance : Std.TransCmp Owned.order := by
  have paths : Std.TransCmp fun left right : Owned => left.path.order right.path :=
    transCmp_comap Owned.path
  exact inferInstanceAs (Std.TransCmp (compareLex (compareOn Owned.owner) _))

/-- Two settings under which the same files count as sources. -/
structure SameSources (settings other : Settings) : Prop where
  excluded : settings.excluded = other.excluded
  extension : settings.extension = other.extension

/-- What is owned depends on no other setting. -/
theorem assign_congr {tree : FileTree} {settings other : Settings} {projects : List Project}
    (same : SameSources settings other) :
    assign tree settings projects = assign tree other projects := by
  have leftOut : Sources.isLeftOut .full settings = Sources.isLeftOut .full other := by
    have excludes : settings.excludes = other.excludes := by
      funext name
      rw [Settings.excludes, Settings.excludes, same.excluded]
    funext path
    rw [Sources.isLeftOut, Sources.isLeftOut, excludes]
  have below : Sources.below .full tree settings = Sources.below .full tree other := by
    funext depth
    induction depth with
    | zero => rfl
    | succ depth inductionHypothesis =>
        funext directory
        simp only [Sources.below, inductionHypothesis, leftOut, same.extension]
  simp only [assign, claims, Sources.collect, Sources.collectWith, below]

section Assign

variable {tree : FileTree} {settings : Settings} {projects : List Project}

theorem settles_assign : Settles (claims tree settings projects) (assign tree settings projects) :=
  (settles_nil.claimAll _).perm (List.mergeSort_perm _ _)

theorem mem_claims {made : Owned} :
    made ∈ claims tree settings projects ↔ ∃ project, projects[made.owner]? = some project ∧
      made.path ∈ Sources.collect tree settings project.directory := by
  obtain ⟨owner, path⟩ := made
  simp only [claims, List.mem_flatMap, List.mem_map, Prod.exists, List.mem_zipIdx_iff_getElem?,
    Owned.mk.injEq]
  constructor
  · rintro ⟨project, _, listed, _, collected, rfl, rfl⟩
    exact ⟨project, listed, collected⟩
  · rintro ⟨project, listed, collected⟩
    exact ⟨project, owner, listed, path, collected, rfl, rfl⟩

theorem assign_eq_of_sorted {claimed owned : List Owned}
    (made : claims tree settings projects = claimed)
    (all : claimAll (depthIn projects) claimed = owned) (sorted : Sorted Owned.order owned) :
    assign tree settings projects = owned := by
  rw [assign, made, all]
  exact List.mergeSort_of_pairwise sorted

theorem assign_ordered :
    (assign tree settings projects).Pairwise fun first second => first.owner ≤ second.owner := by
  have sorted : Sorted Owned.order (assign tree settings projects) := sorted_mergeSort _
  refine sorted.imp fun {first second} before => ?_
  exact Nat.isLE_compare.mp (Ordering.isLE_left_of_isLE_then before)

theorem owner_lt_of_mem_assign {entry : Owned}
    (membership : entry ∈ assign tree settings projects) : entry.owner < projects.length := by
  obtain ⟨made, claimed, owner, _⟩ := settles_assign.owners entry membership
  obtain ⟨project, listed, _⟩ := mem_claims.mp claimed
  rw [← owner]
  exact (List.getElem?_eq_some_iff.mp listed).1

end Assign

end Ownership

end SolutionSurvey

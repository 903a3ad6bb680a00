import SolutionSurvey.Proofs.Solution.Ownership

/-!
# The innermost project owns a source

The claims for a path are decided one by one: who makes a claim takes the path from a holder whose
directory is less deep, and only then.  Projects make their claims in the order of the solution, so
in the end the path is with the first of the projects whose directories are deepest.
-/

namespace SolutionSurvey.Ownership

/-! ### Who is to own a source -/

section Definitions

variable (tree : FileTree) (settings : Settings) (projects : List Project) (owner : Nat) (path : Path)

/-- The source is found below the directory of a project. -/
def Reaches : Prop :=
  ∃ project, projects[owner]? = some project ∧
    ∃ found ∈ Sources.collect tree settings project.directory, found.components = path.components

/-- No other project that reaches the source lies deeper, and none that lies as deep comes earlier. -/
structure Innermost : Prop where
  reaches : Reaches tree settings projects owner path
  deepest : ∀ other, Reaches tree settings projects other path →
    depthIn projects other ≤ depthIn projects owner
  first : ∀ other, Reaches tree settings projects other path →
    depthIn projects other = depthIn projects owner → owner ≤ other

/-- The source is given to a project. -/
def Owns : Prop :=
  ∃ owned ∈ assign tree settings projects,
    owned.owner = owner ∧ owned.path.components = path.components

end Definitions

/-! ### One claim -/

/-- What a claim leaves: the entries of other paths, the entry that it and the entry of a holder are
decided to, or an entry of its own if nobody holds the path. -/
inductive Decided (depthOf : Nat → Nat) (owner : Nat) (path : Path) (known : List Owned)
    (entry : Owned) : Prop where
  | other : entry ∈ known → entry.path.components ≠ path.components →
      Decided depthOf owner path known entry
  | taken (holder) : holder ∈ known → holder.path.components = path.components →
      depthOf holder.owner < depthOf owner → entry = { holder with owner } →
      Decided depthOf owner path known entry
  | kept : entry ∈ known → entry.path.components = path.components →
      depthOf owner ≤ depthOf entry.owner → Decided depthOf owner path known entry
  | fresh : (∀ holder ∈ known, holder.path.components ≠ path.components) →
      entry = ⟨owner, path⟩ → Decided depthOf owner path known entry

section Claim

variable {depthOf : Nat → Nat} {owner : Nat} {path : Path} {known claimed : List Owned}

theorem Decided.cons {entry head : Owned} (decided : Decided depthOf owner path known entry)
    (different : head.path.components ≠ path.components) :
    Decided depthOf owner path (head :: known) entry := by
  cases decided with
  | other inKnown elsewhere => exact .other (List.mem_cons_of_mem head inKnown) elsewhere
  | taken holder inKnown same deeper eq =>
      exact .taken holder (List.mem_cons_of_mem head inKnown) same deeper eq
  | kept inKnown same deep => exact .kept (List.mem_cons_of_mem head inKnown) same deep
  | fresh unknown eq => exact .fresh (List.forall_mem_cons.mpr ⟨different, unknown⟩) eq

theorem decided_of_mem_claim (apart : (known.map (·.path.components)).Nodup) {entry : Owned}
    (membership : entry ∈ claim depthOf owner path known) :
    Decided depthOf owner path known entry := by
  induction known with
  | nil => exact .fresh (by simp) (List.mem_singleton.mp membership)
  | cons head rest inductionHypothesis =>
      obtain ⟨headApart, restApart⟩ := List.nodup_cons.mp apart
      rw [claim] at membership
      by_cases same : head.path.same path
      · rw [if_pos same] at membership
        have sameComponents := Path.same_iff.mp same
        rcases List.mem_cons.mp membership with rfl | inRest
        · by_cases deeper : depthOf head.owner < depthOf owner
          · rw [if_pos deeper]
            exact .taken head List.mem_cons_self sameComponents deeper rfl
          · rw [if_neg deeper]
            exact .kept List.mem_cons_self sameComponents (Nat.le_of_not_lt deeper)
        · apply Decided.other (List.mem_cons_of_mem head inRest)
          intro held
          exact headApart (List.mem_map.mpr ⟨entry, inRest, held.trans sameComponents.symm⟩)
      · rw [if_neg same] at membership
        rcases List.mem_cons.mp membership with rfl | inClaim
        · exact .other List.mem_cons_self (mt Path.same_iff.mpr same)
        · exact (inductionHypothesis restApart inClaim).cons (mt Path.same_iff.mpr same)

/-- One owner goes before another: its directory is deeper, or as deep and it comes no later. -/
def Precedes (depthOf : Nat → Nat) (owner other : Nat) : Prop :=
  depthOf other ≤ depthOf owner ∧ (depthOf other = depthOf owner → owner ≤ other)

/-- Every path is with an owner who goes before all that claimed it. -/
def Ranked (depthOf : Nat → Nat) (claimed owned : List Owned) : Prop :=
  ∀ entry ∈ owned, ∀ made ∈ claimed, made.path.components = entry.path.components →
    Precedes depthOf entry.owner made.owner

/-- Who claims a path after all others goes before them only if its directory is deeper. -/
theorem Ranked.claim (ranked : Ranked depthOf claimed known) (settles : Settles claimed known)
    (later : ∀ made ∈ claimed, made.owner ≤ owner) :
    Ranked depthOf (claimed ++ [⟨owner, path⟩]) (claim depthOf owner path known) := by
  intro entry membership made inClaims same
  have isMade : made ∈ claimed ∨ made = ⟨owner, path⟩ := by
    simpa using inClaims
  cases decided_of_mem_claim settles.apart membership with
  | other inKnown elsewhere =>
      rcases isMade with inClaimed | rfl
      · exact ranked entry inKnown made inClaimed same
      · exact absurd same.symm elsewhere
  | taken holder inKnown held deeper eq =>
      subst eq
      rcases isMade with inClaimed | rfl
      · have below : depthOf made.owner < depthOf owner :=
          Nat.lt_of_le_of_lt (ranked holder inKnown made inClaimed same).1 deeper
        exact ⟨Nat.le_of_lt below, fun tie => absurd tie (Nat.ne_of_lt below)⟩
      · exact ⟨Nat.le_refl _, fun _ => Nat.le_refl _⟩
  | kept inKnown held deep =>
      rcases isMade with inClaimed | rfl
      · exact ranked entry inKnown made inClaimed same
      · -- A holder has made a claim, so in a tie it comes no later.
        obtain ⟨earlier, inClaimed, sameOwner, _⟩ := settles.owners entry inKnown
        exact ⟨deep, fun _ => sameOwner ▸ later earlier inClaimed⟩
  | fresh unknown eq =>
      subst eq
      rcases isMade with inClaimed | rfl
      · obtain ⟨holder, inKnown, held⟩ := settles.settled made inClaimed
        exact absurd (held.trans same) (unknown holder inKnown)
      · exact ⟨Nat.le_refl _, fun _ => Nat.le_refl _⟩

end Claim

/-! ### All claims -/

theorem Ranked.claimAll {depthOf : Nat → Nat} {claimed owned : List Owned}
    (ranked : Ranked depthOf claimed owned) (settles : Settles claimed owned) (more : List Owned)
    (ordered : (claimed ++ more).Pairwise fun earlier later => earlier.owner ≤ later.owner) :
    Ranked depthOf (claimed ++ more)
      (more.foldl (fun owned next => Ownership.claim depthOf next.owner next.path owned) owned) := by
  induction more generalizing claimed owned with
  | nil => simpa using ranked
  | cons next more inductionHypothesis =>
      have later : ∀ made ∈ claimed, made.owner ≤ next.owner := fun made inClaimed =>
        (List.pairwise_append.mp ordered).2.2 made inClaimed next List.mem_cons_self
      have further := inductionHypothesis (ranked.claim settles later)
        (settles.claim depthOf next.owner next.path) (by simpa using ordered)
      rwa [List.append_assoc, List.singleton_append] at further

section Assign

variable {tree : FileTree} {settings : Settings} {projects : List Project}

/-- The projects make their claims in the order of the solution. -/
theorem claims_ordered :
    (claims tree settings projects).Pairwise fun earlier later => earlier.owner ≤ later.owner := by
  have places : (projects.zipIdx.map Prod.snd).Pairwise (· < ·) := by
    rw [List.zipIdx_map_snd]
    exact List.pairwise_lt_range'
  apply List.pairwise_flatMap.mpr
  constructor
  · rintro ⟨project, owner⟩ _
    apply List.pairwise_map.mpr
    exact List.pairwise_of_forall fun _ _ => Nat.le_refl owner
  · apply (List.pairwise_map.mp places).imp
    rintro ⟨first, owner⟩ ⟨second, other⟩ before earlier isEarlier later isLater
    obtain ⟨_, _, rfl⟩ := List.mem_map.mp isEarlier
    obtain ⟨_, _, rfl⟩ := List.mem_map.mp isLater
    exact Nat.le_of_lt before

theorem ranked_assign :
    Ranked (depthIn projects) (claims tree settings projects) (assign tree settings projects) := by
  have ranked : Ranked (depthIn projects) [] [] := by simp [Ranked]
  have all := ranked.claimAll settles_nil (claims tree settings projects) claims_ordered
  intro entry membership
  exact all entry ((List.mergeSort_perm _ _).mem_iff.mp membership)

variable {owner : Nat} {path : Path}

theorem reaches_iff :
    Reaches tree settings projects owner path ↔ ∃ made ∈ claims tree settings projects,
      made.owner = owner ∧ made.path.components = path.components := by
  constructor
  · rintro ⟨project, listed, found, collected, same⟩
    exact ⟨⟨owner, found⟩, mem_claims.mpr ⟨project, listed, collected⟩, rfl, same⟩
  · rintro ⟨made, claimed, rfl, same⟩
    obtain ⟨project, listed, collected⟩ := mem_claims.mp claimed
    exact ⟨project, listed, made.path, collected, same⟩

theorem Innermost.unique {other : Nat} (first : Innermost tree settings projects owner path)
    (second : Innermost tree settings projects other path) : owner = other := by
  have tie : depthIn projects owner = depthIn projects other :=
    Nat.le_antisymm (second.deepest owner first.reaches) (first.deepest other second.reaches)
  apply Nat.le_antisymm
  · exact first.first other second.reaches tie.symm
  · exact second.first owner first.reaches tie

theorem Owns.innermost (owns : Owns tree settings projects owner path) :
    Innermost tree settings projects owner path := by
  obtain ⟨entry, assigned, rfl, samePath⟩ := owns
  have precedes : ∀ other, Reaches tree settings projects other path →
      Precedes (depthIn projects) entry.owner other := by
    intro other reaches
    obtain ⟨made, claimed, rfl, same⟩ := reaches_iff.mp reaches
    exact ranked_assign entry assigned made claimed (same.trans samePath.symm)
  obtain ⟨made, claimed, sameOwner, same⟩ := settles_assign.owners entry assigned
  exact
    { reaches := reaches_iff.mpr ⟨made, claimed, sameOwner, same.trans samePath⟩
      deepest := fun other reaches => (precedes other reaches).1
      first := fun other reaches => (precedes other reaches).2 }

theorem exists_owns (reached : ∃ owner, Reaches tree settings projects owner path) :
    ∃ owner, Owns tree settings projects owner path := by
  obtain ⟨owner, reaches⟩ := reached
  obtain ⟨made, claimed, _, same⟩ := reaches_iff.mp reaches
  obtain ⟨entry, assigned, samePath⟩ := settles_assign.settled made claimed
  exact ⟨entry.owner, entry, assigned, rfl, samePath.trans same⟩

/-- A source is given to the innermost of the projects that reach it, and to no other one. -/
theorem owns_iff_innermost :
    Owns tree settings projects owner path ↔ Innermost tree settings projects owner path := by
  constructor
  · exact Owns.innermost
  · intro innermost
    obtain ⟨other, owns⟩ := exists_owns ⟨owner, innermost.reaches⟩
    exact innermost.unique owns.innermost ▸ owns

/-- The sources of one project are in the order of their paths. -/
theorem assign_ascending : (assign tree settings projects).Pairwise fun first second =>
    first.owner = second.owner → first.path.order second.path = .lt := by
  have sorted : Sorted Owned.order (assign tree settings projects) := sorted_mergeSort _
  have apart := List.pairwise_map.mp
    (settles_assign.apart : ((assign tree settings projects).map (·.path.components)).Nodup)
  apply (sorted.and apart).imp
  rintro first second ⟨before, different⟩ sameOwner
  have tied : compare second.owner second.owner = .eq := Std.ReflCmp.compare_self
  rw [Owned.order, sameOwner, tied, Ordering.eq_then] at before
  rcases Ordering.isLE_iff_eq_lt_or_eq_eq.mp before with less | tie
  · exact less
  · exact absurd (Path.components_eq_of_order_eq tie) different

end Assign

end SolutionSurvey.Ownership

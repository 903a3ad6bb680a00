import Mathlib.Data.List.Nodup
import SolutionSurvey.Proofs.Path.Plain
import SolutionSurvey.Proofs.Solution.Innermost
import SolutionSurvey.Proofs.Solution.Sources

/-!
# Ownership without the order of the projects

The order of the projects decides between directories that are equally deep.  Plain paths that lead
down to one source and are equally deep are the same, so if the directories are plain and differ, a
source belongs to the deepest project that reaches it, whatever the order is.
-/

namespace SolutionSurvey

namespace Sources

variable {tree : FileTree} {settings : Settings} {directory other path : Path}

theorem isPlain_of_mem_collect (plain : directory.IsPlain)
    (collected : path ∈ collect tree settings directory) : path.IsPlain := by
  have handedOn := related_of_mem_below (fun directory path => directory.IsPlain → path.IsPlain)
    (fun _ _ _ proper plain => plain.join proper)
    (fun _ _ _ first second => second ∘ first) (List.mem_mergeSort.mp collected)
  exact handedOn plain

theorem SpelledBelow.exists_components (spelled : SpelledBelow directory path) :
    ∃ way, path.components = directory.components ++ way := by
  obtain ⟨way, names, _⟩ := spelled.names
  refine ⟨way.map Path.componentOf, ?_⟩
  rw [Path.components_eq, Path.components_eq, spelled.start, names, List.map_append,
    List.append_assoc]

/-- No two plain directories of the same depth have a source in common. -/
theorem directory_eq_of_collected (plain : directory.IsPlain)
    (plainToo : other.IsPlain) (sameDepth : directory.depth = other.depth)
    (collected : path ∈ collect tree settings directory)
    (collectedToo : path ∈ collect tree settings other) : directory = other := by
  obtain ⟨way, components⟩ := (spelledBelow_of_mem_collect collected).exists_components
  obtain ⟨further, componentsToo⟩ :=
    (spelledBelow_of_mem_collect collectedToo).exists_components
  have same : directory.components = other.components :=
    List.append_inj_left (components.symm.trans componentsToo) sameDepth
  exact plain.eq_of_components_eq plainToo same

end Sources

namespace Ownership

/-- The projects lie in different directories, and their paths are plain. -/
structure PlainlyApart (projects : List Project) : Prop where
  plain : ∀ project ∈ projects, project.directory.IsPlain
  directories : (projects.map (·.directory)).Nodup

/-- The source is found below the directory of a project and not below a deeper one. -/
structure IsOwn (tree : FileTree) (settings : Settings) (projects : List Project)
    (project : Project) (path : Path) : Prop where
  collected : path ∈ Sources.collect tree settings project.directory
  deepest : ∀ rival ∈ projects, path ∈ Sources.collect tree settings rival.directory →
    rival.directory.depth ≤ project.directory.depth

section Projects

variable {tree : FileTree} {settings : Settings} {projects others : List Project}

theorem PlainlyApart.perm (apart : PlainlyApart projects) (perm : others.Perm projects) :
    PlainlyApart others where
  plain project membership := apart.plain project (perm.mem_iff.mp membership)
  directories := (perm.map _).nodup_iff.mpr apart.directories

theorem isOwn_iff_of_perm (perm : others.Perm projects) {project : Project} {path : Path} :
    IsOwn tree settings others project path ↔ IsOwn tree settings projects project path := by
  constructor
  · intro own
    exact ⟨own.collected, fun rival listed => own.deepest rival (perm.mem_iff.mpr listed)⟩
  · intro own
    exact ⟨own.collected, fun rival listed => own.deepest rival (perm.mem_iff.mp listed)⟩

theorem depthIn_eq {owner : Nat} {project : Project} (listed : projects[owner]? = some project) :
    depthIn projects owner = project.directory.depth := by
  rw [depthIn, listed]
  rfl

section Plain

variable (apart : PlainlyApart projects)

include apart

theorem isPlain_of_mem_claims {made : Owned} (claimed : made ∈ claims tree settings projects) :
    made.path.IsPlain := by
  obtain ⟨project, listed, collected⟩ := mem_claims.mp claimed
  exact Sources.isPlain_of_mem_collect (apart.plain project (List.mem_of_getElem? listed)) collected

theorem isPlain_of_mem_assign {owned : Owned} (assigned : owned ∈ assign tree settings projects) :
    owned.path.IsPlain := by
  obtain ⟨made, claimed, same⟩ := settles_assign.reached owned assigned
  exact same ▸ isPlain_of_mem_claims apart claimed

/-- The sources are the paths found below the directories of all projects. -/
theorem mem_map_path_assign {path : Path} :
    path ∈ (assign tree settings projects).map (·.path) ↔
      ∃ project ∈ projects, path ∈ Sources.collect tree settings project.directory := by
  constructor
  · intro membership
    obtain ⟨owned, assigned, rfl⟩ := List.mem_map.mp membership
    obtain ⟨made, claimed, same⟩ := settles_assign.reached owned assigned
    obtain ⟨project, listed, collected⟩ := mem_claims.mp claimed
    exact ⟨project, List.mem_of_getElem? listed, same ▸ collected⟩
  · rintro ⟨project, membership, collected⟩
    obtain ⟨owner, listed⟩ := List.mem_iff_getElem?.mp membership
    have claimed : (⟨owner, path⟩ : Owned) ∈ claims tree settings projects :=
      mem_claims.mpr ⟨project, listed, collected⟩
    obtain ⟨owned, assigned, same⟩ := settles_assign.settled _ claimed
    have samePath : owned.path = path :=
      (isPlain_of_mem_assign apart assigned).eq_of_components_eq
        (isPlain_of_mem_claims apart claimed) same
    exact List.mem_map.mpr ⟨owned, assigned, samePath⟩

theorem isOwn_of_mem_assign {owned : Owned} (assigned : owned ∈ assign tree settings projects)
    {project : Project} (listed : projects[owned.owner]? = some project) :
    IsOwn tree settings projects project owned.path := by
  have owns : Owns tree settings projects owned.owner owned.path := ⟨owned, assigned, rfl, rfl⟩
  have innermost := owns.innermost
  constructor
  · obtain ⟨reaching, listedToo, found, collected, same⟩ := innermost.reaches
    obtain rfl : reaching = project := Option.some.inj (listedToo.symm.trans listed)
    have plain := Sources.isPlain_of_mem_collect
      (apart.plain reaching (List.mem_of_getElem? listed)) collected
    have samePath : found = owned.path :=
      plain.eq_of_components_eq (isPlain_of_mem_assign apart assigned) same
    exact samePath ▸ collected
  · intro rival membership collected
    obtain ⟨other, rivalListed⟩ := List.mem_iff_getElem?.mp membership
    have deepest := innermost.deepest other ⟨rival, rivalListed, owned.path, collected, rfl⟩
    rwa [depthIn_eq rivalListed, depthIn_eq listed] at deepest

/-- A source is given to the project whose own it is. -/
theorem mem_assign_iff_isOwn {owner : Nat} {project : Project}
    (listed : projects[owner]? = some project) {path : Path} :
    (⟨owner, path⟩ : Owned) ∈ assign tree settings projects ↔
      IsOwn tree settings projects project path := by
  constructor
  · intro assigned
    exact isOwn_of_mem_assign apart assigned listed
  · intro own
    have membership := List.mem_of_getElem? listed
    have reached := (mem_map_path_assign apart).mpr ⟨project, membership, own.collected⟩
    obtain ⟨⟨other, _⟩, assigned, rfl⟩ := List.mem_map.mp reached
    obtain ⟨rival, rivalListed⟩ : ∃ rival, projects[other]? = some rival :=
      ⟨_, List.getElem?_eq_getElem (owner_lt_of_mem_assign assigned)⟩
    have rivalOwn := isOwn_of_mem_assign apart assigned rivalListed
    have rivalMembership := List.mem_of_getElem? rivalListed
    have sameDepth : rival.directory.depth = project.directory.depth :=
      Nat.le_antisymm (own.deepest rival rivalMembership rivalOwn.collected)
        (rivalOwn.deepest project membership own.collected)
    have sameDirectory := Sources.directory_eq_of_collected
      (apart.plain rival rivalMembership) (apart.plain project membership) sameDepth
      rivalOwn.collected own.collected
    -- Different directories are in different places.
    have samePlace : other = owner := by
      have within : other < (projects.map (·.directory)).length := by
        simpa using owner_lt_of_mem_assign assigned
      apply (List.getElem?_inj within apart.directories).mp
      rw [List.getElem?_map, List.getElem?_map, rivalListed, listed, Option.map_some,
        Option.map_some, sameDirectory]
    exact samePlace ▸ assigned

/-- Another order of the projects brings the same sources. -/
theorem map_path_assign_perm (perm : others.Perm projects) :
    ((assign tree settings others).map (·.path)).Perm
      ((assign tree settings projects).map (·.path)) := by
  have distinct : ∀ order : List Project, ((assign tree settings order).map (·.path)).Nodup := by
    intro order
    apply List.Nodup.of_map Path.components
    rw [List.map_map]
    exact settles_assign.apart
  apply (List.perm_ext_iff_of_nodup (distinct others) (distinct projects)).mpr
  intro path
  rw [mem_map_path_assign (apart.perm perm), mem_map_path_assign apart]
  simp only [perm.mem_iff]

end Plain

end Projects

end Ownership

end SolutionSurvey

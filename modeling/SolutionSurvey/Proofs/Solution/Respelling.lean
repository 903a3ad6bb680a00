import SolutionSurvey.Proofs.Collection.Alike
import SolutionSurvey.Proofs.FileTree.Links
import SolutionSurvey.Proofs.Solution.Ownership
import SolutionSurvey.Proofs.Solution.Sources

/-!
# A directory that is spelled in two ways

What is collected below a directory, and which project gets it, does not depend on how the directory
is spelled.  The two rows of sources go on from the two spellings in the same way, so they are
compared, claimed and sorted alike.
-/

namespace SolutionSurvey

/-- Two paths go on in the same way from two rows of components, and lead the same way. -/
structure Respelled (tree : FileTree) (left right : List Component) (first second : Path) : Prop where
  components : ∃ further, first.components = left ++ further ∧ second.components = right ++ further
  followed : tree.FollowedAlike first second

/-- Two respelled paths of something that a directory lists. -/
structure RespelledEntry (tree : FileTree) (left right : List Component) (first second : Path) : Prop
    extends Respelled tree left right first second where
  firstEnding : first.EndsInName
  secondEnding : second.EndsInName

variable {tree : FileTree} {left right : List Component} {first second : Path}

theorem Respelled.join (respelled : Respelled tree left right first second) {name : String}
    (proper : Path.properName name) :
    RespelledEntry tree left right (first.join ⟨name⟩) (second.join ⟨name⟩) where
  components := by
    obtain ⟨further, firstSpelled, secondSpelled⟩ := respelled.components
    refine ⟨further ++ [.name name], ?_, ?_⟩
    · rw [Path.components_join proper, firstSpelled, List.append_assoc]
    · rw [Path.components_join proper, secondSpelled, List.append_assoc]
  followed := respelled.followed.join proper
  firstEnding := FileTree.endsInName_join proper first
  secondEnding := FileTree.endsInName_join proper second

namespace RespelledEntry

theorem find?_eq (respelled : RespelledEntry tree left right first second) :
    tree.find? first = tree.find? second :=
  respelled.followed.find?_eq respelled.firstEnding respelled.secondEnding

theorem way?_eq (respelled : RespelledEntry tree left right first second) :
    tree.way? first = tree.way? second :=
  respelled.followed.way?_eq respelled.firstEnding respelled.secondEnding

theorem content?_eq (respelled : RespelledEntry tree left right first second) :
    tree.content? first = tree.content? second := by
  rw [FileTree.content?, FileTree.content?, respelled.find?_eq]

end RespelledEntry

theorem Respelled.same_eq {other another : Path} (respelled : Respelled tree left right first second)
    (further : Respelled tree left right other another) :
    first.same other = second.same another := by
  obtain ⟨way, firstSpelled, secondSpelled⟩ := respelled.components
  obtain ⟨way, otherSpelled, anotherSpelled⟩ := further.components
  rw [Bool.eq_iff_iff, Path.same_iff, Path.same_iff, firstSpelled, secondSpelled, otherSpelled,
    anotherSpelled, List.append_cancel_left_eq, List.append_cancel_left_eq]

theorem Respelled.order_eq {other another : Path}
    (respelled : Respelled tree left right first second)
    (further : Respelled tree left right other another) :
    first.order other = second.order another := by
  obtain ⟨way, firstSpelled, secondSpelled⟩ := respelled.components
  obtain ⟨way, otherSpelled, anotherSpelled⟩ := further.components
  rw [Path.order, Path.order, firstSpelled, secondSpelled, otherSpelled, anotherSpelled,
    Path.orderAll_append_left, Path.orderAll_append_left]

/-! ### What is collected -/

namespace Sources

variable {settings : Settings}

theorem respelled_below {depth : Nat}
    (respelled : Respelled tree left right first second) (firstWritten : first.text ≠ "")
    (secondWritten : second.text ≠ "") :
    List.Forall₂ (RespelledEntry tree left right) (below .full tree settings depth first)
      (below .full tree settings depth second) := by
  induction depth generalizing first second with
  | zero => exact .nil
  | succ depth inductionHypothesis =>
      rw [below, below, Access.list?_full, Access.list?_full,
        respelled.followed.list?_eq firstWritten secondWritten]
      cases listed : tree.list? second with
      | none => exact .nil
      | some names =>
          apply forall₂_flatMap_of_mem
          intro name membership
          have proper := FileTree.properName_of_list? listed name membership
          have joined := respelled.join proper
          have directory : tree.isDirectory (first.join ⟨name⟩) =
              tree.isDirectory (second.join ⟨name⟩) := by
            rw [FileTree.isDirectory, FileTree.isDirectory, joined.find?_eq]
          have further := inductionHypothesis joined.toRespelled
            joined.firstEnding.text_ne joined.secondEnding.text_ne
          simp only [Access.isDirectory_full, directory, isLeftOut, hasExtension, Path.extension?,
            Path.fileName?_join proper]
          by_cases isDirectory : tree.isDirectory (second.join ⟨name⟩)
          · rw [if_pos isDirectory, if_pos isDirectory]
            split
            · exact .nil
            · exact further
          · rw [if_neg isDirectory, if_neg isDirectory]
            split
            · exact .cons joined .nil
            · exact .nil

theorem respelled_collect
    (respelled : Respelled tree left right first second) (firstWritten : first.text ≠ "")
    (secondWritten : second.text ≠ "") :
    List.Forall₂ (RespelledEntry tree left right) (collect tree settings first)
      (collect tree settings second) := by
  apply forall₂_mergeSort (respelled_below respelled firstWritten secondWritten)
  intro path other alike further another alikeToo
  rw [alike.order_eq alikeToo.toRespelled]

/-- Nothing is found below a directory that is not spelled at all. -/
theorem collect_of_unwritten (unwritten : first.text = "") : collect tree settings first = [] := by
  have nothing : tree.find? first = none := by simp [FileTree.find?, unwritten]
  have unlisted : tree.list? first = none := by simp [FileTree.list?, nothing]
  rw [collect, collectWith, below, Access.list?_full, unlisted]
  exact List.mergeSort_nil

end Sources

/-! ### Who gets it -/

/-- Two spellings of a project: its directory is spelled with the one or the other row of
components. -/
structure RespelledProject (tree : FileTree) (left right : List Component) (first second : Project) :
    Prop where
  name : first.name = second.name
  firstSpelled : first.directory.components = left
  secondSpelled : second.directory.components = right
  followed : tree.FollowedAlike first.directory second.directory

theorem RespelledProject.directory {project other : Project}
    (respelled : RespelledProject tree left right project other) :
    Respelled tree left right project.directory other.directory where
  components := ⟨[], by rw [respelled.firstSpelled, List.append_nil],
    by rw [respelled.secondSpelled, List.append_nil]⟩
  followed := respelled.followed

theorem RespelledProject.collect {settings : Settings} {project other : Project}
    (respelled : RespelledProject tree left right project other)
    (leftWritten : left ≠ []) (rightWritten : right ≠ []) :
    List.Forall₂ (RespelledEntry tree left right) (Sources.collect tree settings project.directory)
      (Sources.collect tree settings other.directory) := by
  have written : project.directory.text ≠ "" := by
    rw [Ne, ← Path.components_eq_nil_iff, respelled.firstSpelled]
    exact leftWritten
  have writtenToo : other.directory.text ≠ "" := by
    rw [Ne, ← Path.components_eq_nil_iff, respelled.secondSpelled]
    exact rightWritten
  exact Sources.respelled_collect respelled.directory written writtenToo

namespace Ownership

variable {settings : Settings} {projects others : List Project}

/-- The same project owns two spellings of a source. -/
structure RespelledOwned (tree : FileTree) (left right : List Component) (first second : Owned) :
    Prop where
  owner : first.owner = second.owner
  path : RespelledEntry tree left right first.path second.path

theorem respelled_claim {depthOf depthOfToo : Nat → Nat} {known knownToo : List Owned}
    {next nextToo : Owned}
    (deeper : ∀ owner other, depthOf owner < depthOf other ↔ depthOfToo owner < depthOfToo other)
    (respelled : List.Forall₂ (RespelledOwned tree left right) known knownToo)
    (claimed : RespelledOwned tree left right next nextToo) :
    List.Forall₂ (RespelledOwned tree left right) (claim depthOf next.owner next.path known)
      (claim depthOfToo nextToo.owner nextToo.path knownToo) := by
  induction respelled with
  | nil => exact .cons claimed .nil
  | @cons head headToo rest restToo respelledHead respelledRest inductionHypothesis =>
      rw [claim, claim, respelledHead.path.same_eq claimed.path.toRespelled]
      by_cases same : headToo.path.same nextToo.path
      · rw [if_pos same, if_pos same]
        refine .cons ?_ respelledRest
        simp only [deeper, respelledHead.owner, claimed.owner]
        split
        · exact ⟨rfl, respelledHead.path⟩
        · exact respelledHead
      · rw [if_neg same, if_neg same]
        exact .cons respelledHead inductionHypothesis

theorem respelled_claimAll {depthOf depthOfToo : Nat → Nat} {claimed claimedToo : List Owned}
    (deeper : ∀ owner other, depthOf owner < depthOf other ↔ depthOfToo owner < depthOfToo other)
    (respelled : List.Forall₂ (RespelledOwned tree left right) claimed claimedToo) :
    List.Forall₂ (RespelledOwned tree left right) (claimAll depthOf claimed)
      (claimAll depthOfToo claimedToo) := by
  unfold claimAll
  refine List.rel_foldl ?_ .nil respelled
  intro known knownToo respelledKnown next nextToo claimed
  exact respelled_claim deeper respelledKnown claimed

theorem depthIn_of_all {components : List Component}
    (spelled : ∀ project ∈ projects, project.directory.components = components) (owner : Nat) :
    depthIn projects owner = if owner < projects.length then components.length else 0 := by
  unfold depthIn Path.depth
  by_cases inside : owner < projects.length
  · rw [if_pos inside, List.getElem?_eq_getElem inside, Option.map_some, Option.getD_some,
      spelled _ (List.getElem_mem inside)]
  · rw [if_neg inside, List.getElem?_eq_none (Nat.le_of_not_lt inside)]
    rfl

section Assign

variable (respelled : List.Forall₂ (RespelledProject tree left right) projects others)

include respelled

theorem spelled_of_respelled :
    (∀ project ∈ projects, project.directory.components = left) ∧
      ∀ project ∈ others, project.directory.components = right := by
  induction respelled with
  | nil => exact ⟨List.forall_mem_nil _, List.forall_mem_nil _⟩
  | cons head _ inductionHypothesis =>
      exact ⟨List.forall_mem_cons.mpr ⟨head.firstSpelled, inductionHypothesis.1⟩,
        List.forall_mem_cons.mpr ⟨head.secondSpelled, inductionHypothesis.2⟩⟩

theorem deeper_iff_of_respelled (leftWritten : left ≠ []) (rightWritten : right ≠ [])
    (owner other : Nat) :
    depthIn projects owner < depthIn projects other ↔
      depthIn others owner < depthIn others other := by
  obtain ⟨spelled, spelledToo⟩ := spelled_of_respelled respelled
  have deep := List.length_pos_iff.mpr leftWritten
  have deepToo := List.length_pos_iff.mpr rightWritten
  simp only [depthIn_of_all spelled, depthIn_of_all spelledToo, respelled.length_eq]
  split <;> split <;> omega

theorem respelled_claims (leftWritten : left ≠ []) (rightWritten : right ≠ []) :
    List.Forall₂ (RespelledOwned tree left right) (claims tree settings projects)
      (claims tree settings others) := by
  have numbered := forall₂_zipIdx respelled 0
  apply List.rel_flatMap numbered
  rintro ⟨project, owner⟩ ⟨other, ownerToo⟩ ⟨respelledProject, sameOwner⟩
  rw [List.forall₂_map_left_iff, List.forall₂_map_right_iff]
  refine (respelledProject.collect leftWritten rightWritten).imp ?_
  exact fun _ _ path => ⟨sameOwner, path⟩

/-- The same files are assigned to the same projects, in the same order. -/
theorem respelled_assign (leftWritten : left ≠ []) (rightWritten : right ≠ []) :
    List.Forall₂ (RespelledOwned tree left right) (assign tree settings projects)
      (assign tree settings others) := by
  apply forall₂_mergeSort
  · exact respelled_claimAll (deeper_iff_of_respelled respelled leftWritten rightWritten)
      (respelled_claims respelled leftWritten rightWritten)
  · intro made other alike next another alikeToo
    rw [Owned.order, Owned.order, alike.owner, alikeToo.owner,
      alike.path.order_eq alikeToo.path.toRespelled]

end Assign

end Ownership

end SolutionSurvey

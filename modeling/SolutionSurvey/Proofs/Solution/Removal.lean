import SolutionSurvey.Proofs.Collection.Parts
import SolutionSurvey.Proofs.FileTree.Removal
import SolutionSurvey.Proofs.Solution.Ownership
import SolutionSurvey.Proofs.Solution.Sources

/-!
# The sources of a tree without some files

If some files are taken out of a tree, the sources that are found are the same as before, except for
those that are gone, and everything that is left has the same owner.
-/

namespace SolutionSurvey

open FileTree (GoneLeadsTo)

variable {tree : FileTree} {gone : List String → Bool} {kind : List String → Prop}
  {settings : Settings}

namespace Sources

/-! ### The entry of a source -/

namespace ListedIn

variable {path : Path} {way last : List String} {name : String}
  (listed : ListedIn tree path way name)

include listed

theorem goesDown : Path.GoesDown name := by
  obtain ⟨_, _, _, _, proper, _⟩ := listed
  exact Path.goesDown_of_proper proper

theorem entryWay?_eq : tree.entryWay? path = some (way ++ [name]) := by
  obtain ⟨directory, links, entries, rfl, proper, enough, leads, _⟩ := listed
  exact FileTree.entryWay?_join proper leads enough

theorem isGone_eq (gone : List String → Bool) : tree.isGone gone path = gone (way ++ [name]) := by
  rw [FileTree.isGone, listed.entryWay?_eq, Option.any_some]

/-- A source leads where its entry leads. -/
theorem leads_of_way? (found : tree.way? path = some last) :
    ∃ links, tree.Leads way [name] links last := by
  obtain ⟨directory, links, entries, rfl, proper, enough, leads, _⟩ := listed
  obtain ⟨_, _, joined⟩ :=
    (FileTree.way?_eq_some_iff (FileTree.endsInName_join proper directory)).mp found
  obtain ⟨_, other, further, before, after, _⟩ := (FileTree.leadsTo_join proper).mp joined
  obtain ⟨rfl, rfl⟩ := leads.2.unique before.2
  exact ⟨further, after⟩

end ListedIn

section Below

variable (goneLeads : GoneLeadsTo gone tree kind) 
include goneLeads

/-- Whatever is gone was no directory, by whatever path it was reached. -/
theorem not_isDirectory_of_gone {path : Path} {way : List String} {name : String}
    (listed : ListedIn tree path way name) (taken : gone (way ++ [name])) :
    tree.isDirectory path = false := by
  rw [Bool.eq_false_iff, Ne, FileTree.isDirectory_iff]
  rintro ⟨last, leadsToo, isDirectory⟩
  obtain ⟨_, after⟩ := listed.leads_of_way? leadsToo
  exact goneLeads.not_kind_of_directory isDirectory (goneLeads.kind_of_leads taken after)

theorem below_without (depth : Nat) (directory : Path) :
    below .full (tree.without gone) settings depth directory =
      (below .full tree settings depth directory).filter fun path => !tree.isGone gone path := by
  induction depth generalizing directory with
  | zero => rfl
  | succ depth inductionHypothesis =>
      rw [below, below, Access.list?_full, Access.list?_full]
      cases listed : tree.list? directory with
      | none =>
          rw [goneLeads.list?_without_of_none listed]
          rfl
      | some names =>
          obtain ⟨links, enough, way, entries, leads, found, rfl⟩ :=
            (FileTree.list?_eq_some_iff (text_ne_of_list? listed)).mp listed
          have isDirectory : (tree.entriesAt? way).isSome := by simp [found]
          have leadsWay : tree.way? directory = some way :=
            (FileTree.way?_eq_some_iff_of_directory (text_ne_of_list? listed) isDirectory).mpr
              ⟨links, enough, leads⟩
          rw [goneLeads.list?_without leadsWay found, Option.getD_some, Option.getD_some,
            List.filter_flatMap, flatMap_filter]
          refine List.flatMap_congr fun name named => ?_
          have proper := FileTree.properName_of_list? listed name named
          have listedIn : ListedIn tree (directory.join ⟨name⟩) way name :=
            ⟨directory, links, entries, rfl, proper, enough, leads, found, named⟩
          have isGone := listedIn.isGone_eq gone
          simp only [Access.isDirectory_full, goneLeads.isDirectory_without, inductionHypothesis]
          by_cases taken : gone (way ++ [name])
          · have noDirectory := not_isDirectory_of_gone goneLeads listedIn taken
            rw [if_neg (by simp [taken])]
            simp only [noDirectory, Bool.false_eq_true, if_false]
            split
            · simp [isGone, taken]
            · rfl
          · rw [if_pos (by simpa using taken)]
            by_cases inner : tree.isDirectory (directory.join ⟨name⟩)
            · simp only [inner, if_true]
              split <;> rfl
            · simp only [inner, Bool.false_eq_true, if_false]
              split
              · simp [isGone, taken]
              · rfl

theorem collect_without (directory : Path) :
    collect (tree.without gone) settings directory =
      (collect tree settings directory).filter fun path => !tree.isGone gone path := by
  -- Either search goes deep enough, so both may go as deep as they do together.
  have deep : tree.deepest < tree.deepest + (tree.without gone).deepest + 1 := by omega
  have deepToo : (tree.without gone).deepest < tree.deepest + (tree.without gone).deepest + 1 := by
    omega
  have left : below .full (tree.without gone) settings _ directory = _ :=
    below_without goneLeads (tree.deepest + (tree.without gone).deepest + 1) directory
  rw [below_eq_of_deep directory deep, below_eq_of_deep directory deepToo] at left
  rw [collect, collect, collectWith, collectWith, left]
  exact (@filter_mergeSort _ Path.order _ _ _).symm

end Below

end Sources

namespace Ownership

/-- Leaving out claims leaves out what is owned by them, if paths with the same components are left
out together. -/
theorem filter_claim {depthOf : Nat → Nat} {keep : Owned → Bool}
    (respects : ∀ left right : Owned, left.path.components = right.path.components →
      keep left = keep right)
    (owner : Nat) (path : Path) (known : List Owned) :
    (claim depthOf owner path known).filter keep =
      if keep ⟨owner, path⟩ then claim depthOf owner path (known.filter keep)
      else known.filter keep := by
  induction known with
  | nil =>
      rw [claim]
      by_cases kept : keep ⟨owner, path⟩ <;> simp [kept, claim]
  | cons head rest inductionHypothesis =>
      rw [claim]
      by_cases same : head.path.same path
      · -- The claim changes the owner of this entry at most.
        have alike : keep head = keep ⟨owner, path⟩ := respects _ _ (Path.same_iff.mp same)
        have alikeToo :
            keep (if depthOf head.owner < depthOf owner then { head with owner } else head) =
              keep ⟨owner, path⟩ := by
          split <;> exact respects _ _ (Path.same_iff.mp same)
        rw [if_pos same]
        by_cases kept : keep ⟨owner, path⟩
        · rw [if_pos kept, List.filter_cons_of_pos (alikeToo.trans kept),
            List.filter_cons_of_pos (alike.trans kept), claim, if_pos same]
        · rw [if_neg kept, List.filter_cons_of_neg (by rwa [alikeToo]),
            List.filter_cons_of_neg (by rwa [alike])]
      · rw [if_neg same]
        by_cases keptHead : keep head
        · rw [List.filter_cons_of_pos keptHead, List.filter_cons_of_pos keptHead,
            inductionHypothesis, claim, if_neg same]
          split <;> rfl
        · rw [List.filter_cons_of_neg keptHead, List.filter_cons_of_neg keptHead,
            inductionHypothesis]

theorem filter_claimAll {depthOf : Nat → Nat} {keep : Owned → Bool}
    (respects : ∀ left right : Owned, left.path.components = right.path.components →
      keep left = keep right)
    (claimed : List Owned) :
    (claimAll depthOf claimed).filter keep = claimAll depthOf (claimed.filter keep) := by
  induction claimed using List.reverseRecOn with
  | nil => rfl
  | append_singleton claimed last inductionHypothesis =>
      have step : claimAll depthOf (claimed ++ [last]) =
          claim depthOf last.owner last.path (claimAll depthOf claimed) := by
        rw [claimAll, List.foldl_append]
        rfl
      rw [step, filter_claim respects, inductionHypothesis, List.filter_append, List.filter_cons]
      by_cases kept : keep last
      · rw [if_pos kept, if_pos kept, List.filter_nil, claimAll, claimAll, List.foldl_append]
        rfl
      · rw [if_neg kept, if_neg kept, List.filter_nil, List.append_nil]

section Assign

variable (goneLeads : GoneLeadsTo gone tree kind) (projects : List Project)

include goneLeads

theorem claims_without : claims (tree.without gone) settings projects =
    (claims tree settings projects).filter fun owned => !tree.isGone gone owned.path := by
  unfold claims
  rw [List.filter_flatMap]
  refine List.flatMap_congr fun entry _ => ?_
  obtain ⟨project, owner⟩ := entry
  simp only [Sources.collect_without goneLeads, List.filter_map]
  rfl

/-- What is left has the owner it had before. -/
theorem assign_without : assign (tree.without gone) settings projects =
    (assign tree settings projects).filter fun owned => !tree.isGone gone owned.path := by
  have respects : ∀ left right : Owned, left.path.components = right.path.components →
      (!tree.isGone gone left.path) = !tree.isGone gone right.path := by
    intro left right same
    rw [FileTree.isGone, FileTree.isGone, FileTree.entryWay?_congr same]
  have sorted := @filter_mergeSort _ Owned.order _ (fun owned => !tree.isGone gone owned.path)
    (claimAll (depthIn projects) (claims tree settings projects))
  rw [filter_claimAll respects, ← claims_without goneLeads projects] at sorted
  exact sorted.symm

end Assign

end Ownership

end SolutionSurvey

import SolutionSurvey.Proofs.FileTree.Links

/-!
# How deep a path can lead

A path that goes down by names and ends at a directory cannot have arbitrarily many of them.  Where no
link is met every name leads one directory deeper, and links are met so many times at most.
-/

namespace SolutionSurvey.FileTree

variable {tree : FileTree} {way last : List String} {links : Nat}

theorem height_le_of_mem {name : String} {entry : Entry} {entries : List (String × Entry)}
    (membership : (name, entry) ∈ entries) : height entry ≤ heightOfAll entries := by
  induction entries with
  | nil => cases membership
  | cons head rest inductionHypothesis =>
      obtain ⟨other, first⟩ := head
      rw [heightOfAll]
      rcases List.mem_cons.mp membership with isHead | inRest
      · obtain ⟨rfl, rfl⟩ := Prod.mk.inj isHead
        exact Nat.le_max_left ..
      · exact Nat.le_trans (inductionHypothesis inRest) (Nat.le_max_right ..)

/-- A directory at the end of a way takes its part of the height of the tree. -/
theorem length_add_height_le {entries : List (String × Entry)}
    (listed : tree.entriesAt? way = some entries) :
    way.length + heightOfAll entries ≤ heightOfAll tree.entries := by
  induction way using List.reverseRecOn generalizing entries with
  | nil =>
      obtain rfl : tree.entries = entries := Option.some.inj listed
      simp
  | append_singleton way name inductionHypothesis =>
      rw [entriesAt?_append] at listed
      obtain ⟨entry, looked, isDirectory⟩ := Option.bind_eq_some_iff.mp listed
      obtain ⟨outer, outerListed, found⟩ := Option.bind_eq_some_iff.mp looked
      obtain ⟨before, after, rfl, _⟩ := List.lookup_eq_some_iff.mp found
      have inner := height_le_of_mem
        (List.mem_append_right before (List.mem_cons_self : (name, entry) ∈ (name, entry) :: after))
      have whole := inductionHypothesis outerListed
      cases entry with
      | file content => cases isDirectory
      | link target => cases isDirectory
      | directory entries =>
          obtain rfl := Option.some.inj isDirectory
          rw [height] at inner
          rw [List.length_append, List.length_singleton]
          omega

/-- Names at the end of a path are no more than the links on it allow.  As long as there are other
stretches before them, they have not gone down yet. -/
theorem Leads.length_le {front names : List String}
    (plain : ∀ name ∈ names, Path.GoesDown name) (directory : (tree.entriesAt? last).isSome)
    (leads : tree.Leads way (front ++ names) links last) :
    names.length + (if front = [] then way.length else 0) ≤
      (links + 1) * (heightOfAll tree.entries + 1) := by
  generalize whole : front ++ names = pieces at leads
  induction leads generalizing front names with
  | arrived way =>
      obtain ⟨rfl, rfl⟩ := List.append_eq_nil_iff.mp whole
      obtain ⟨entries, listed⟩ := Option.isSome_iff_exists.mp directory
      have deep := length_add_height_le listed
      simp
      omega
  | @idle way piece rest links last _ idle _ inductionHypothesis =>
      cases front with
      | nil =>
          obtain rfl : names = piece :: rest := whole
          have goesDown := (List.forall_mem_cons.mp plain).1
          simp [goesDown.1] at idle
      | cons head front =>
          obtain ⟨rfl, rfl⟩ := List.cons.inj whole
          have further := inductionHypothesis plain directory rfl
          simp
          omega
  | @up way rest links last _ _ _ inductionHypothesis =>
      cases front with
      | nil =>
          obtain rfl : names = ".." :: rest := whole
          have goesDown := (List.forall_mem_cons.mp plain).1
          exact absurd rfl goesDown.2
      | cons head front =>
          obtain ⟨rfl, rfl⟩ := List.cons.inj whole
          have further := inductionHypothesis plain directory rfl
          simp
          omega
  | @down way piece rest links last entry _ _ _ _ inductionHypothesis =>
      cases front with
      | nil =>
          obtain rfl : names = piece :: rest := whole
          have further := inductionHypothesis (List.forall_mem_cons.mp plain).2 directory
            (List.nil_append rest)
          simp at further ⊢
          omega
      | cons head front =>
          obtain ⟨rfl, rfl⟩ := List.cons.inj whole
          have further := inductionHypothesis plain directory rfl
          simp
          omega
  | @link way piece rest links last target _ looked _ _ inductionHypothesis =>
      -- After a link the path may be anywhere, but the limit on links has come closer.
      obtain ⟨entries, listed⟩ := Option.isSome_iff_exists.mp (isSome_entriesAt?_of_entryIn? looked)
      have deep := length_add_height_le listed
      rw [Nat.succ_mul]
      cases front with
      | nil =>
          obtain rfl : names = piece :: rest := whole
          have further := inductionHypothesis (List.forall_mem_cons.mp plain).2 directory rfl
          simp
          omega
      | cons head front =>
          obtain ⟨rfl, rfl⟩ := List.cons.inj whole
          have further :=
            inductionHypothesis plain directory (List.append_assoc target.pieces front names)
          simp
          omega

/-- No path leads to a directory deeper than a search goes. -/
theorem LeadsDown.length_le_deepest {path : Path} {names : List String}
    (plain : ∀ name ∈ names, Path.GoesDown name) (directory : (tree.entriesAt? last).isSome)
    (leads : tree.LeadsDown path names links last) (enough : links ≤ linkLimit) :
    names.length ≤ tree.deepest := by
  have bounded := leads.2.length_le plain directory
  have limited : (links + 1) * (heightOfAll tree.entries + 1) ≤ tree.deepest :=
    Nat.mul_le_mul_right _ (Nat.succ_le_succ enough)
  omega

end SolutionSurvey.FileTree

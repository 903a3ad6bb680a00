import SolutionSurvey.Proofs.FileTree.Depth
import SolutionSurvey.Proofs.Path.Order
import SolutionSurvey.Solution.Sources

/-!
# How the sources of a directory are spelled

Every source that is collected is spelled as its directory is, with the names on the way down to it
behind.
-/

namespace SolutionSurvey

namespace Access

variable {access : Access} {tree : FileTree} {directory path : Path} {names : List String}

@[simp]
theorem list?_full : full.list? tree directory = tree.list? directory := by
  cases listed : tree.list? directory <;> simp [list?, full, listed]

@[simp]
theorem isDirectory_full : full.isDirectory tree path = tree.isDirectory path := rfl

theorem list?_eq_some_iff : access.list? tree directory = some names ↔
    access.lists directory ∧ ∃ held, tree.list? directory = some held ∧
      held.filter (access.shows directory) = names := by
  rw [list?]
  cases access.lists directory with
  | false => simp
  | true => simp

/-- A directory lists nothing but what it holds. -/
theorem exists_list?_of_list? (seen : access.list? tree directory = some names) :
    ∃ held, tree.list? directory = some held ∧ names.Sublist held := by
  obtain ⟨_, held, listed, rfl⟩ := list?_eq_some_iff.mp seen
  exact ⟨held, listed, List.filter_sublist⟩

end Access

namespace Sources

/-- A path goes on from a directory by names only. -/
structure SpelledBelow (directory path : Path) : Prop where
  start : path.start = directory.start
  names : ∃ way, path.names = directory.names ++ way ∧ ∀ name ∈ way, Path.properName name
  ending : path.EndsInName

variable {access : Access} {tree : FileTree} {settings : Settings}

theorem text_ne_of_list? {directory : Path} {names : List String}
    (listed : tree.list? directory = some names) : directory.text ≠ "" := by
  intro empty
  have nothing : tree.find? directory = none := by simp [FileTree.find?, empty]
  simp [FileTree.list?, nothing] at listed

theorem spelledBelow_join {directory : Path} (written : directory.text ≠ "") {name : String}
    (proper : Path.properName name) : SpelledBelow directory (directory.join ⟨name⟩) where
  start := Path.start_join proper written
  names := ⟨[name], Path.names_join proper directory, by simpa using proper⟩
  ending := ⟨name, Path.getLast?_pieces_join proper directory, Path.not_isIdle_of_proper proper⟩

theorem SpelledBelow.trans {directory inner path : Path} (first : SpelledBelow directory inner)
    (second : SpelledBelow inner path) : SpelledBelow directory path where
  start := second.start.trans first.start
  names := by
    obtain ⟨way, names, proper⟩ := first.names
    obtain ⟨further, furtherNames, furtherProper⟩ := second.names
    refine ⟨way ++ further, by rw [furtherNames, names, List.append_assoc], ?_⟩
    exact List.forall_mem_append.mpr ⟨proper, furtherProper⟩
  ending := second.ending

/-- A relation that holds of a directory and every path joined to it holds of every source below. -/
theorem related_of_mem_below (relation : Path → Path → Prop)
    (joined : ∀ directory name, directory.text ≠ "" → Path.properName name →
      relation directory (directory.join ⟨name⟩))
    (trans : ∀ first second third, relation first second → relation second third →
      relation first third)
    {depth : Nat} {directory path : Path}
    (membership : path ∈ below access tree settings depth directory) : relation directory path := by
  induction depth generalizing directory with
  | zero => cases membership
  | succ depth inductionHypothesis =>
      rw [below] at membership
      obtain ⟨name, named, reached⟩ := List.mem_flatMap.mp membership
      cases seen : access.list? tree directory with
      | none => simp [seen] at named
      | some names =>
          rw [seen, Option.getD_some] at named
          obtain ⟨held, listed, among⟩ := Access.exists_list?_of_list? seen
          have next := joined directory name (text_ne_of_list? listed)
            (FileTree.properName_of_list? listed name (among.subset named))
          dsimp only at reached
          split at reached
          · split at reached
            · cases reached
            · exact trans _ _ _ next (inductionHypothesis reached)
          · split at reached
            · obtain rfl := List.mem_singleton.mp reached
              exact next
            · cases reached

theorem spelledBelow_of_mem_below {depth : Nat} {directory path : Path}
    (membership : path ∈ below access tree settings depth directory) :
    SpelledBelow directory path :=
  related_of_mem_below SpelledBelow
    (fun _ _ written proper => spelledBelow_join written proper)
    (fun _ _ _ first second => first.trans second) membership

/-- Every collected source is spelled as its directory is. -/
theorem spelledBelow_of_mem_collect {directory path : Path}
    (membership : path ∈ collect tree settings directory) : SpelledBelow directory path :=
  spelledBelow_of_mem_below (List.mem_mergeSort.mp membership)

theorem collectWith_eq_of_sorted {directory : Path} {found : List Path}
    (all : below access tree settings (tree.deepest + 1) directory = found)
    (sorted : Sorted Path.order found) : collectWith access tree settings directory = found := by
  rw [collectWith, all]
  exact List.mergeSort_of_pairwise sorted

/-! ### Where a source is listed -/

/-- A path puts a name that a directory lists behind a path to this directory. -/
def ListedIn (tree : FileTree) (path : Path) (way : List String) (name : String) : Prop :=
  ∃ directory links entries, path = directory.join ⟨name⟩ ∧ Path.properName name ∧
    links ≤ FileTree.linkLimit ∧ tree.LeadsTo directory links way ∧
    tree.entriesAt? way = some entries ∧ name ∈ entries.map (·.1)

theorem listed_of_mem_below {depth : Nat} {directory path : Path}
    (membership : path ∈ below access tree settings depth directory) :
    access.isDirectory tree path = false ∧ ∃ way name, ListedIn tree path way name := by
  induction depth generalizing directory with
  | zero => cases membership
  | succ depth inductionHypothesis =>
      rw [below] at membership
      obtain ⟨name, named, reached⟩ := List.mem_flatMap.mp membership
      cases seen : access.list? tree directory with
      | none => simp [seen] at named
      | some names =>
          rw [seen, Option.getD_some] at named
          obtain ⟨held, listed, among⟩ := Access.exists_list?_of_list? seen
          have named := among.subset named
          have proper := FileTree.properName_of_list? listed name named
          dsimp only at reached
          split at reached
          · split at reached
            · cases reached
            · exact inductionHypothesis reached
          · rename_i noDirectory
            split at reached
            · obtain rfl := List.mem_singleton.mp reached
              obtain ⟨links, enough, way, entries, leads, found, rfl⟩ :=
                (FileTree.list?_eq_some_iff (text_ne_of_list? listed)).mp listed
              exact ⟨by simpa using noDirectory, way, name, directory, links, entries, rfl, proper,
                enough, leads, found, named⟩
            · cases reached

theorem listed_of_mem_collect {directory path : Path}
    (membership : path ∈ collect tree settings directory) :
    tree.isDirectory path = false ∧ ∃ way name, ListedIn tree path way name :=
  listed_of_mem_below (List.mem_mergeSort.mp membership)

/-! ### The search goes deep enough -/

/-- Where a search has gone deeper than any path leads, it finds nothing more. -/
theorem below_succ_of_deep {depth : Nat} {directory path : Path}
    {down : List String} (start : path.start = directory.start)
    (names : path.names = directory.names ++ down) (plain : ∀ name ∈ down, Path.GoesDown name)
    (deep : tree.deepest < down.length + depth) :
    below access tree settings (depth + 1) path = below access tree settings depth path := by
  induction depth generalizing path down with
  | zero =>
      have unlisted : access.list? tree path = none := by
        rw [Option.eq_none_iff_forall_ne_some]
        intro inner seen
        obtain ⟨held, listed, _⟩ := Access.exists_list?_of_list? seen
        obtain ⟨links, enough, way, entries, leads, found, _⟩ :=
          (FileTree.list?_eq_some_iff (text_ne_of_list? listed)).mp listed
        have leadsDown : tree.LeadsDown directory down links way := by
          rw [FileTree.LeadsDown, ← start, ← names]
          exact leads
        have bounded := leadsDown.length_le_deepest plain (by simp [found]) enough
        omega
      rw [below, below, unlisted]
      rfl
  | succ depth inductionHypothesis =>
      rw [below, below]
      refine List.flatMap_congr fun name named => ?_
      cases seen : access.list? tree path with
      | none => simp [seen] at named
      | some inner =>
          rw [seen, Option.getD_some] at named
          obtain ⟨held, listed, among⟩ := Access.exists_list?_of_list? seen
          have proper := FileTree.properName_of_list? listed name (among.subset named)
          have plainToo : ∀ other ∈ down ++ [name], Path.GoesDown other :=
            List.forall_mem_append.mpr ⟨plain, by simpa using Path.goesDown_of_proper proper⟩
          have startToo := (Path.start_join_eq proper path).trans start
          have namesToo : (path.join ⟨name⟩).names = directory.names ++ (down ++ [name]) := by
            rw [Path.names_join proper, names, List.append_assoc]
          have deepToo : tree.deepest < (down ++ [name]).length + depth := by
            rw [List.length_append, List.length_singleton]
            omega
          have further := inductionHypothesis startToo namesToo plainToo deepToo
          simp only [further]

theorem below_eq_of_deep (directory : Path) {depth : Nat} (deep : tree.deepest < depth) :
    below access tree settings depth directory =
      below access tree settings (tree.deepest + 1) directory := by
  induction depth, Nat.succ_le_of_lt deep using Nat.le_induction with
  | base => rfl
  | succ depth enough inductionHypothesis =>
      have further : below access tree settings (depth + 1) directory =
          below access tree settings depth directory :=
        below_succ_of_deep rfl (List.append_nil _).symm (List.forall_mem_nil _)
          (by simpa using Nat.lt_of_succ_le enough)
      rw [further, inductionHypothesis enough]

end Sources

end SolutionSurvey

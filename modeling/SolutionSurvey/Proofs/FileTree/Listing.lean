import SolutionSurvey.Proofs.FileTree.Links

/-!
# What directories list

A directory lists the names of the entries one step further.  Without links a name that is joined to
a path to a directory leads this step.
-/

namespace SolutionSurvey

namespace FileTree

variable {tree : FileTree} {way : List String}

theorem nodup_of_entriesAt? {entries : List (String × Entry)}
    (listed : tree.entriesAt? way = some entries) : (entries.map (·.1)).Nodup := by
  obtain ⟨root, below⟩ := Bool.and_eq_true_iff.mp tree.namesApart
  induction way using List.reverseRecOn with
  | nil =>
      obtain rfl := Option.some.inj listed
      exact of_decide_eq_true root
  | append_singleton way name _ =>
      rw [entriesAt?_append] at listed
      obtain ⟨entry, looked, isDirectory⟩ := Option.bind_eq_some_iff.mp listed
      obtain ⟨outer, outerListed, found⟩ := Option.bind_eq_some_iff.mp looked
      obtain ⟨before, after, rfl, _⟩ := List.lookup_eq_some_iff.mp found
      have checked := check_of_entriesAt? below outerListed
        (List.mem_append_right before List.mem_cons_self)
      cases entry with
      | file content => cases isDirectory
      | link target => cases isDirectory
      | directory inner =>
          obtain rfl := Option.some.inj isDirectory
          exact of_decide_eq_true checked

theorem isSome_entriesAt?_of_entryAt?_append {rest : List String} (more : rest ≠ [])
    (found : (tree.entryAt? (way ++ rest)).isSome) : (tree.entriesAt? way).isSome := by
  obtain ⟨name, others, rfl⟩ := List.exists_cons_of_ne_nil more
  rw [entryAt?, Option.isSome_map, locationAt?, List.foldlM_append] at found
  obtain ⟨last, walked⟩ := Option.isSome_iff_exists.mp found
  obtain ⟨location, reached, further⟩ := Option.bind_eq_some_iff.mp walked
  rw [List.foldlM_cons] at further
  obtain ⟨inner, entered, _⟩ := Option.bind_eq_some_iff.mp further
  obtain ⟨entries, listed, _⟩ := Option.bind_eq_some_iff.mp entered
  rw [entriesAt?_of_locationAt? reached, listed]
  rfl

theorem text_ne_of_way? {path : Path} (leads : tree.way? path = some way) : path.text ≠ "" := by
  intro empty
  simp [way?, empty] at leads

/-- Without links a name that is joined to a directory leads one name further. -/
theorem way?_join_of_linkless (linkless : tree.linkless) {name : String}
    (proper : Path.properName name) {directory : Path} {entry : Entry}
    (leads : tree.way? directory = some way) (looked : tree.entryAt? (way ++ [name]) = some entry) :
    tree.way? (directory.join ⟨name⟩) = some (way ++ [name]) := by
  rw [entryAt?_append] at looked
  have isDirectory := isSome_entriesAt?_of_entryIn? looked
  obtain ⟨links, enough, leadsTo⟩ :=
    (way?_eq_some_iff_of_directory (text_ne_of_way? leads) isDirectory).mp leads
  have notLink : ∀ target, entry ≠ .link target := by
    rintro target rfl
    exact not_link_of_linkless linkless looked
  have down : tree.Leads way [name] 0 (way ++ [name]) :=
    .down (Path.goesDown_of_proper proper) looked notLink (.arrived _)
  apply (way?_eq_some_iff (endsInName_join proper directory)).mpr
  exact ⟨links, enough, (leadsTo_join proper).mpr ⟨links, way, 0, leadsTo, down, rfl⟩⟩

theorem isDirectory_join_iff (linkless : tree.linkless) {name : String}
    (proper : Path.properName name) {directory : Path} {entry : Entry}
    (leads : tree.way? directory = some way) (looked : tree.entryAt? (way ++ [name]) = some entry) :
    tree.isDirectory (directory.join ⟨name⟩) ↔ entry.entries?.isSome := by
  simp [isDirectory_iff, way?_join_of_linkless linkless proper leads looked,
    entriesAt?_eq_bind_entryAt?, looked]

/-- A directory has an entry of a name. -/
def Lists (tree : FileTree) (directory : Path) (name : String) : Prop :=
  ∃ names, tree.list? directory = some names ∧ name ∈ names

theorem lists_iff {directory : Path} {name : String} :
    tree.Lists directory name ↔
      ∃ way entry, tree.way? directory = some way ∧ tree.entryAt? (way ++ [name]) = some entry := by
  simp only [Lists, list?_eq_bind_way?, Option.bind_eq_some_iff, Option.map_eq_some_iff,
    entryAt?_append, entryIn?]
  constructor
  · rintro ⟨_, ⟨way, leads, entries, listed, rfl⟩, membership⟩
    obtain ⟨entry, looked⟩ := exists_lookup_of_mem membership
    exact ⟨way, entry, leads, entries, listed, looked⟩
  · rintro ⟨way, entry, leads, entries, listed, looked⟩
    obtain ⟨before, after, rfl, _⟩ := List.lookup_eq_some_iff.mp looked
    exact ⟨_, ⟨way, leads, _, listed, rfl⟩, by simp⟩

end FileTree

end SolutionSurvey

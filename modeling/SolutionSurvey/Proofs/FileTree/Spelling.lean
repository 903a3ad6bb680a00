import SolutionSurvey.Proofs.FileTree.Ways
import SolutionSurvey.Proofs.Path.Names

/-!
# How a path is spelled and where it leads

Idle stretches before the last name of a path do not matter, so paths with the same components lead
the same way.  In a tree without links, a path without `..` leads the way that its names spell out.
-/

namespace SolutionSurvey

/-- A path ends with a name, not with an idle stretch. -/
def Path.EndsInName (path : Path) : Prop :=
  ∃ name, path.pieces.getLast? = some name ∧ Path.isIdle name = false

theorem Path.EndsInName.text_ne {path : Path} (ending : path.EndsInName) : path.text ≠ "" := by
  intro empty
  obtain ⟨name, isLast, notIdle⟩ := ending
  have single : path.pieces = [""] := by
    rw [Path.pieces, empty]
    rfl
  rw [single] at isLast
  obtain rfl := Option.some.inj isLast
  cases notIdle

namespace FileTree

variable {tree : FileTree}

/-! ### Idle stretches -/

/-- Some stretches do not end with an idle one.  Then all idle ones stand before a stretch that is
looked up in a directory, and they can only stand after a directory themselves. -/
def NoIdleEnd (pieces : List String) : Prop :=
  ∀ last, pieces.getLast? = some last → Path.isIdle last = false

theorem NoIdleEnd.tail {piece : String} {rest : List String} (noIdleEnd : NoIdleEnd (piece :: rest)) :
    NoIdleEnd rest := by
  intro last isLast
  refine noIdleEnd last ?_
  rw [List.getLast?_cons, isLast]
  rfl

theorem NoIdleEnd.filter_ne_nil {piece : String} {rest : List String}
    (noIdleEnd : NoIdleEnd (piece :: rest)) : (piece :: rest).filter (!Path.isIdle ·) ≠ [] := by
  obtain ⟨last, isLast⟩ : ∃ last, (piece :: rest).getLast? = some last :=
    Option.isSome_iff_exists.mp (by simp)
  refine List.ne_nil_of_mem (List.mem_filter.mpr ⟨List.mem_of_getLast? isLast, ?_⟩)
  rw [noIdleEnd last isLast]
  rfl

theorem wayWith_of_no_entries {follow : List String → List String → Option (List String)}
    {way pieces : List String} (more : pieces ≠ []) (noEntries : tree.entriesAt? way = none) :
    tree.wayWith follow way pieces = none := by
  cases pieces with
  | nil => exact absurd rfl more
  | cons piece rest => rw [wayWith, noEntries]

theorem wayWith_filter {follow : List String → List String → Option (List String)}
    (follows : ∀ way pieces rest, NoIdleEnd rest →
      follow way (pieces ++ rest.filter (!Path.isIdle ·)) = follow way (pieces ++ rest))
    {pieces : List String} (noIdleEnd : NoIdleEnd pieces) (way : List String) :
    tree.wayWith follow way (pieces.filter (!Path.isIdle ·)) = tree.wayWith follow way pieces := by
  induction pieces generalizing way with
  | nil => rfl
  | cons piece rest inductionHypothesis =>
      cases listed : tree.entriesAt? way with
      | none =>
          rw [wayWith_of_no_entries noIdleEnd.filter_ne_nil listed,
            wayWith_of_no_entries (List.cons_ne_nil _ _) listed]
      | some entries =>
          have further := inductionHypothesis noIdleEnd.tail
          by_cases idle : Path.isIdle piece
          · rw [List.filter_cons_of_neg (by simpa using idle), wayWith, listed]
            simp only [idle, if_true]
            exact further way
          · rw [List.filter_cons_of_pos (by simpa using idle), wayWith, wayWith, listed]
            simp only [further, follows _ _ _ noIdleEnd.tail]

/-- Idle stretches do not matter after others either: where a link is met, its target comes before
all that is left. -/
theorem wayWith_append_filter {follow : List String → List String → Option (List String)}
    (follows : ∀ way pieces rest, NoIdleEnd rest →
      follow way (pieces ++ rest.filter (!Path.isIdle ·)) = follow way (pieces ++ rest))
    (front : List String) {rest : List String} (noIdleEnd : NoIdleEnd rest) (way : List String) :
    tree.wayWith follow way (front ++ rest.filter (!Path.isIdle ·)) =
      tree.wayWith follow way (front ++ rest) := by
  induction front generalizing way with
  | nil => exact wayWith_filter follows noIdleEnd way
  | cons piece front inductionHypothesis =>
      have further : ∀ way target : List String,
          follow way (target ++ (front ++ rest.filter (!Path.isIdle ·))) =
            follow way (target ++ (front ++ rest)) := by
        intro way target
        rw [← List.append_assoc, ← List.append_assoc, follows _ _ _ noIdleEnd]
      rw [List.cons_append, List.cons_append, wayWith, wayWith]
      simp only [inductionHypothesis, further]

theorem wayWithin_append_filter (links : Nat) (way front : List String) {rest : List String}
    (noIdleEnd : NoIdleEnd rest) :
    tree.wayWithin links way (front ++ rest.filter (!Path.isIdle ·)) =
      tree.wayWithin links way (front ++ rest) := by
  induction links generalizing way front rest with
  | zero =>
      rw [wayWithin]
      exact wayWith_append_filter (fun _ _ _ _ => rfl) front noIdleEnd way
  | succ links inductionHypothesis =>
      rw [wayWithin]
      have follows : ∀ way pieces rest, NoIdleEnd rest →
          tree.wayWithin links way (pieces ++ rest.filter (!Path.isIdle ·)) =
            tree.wayWithin links way (pieces ++ rest) :=
        fun way pieces _ noIdleEnd => inductionHypothesis way pieces noIdleEnd
      exact wayWith_append_filter follows front noIdleEnd way

/-- Only the start and the names of a path that ends in a name decide where it leads. -/
theorem way?_eq_names {path : Path} (ending : path.EndsInName) :
    tree.way? path =
      if path.start = some .root then none else tree.wayWithin linkLimit [] path.names := by
  have written := ending.text_ne
  obtain ⟨name, isLast, notIdle⟩ := ending
  have noIdleEnd : NoIdleEnd path.pieces := by
    intro last last_eq
    obtain rfl := Option.some.inj (isLast.symm.trans last_eq)
    exact notIdle
  have filtered : tree.wayWithin linkLimit [] path.names = tree.wayWithin linkLimit [] path.pieces :=
    wayWithin_append_filter linkLimit [] [] noIdleEnd
  rw [way?, filtered, Path.isAbsolute]
  by_cases absolute : path.start = some .root <;> simp [absolute, written]

/-- Paths with the same components lead the same way. -/
theorem way?_congr {left right : Path} (same : left.components = right.components)
    (leftEnding : left.EndsInName) (rightEnding : right.EndsInName) :
    tree.way? left = tree.way? right := by
  obtain ⟨starts, names⟩ := Path.components_eq_iff.mp same
  rw [way?_eq_names leftEnding, way?_eq_names rightEnding, starts, names]

/-! ### What holds of every entry -/

/-- Whether a check passes for every entry of a tree. -/
def every (tree : FileTree) (check : String → Entry → Bool) : Bool := everyAmong check tree.entries

/-- Whether there is no symbolic link in a tree. -/
def linkless (tree : FileTree) : Bool :=
  tree.every fun _ entry =>
    match entry with
    | .link _ => false
    | _ => true

theorem check_of_mem {check : String → Entry → Bool} {entries : List (String × Entry)}
    (all : everyAmong check entries) {name : String} {entry : Entry}
    (membership : (name, entry) ∈ entries) : check name entry ∧ everyBelow check entry := by
  induction entries with
  | nil => cases membership
  | cons head rest inductionHypothesis =>
      obtain ⟨first, held⟩ := head
      simp only [everyAmong, Bool.and_eq_true] at all
      rcases List.mem_cons.mp membership with same | inRest
      · obtain ⟨rfl, rfl⟩ := Prod.mk.inj same
        exact all.1
      · exact inductionHypothesis all.2 inRest

theorem everyBelow_of_enter? {check : String → Entry → Bool} {location inner : Location}
    {name : String} (all : everyBelow check location.entry)
    (entered : location.enter? name = some inner) :
    check name inner.entry ∧ everyBelow check inner.entry := by
  obtain ⟨entries, listed, named⟩ := Option.bind_eq_some_iff.mp entered
  obtain ⟨entry, looked, rfl⟩ := Option.map_eq_some_iff.mp named
  rw [Location.entry_of_entries? listed, everyBelow] at all
  obtain ⟨before, after, rfl, _⟩ := List.lookup_eq_some_iff.mp looked
  exact check_of_mem all (List.mem_append_right before List.mem_cons_self)

theorem everyBelow_of_foldlM {check : String → Entry → Bool} {way : List String}
    {start location : Location} (all : everyBelow check start.entry)
    (found : way.foldlM Location.enter? start = some location) :
    everyBelow check location.entry := by
  induction way generalizing start with
  | nil =>
      obtain rfl := Option.some.inj found
      exact all
  | cons name way inductionHypothesis =>
      rw [List.foldlM_cons] at found
      obtain ⟨inner, entered, further⟩ := Option.bind_eq_some_iff.mp found
      exact inductionHypothesis (everyBelow_of_enter? all entered).2 further

/-- A check that passes for every entry passes for the entries at the end of every way. -/
theorem check_of_entriesAt? {check : String → Entry → Bool} (all : tree.every check)
    {way : List String} {entries : List (String × Entry)}
    (listed : tree.entriesAt? way = some entries)
    {name : String} {entry : Entry} (membership : (name, entry) ∈ entries) : check name entry := by
  obtain ⟨location, found, listed⟩ := Option.bind_eq_some_iff.mp listed
  have whole : everyBelow check tree.root.entry := by
    rw [root, everyBelow]
    exact all
  have below := everyBelow_of_foldlM whole found
  rw [Location.entry_of_entries? listed, everyBelow] at below
  exact (check_of_mem below membership).1

/-! ### Names in the tree and names in paths -/

/-- A directory lists proper names only. -/
theorem properName_of_list? {directory : Path} {names : List String}
    (listed : tree.list? directory = some names) : ∀ name ∈ names, Path.properName name := by
  obtain ⟨location, found, listed⟩ := Option.bind_eq_some_iff.mp listed
  obtain ⟨entries, held, rfl⟩ := Option.map_eq_some_iff.mp listed
  rw [find?_eq_bind_way?] at found
  obtain ⟨way, _, reached⟩ := Option.bind_eq_some_iff.mp found
  refine List.forall_mem_map.mpr fun entry membership => ?_
  have entriesAt : tree.entriesAt? way = some entries := by
    rw [entriesAt?_of_locationAt? reached, held]
  exact check_of_entriesAt? tree.wellNamed entriesAt membership

/-- Names that only go down are added to the way one by one. -/
theorem wayWith_of_linkless (linkless : tree.linkless)
    {follow : List String → List String → Option (List String)} {way names last : List String}
    (plain : ∀ name ∈ names, Path.isIdle name = false ∧ name ≠ "..")
    (leads : tree.wayWith follow way names = some last) : last = way ++ names := by
  induction names generalizing way with
  | nil =>
      obtain rfl := Option.some.inj leads
      rw [List.append_nil]
  | cons name names inductionHypothesis =>
      obtain ⟨⟨notIdle, notUp⟩, plainRest⟩ := List.forall_mem_cons.mp plain
      rw [wayWith] at leads
      cases listed : tree.entriesAt? way with
      | none => simp [listed] at leads
      | some entries =>
          simp only [listed, notIdle, Bool.false_eq_true, if_false, beq_iff_eq, notUp] at leads
          split at leads
          case h_1 => cases leads
          case h_2 target looked =>
              -- This entry would be a link.
              obtain ⟨before, after, rfl, _⟩ := List.lookup_eq_some_iff.mp looked
              have noLink := check_of_entriesAt? linkless listed
                (List.mem_append_right before List.mem_cons_self)
              cases noLink
          case h_3 =>
              rw [inductionHypothesis plainRest leads, List.append_assoc, List.singleton_append]

/-- Where there are no links, a path without `..` leads along its own names. -/
theorem way?_eq_of_linkless (linkless : tree.linkless) {path : Path} (ending : path.EndsInName)
    (noUp : ".." ∉ path.names) {way : List String} (leads : tree.way? path = some way) :
    way = path.names := by
  rw [way?_eq_names ending] at leads
  split at leads
  · cases leads
  · have plain : ∀ name ∈ path.names, Path.isIdle name = false ∧ name ≠ ".." := by
      intro name membership
      refine ⟨by simpa using (List.mem_filter.mp membership).2, ?_⟩
      rintro rfl
      exact noUp membership
    exact wayWith_of_linkless linkless plain leads

end FileTree

end SolutionSurvey

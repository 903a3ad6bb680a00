import SolutionSurvey.Proofs.FileTree.Spelling
import SolutionSurvey.Proofs.Path.Parent

/-!
# The links on the way

The tree alone decides where a path leads and how many links are followed on it.  The limit on links
only decides whether a path may be followed to its end.
-/

namespace SolutionSurvey

/-- A stretch of a path that is looked up in a directory. -/
def Path.GoesDown (piece : String) : Prop := isIdle piece = false ∧ piece ≠ ".."

theorem Path.goesDown_of_proper {name : String} (proper : properName name) : GoesDown name := by
  refine ⟨not_isIdle_of_proper proper, ?_⟩
  rintro rfl
  cases proper

def Entry.entries? : Entry → Option (List (String × Entry))
  | .directory entries => some entries
  | _ => none

namespace FileTree

/-- What a name stands for in the directory at the end of a way. -/
def entryIn? (tree : FileTree) (way : List String) (name : String) : Option Entry :=
  (tree.entriesAt? way).bind fun entries => entries.lookup name

theorem exists_lookup_of_mem {entries : List (String × Entry)} {name : String}
    (named : name ∈ entries.map (·.1)) : ∃ entry, entries.lookup name = some entry := by
  obtain ⟨⟨other, entry⟩, membership, rfl⟩ := List.mem_map.mp named
  rw [← Option.isSome_iff_exists, List.lookup_isSome_iff]
  exact ⟨_, membership, by simp⟩

/-- From the end of one way some stretches lead to the end of another one, over so many links. -/
inductive Leads (tree : FileTree) : List String → List String → Nat → List String → Prop
  | arrived (way) : Leads tree way [] 0 way
  | idle {way piece rest links last} : (tree.entriesAt? way).isSome → Path.isIdle piece →
      Leads tree way rest links last → Leads tree way (piece :: rest) links last
  | up {way rest links last} : (tree.entriesAt? way).isSome → way ≠ [] →
      Leads tree way.dropLast rest links last → Leads tree way (".." :: rest) links last
  | down {way piece rest links last entry} : Path.GoesDown piece →
      tree.entryIn? way piece = some entry → (∀ target, entry ≠ .link target) →
      Leads tree (way ++ [piece]) rest links last → Leads tree way (piece :: rest) links last
  | link {way piece rest links last target} : Path.GoesDown piece →
      tree.entryIn? way piece = some (.link target) → target.isAbsolute = false →
      Leads tree way (target.pieces ++ rest) links last →
      Leads tree way (piece :: rest) (links + 1) last

variable {tree : FileTree} {way pieces front rest last : List String} {links : Nat}

theorem isSome_entriesAt?_of_entryIn? {piece : String} {entry : Entry}
    (looked : tree.entryIn? way piece = some entry) : (tree.entriesAt? way).isSome := by
  obtain ⟨entries, listed, _⟩ := Option.bind_eq_some_iff.mp looked
  simp [listed]

/-- What lies at the end of a way, without the directories around it. -/
def entryAt? (tree : FileTree) (way : List String) : Option Entry :=
  (tree.locationAt? way).map Location.entry

theorem entryAt?_append (way : List String) (name : String) :
    tree.entryAt? (way ++ [name]) = tree.entryIn? way name := by
  unfold entryAt? entryIn? entriesAt?
  rw [locationAt?_append]
  cases tree.locationAt? way with
  | none => rfl
  | some location =>
      simp only [Option.bind_some, Location.enter?]
      cases location.entries? with
      | none => rfl
      | some entries =>
          simp only [Option.bind_some]
          cases entries.lookup name <;> rfl

theorem entriesAt?_eq_bind_entryAt? (way : List String) :
    tree.entriesAt? way = (tree.entryAt? way).bind Entry.entries? := by
  unfold entriesAt? entryAt?
  rcases tree.locationAt? way with _ | ⟨entry, around⟩
  · rfl
  · cases entry <;> rfl

theorem entriesAt?_append (way : List String) (name : String) :
    tree.entriesAt? (way ++ [name]) = (tree.entryIn? way name).bind Entry.entries? := by
  rw [entriesAt?_eq_bind_entryAt?, entryAt?_append]

/-- What a path leads to is the entry at the end of its way. -/
theorem map_entry_find? (path : Path) :
    (tree.find? path).map Location.entry = (tree.way? path).bind tree.entryAt? := by
  rw [find?_eq_bind_way?]
  cases tree.way? path <;> rfl

theorem content?_eq_some_iff {path : Path} {content : Content} :
    tree.content? path = some content ↔
      ∃ way, tree.way? path = some way ∧ tree.entryAt? way = some (.file content) := by
  rw [← Option.bind_eq_some_iff, ← map_entry_find?, content?]
  rcases tree.find? path with _ | ⟨entry, around⟩
  · simp
  · cases entry <;> simp

/-! ### The walk goes where the path leads -/

theorem wayWith_cons_idle {follow : List String → List String → Option (List String)}
    {piece : String} (directory : (tree.entriesAt? way).isSome) (idle : Path.isIdle piece) :
    tree.wayWith follow way (piece :: rest) = tree.wayWith follow way rest := by
  obtain ⟨entries, listed⟩ := Option.isSome_iff_exists.mp directory
  simp [wayWith, listed, idle]

theorem wayWith_cons_up {follow : List String → List String → Option (List String)}
    (directory : (tree.entriesAt? way).isSome) :
    tree.wayWith follow way (".." :: rest) =
      if way = [] then none else tree.wayWith follow way.dropLast rest := by
  obtain ⟨entries, listed⟩ := Option.isSome_iff_exists.mp directory
  have notIdle : Path.isIdle ".." = false := by decide
  simp [wayWith, listed, notIdle]

theorem wayWith_cons_down {follow : List String → List String → Option (List String)}
    {piece : String} (goesDown : Path.GoesDown piece) :
    tree.wayWith follow way (piece :: rest) =
      match tree.entryIn? way piece with
      | none => none
      | some (.link target) =>
          if target.isAbsolute then none else follow way (target.pieces ++ rest)
      | some _ => tree.wayWith follow (way ++ [piece]) rest := by
  obtain ⟨notIdle, notUp⟩ := goesDown
  cases listed : tree.entriesAt? way with
  | none => simp [wayWith, entryIn?, listed]
  | some entries =>
      have notUp : (piece == "..") = false := beq_eq_false_iff_ne.mpr notUp
      cases found : entries.lookup piece with
      | none => simp [wayWith, entryIn?, listed, notIdle, notUp, found]
      | some entry => cases entry <;> simp [wayWith, entryIn?, listed, notIdle, notUp, found]

theorem leads_of_wayWith {follow : List String → List String → Option (List String)}
    (follows : ∀ way pieces, follow way pieces = some last →
      ∃ needed < links, tree.Leads way pieces needed last)
    (walked : tree.wayWith follow way pieces = some last) :
    ∃ needed ≤ links, tree.Leads way pieces needed last := by
  induction pieces generalizing way with
  | nil =>
      obtain rfl : way = last := by simpa [wayWith] using walked
      exact ⟨0, Nat.zero_le links, .arrived way⟩
  | cons piece rest inductionHypothesis =>
      have directory : (tree.entriesAt? way).isSome := by
        cases listed : tree.entriesAt? way with
        | none => simp [wayWith, listed] at walked
        | some entries => rfl
      by_cases idle : Path.isIdle piece
      · rw [wayWith_cons_idle directory idle] at walked
        obtain ⟨needed, enough, leads⟩ := inductionHypothesis walked
        exact ⟨needed, enough, .idle directory idle leads⟩
      by_cases isUp : piece = ".."
      · subst isUp
        rw [wayWith_cons_up directory] at walked
        split at walked
        · cases walked
        · rename_i inside
          obtain ⟨needed, enough, leads⟩ := inductionHypothesis walked
          exact ⟨needed, enough, .up directory inside leads⟩
      · have goesDown : Path.GoesDown piece := ⟨by simpa using idle, isUp⟩
        rw [wayWith_cons_down goesDown] at walked
        split at walked
        case h_1 => cases walked
        case h_2 target looked =>
            split at walked
            · cases walked
            · rename_i relative
              obtain ⟨needed, fewer, leads⟩ := follows _ _ walked
              exact ⟨needed + 1, fewer, .link goesDown looked (by simpa using relative) leads⟩
        case h_3 entry notLink looked =>
            obtain ⟨needed, enough, leads⟩ := inductionHypothesis walked
            have plain : ∀ target, entry ≠ .link target := by
              rintro target rfl
              exact notLink target rfl
            exact ⟨needed, enough, .down goesDown looked plain leads⟩

theorem wayWith_of_leads {follow : List String → List String → Option (List String)} {needed : Nat}
    (follows : ∀ way pieces needed, needed < links → tree.Leads way pieces needed last →
      follow way pieces = some last)
    (leads : tree.Leads way pieces needed last) (enough : needed ≤ links) :
    tree.wayWith follow way pieces = some last := by
  induction leads with
  | arrived => rfl
  | idle directory idle _ inductionHypothesis =>
      rw [wayWith_cons_idle directory idle]
      exact inductionHypothesis follows enough
  | up directory inside _ inductionHypothesis =>
      rw [wayWith_cons_up directory, if_neg inside]
      exact inductionHypothesis follows enough
  | @down way piece rest needed last entry goesDown looked notLink _ inductionHypothesis =>
      rw [wayWith_cons_down goesDown, looked]
      cases entry with
      | link target => exact absurd rfl (notLink target)
      | file content => exact inductionHypothesis follows enough
      | directory entries => exact inductionHypothesis follows enough
  | link goesDown looked relative further _ =>
      rw [wayWith_cons_down goesDown, looked]
      simp only [relative, Bool.false_eq_true, if_false]
      exact follows _ _ _ enough further

/-- A walk with a limit gets to its end just if the stretches lead there over no more links. -/
theorem wayWithin_eq_some_iff :
    tree.wayWithin links way pieces = some last ↔
      ∃ needed ≤ links, tree.Leads way pieces needed last := by
  induction links generalizing way pieces last with
  | zero =>
      rw [wayWithin]
      constructor
      · intro walked
        apply leads_of_wayWith _ walked
        intro way pieces followed
        cases followed
      · rintro ⟨needed, enough, leads⟩
        apply wayWith_of_leads _ leads enough
        intro way pieces needed fewer _
        exact absurd fewer (Nat.not_lt_zero needed)
  | succ links inductionHypothesis =>
      rw [wayWithin]
      constructor
      · intro walked
        apply leads_of_wayWith _ walked
        intro way pieces followed
        obtain ⟨needed, enough, leads⟩ := inductionHypothesis.mp followed
        exact ⟨needed, Nat.lt_succ_of_le enough, leads⟩
      · rintro ⟨needed, enough, leads⟩
        apply wayWith_of_leads _ leads enough
        intro way pieces needed fewer further
        exact inductionHypothesis.mpr ⟨needed, Nat.le_of_lt_succ fewer, further⟩

/-! ### One stretch after the other -/

/-- Stretches lead to one place only, and always over the same links. -/
theorem Leads.unique {more : Nat} {other : List String} (first : tree.Leads way pieces links last)
    (second : tree.Leads way pieces more other) : links = more ∧ last = other := by
  induction first generalizing more other with
  | arrived =>
      cases second
      exact ⟨rfl, rfl⟩
  | idle directory idle _ inductionHypothesis =>
      cases second with
      | idle _ _ further => exact inductionHypothesis further
      | up => exact absurd idle (by decide)
      | down goesDown => simp [goesDown.1] at idle
      | link goesDown => simp [goesDown.1] at idle
  | up _ _ _ inductionHypothesis =>
      cases second with
      | idle _ idle => exact absurd idle (by decide)
      | up _ _ further => exact inductionHypothesis further
      | down goesDown => exact absurd rfl goesDown.2
      | link goesDown => exact absurd rfl goesDown.2
  | down goesDown looked notLink _ inductionHypothesis =>
      cases second with
      | idle _ idle => simp [goesDown.1] at idle
      | up => exact absurd rfl goesDown.2
      | down _ _ _ further => exact inductionHypothesis further
      | link _ lookedToo =>
          exact absurd (Option.some.inj (looked.symm.trans lookedToo)) (notLink _)
  | link goesDown looked _ _ inductionHypothesis =>
      cases second with
      | idle _ idle => simp [goesDown.1] at idle
      | up => exact absurd rfl goesDown.2
      | down _ lookedToo notLink =>
          exact absurd (Option.some.inj (lookedToo.symm.trans looked)) (notLink _)
      | link _ lookedToo _ further =>
          obtain rfl := Entry.link.inj (Option.some.inj (looked.symm.trans lookedToo))
          obtain ⟨rfl, rfl⟩ := inductionHypothesis further
          exact ⟨rfl, rfl⟩

/-- A path does not end at a link, as links are followed. -/
theorem Leads.not_link (leads : tree.Leads way pieces links last)
    (start : ∀ target, tree.entryAt? way ≠ some (.link target)) :
    ∀ target, tree.entryAt? last ≠ some (.link target) := by
  induction leads with
  | arrived => exact start
  | idle _ _ _ inductionHypothesis => exact inductionHypothesis start
  | @up way rest links last directory inside _ inductionHypothesis =>
      apply inductionHypothesis
      intro target isLink
      -- The directory that is gone back to lists the one that is left.
      obtain ⟨outer, name, rfl⟩ := (List.eq_nil_or_concat way).resolve_left inside
      rw [List.concat_eq_append] at directory isLink
      rw [List.dropLast_concat] at isLink
      obtain ⟨entries, listed⟩ := Option.isSome_iff_exists.mp directory
      rw [entriesAt?_append] at listed
      obtain ⟨entry, looked, _⟩ := Option.bind_eq_some_iff.mp listed
      have inner := isSome_entriesAt?_of_entryIn? looked
      rw [entriesAt?_eq_bind_entryAt?, isLink] at inner
      cases inner
  | down _ looked notLink _ inductionHypothesis =>
      apply inductionHypothesis
      intro target isLink
      rw [entryAt?_append, looked] at isLink
      exact notLink target (Option.some.inj isLink)
  | link _ _ _ _ inductionHypothesis => exact inductionHypothesis start

theorem Leads.append {middle : List String} {more : Nat}
    (first : tree.Leads way front links middle) (second : tree.Leads middle rest more last) :
    tree.Leads way (front ++ rest) (links + more) last := by
  induction first with
  | arrived => simpa using second
  | idle directory idle _ inductionHypothesis =>
      exact .idle directory idle (inductionHypothesis second)
  | up directory inside _ inductionHypothesis =>
      exact .up directory inside (inductionHypothesis second)
  | down goesDown looked notLink _ inductionHypothesis =>
      exact .down goesDown looked notLink (inductionHypothesis second)
  | link goesDown looked relative _ inductionHypothesis =>
      have further := inductionHypothesis second
      rw [List.append_assoc] at further
      rw [Nat.add_right_comm]
      exact .link goesDown looked relative further

theorem Leads.exists_of_append (leads : tree.Leads way (front ++ rest) links last) :
    ∃ first middle second, tree.Leads way front first middle ∧
      tree.Leads middle rest second last ∧ links = first + second := by
  generalize whole : front ++ rest = pieces at leads
  induction leads generalizing front with
  | arrived way =>
      obtain ⟨rfl, rfl⟩ := List.append_eq_nil_iff.mp whole
      exact ⟨0, way, 0, .arrived way, .arrived way, rfl⟩
  | @idle way piece others links last directory idle further inductionHypothesis =>
      cases front with
      | nil =>
          obtain rfl : rest = piece :: others := whole
          exact ⟨0, way, links, .arrived way, .idle directory idle further, by simp⟩
      | cons head front =>
          obtain ⟨rfl, rfl⟩ := List.cons.inj whole
          obtain ⟨first, middle, second, before, after, sum⟩ := inductionHypothesis rfl
          exact ⟨first, middle, second, .idle directory idle before, after, sum⟩
  | @up way others links last directory inside further inductionHypothesis =>
      cases front with
      | nil =>
          obtain rfl : rest = ".." :: others := whole
          exact ⟨0, way, links, .arrived way, .up directory inside further, by simp⟩
      | cons head front =>
          obtain ⟨rfl, rfl⟩ := List.cons.inj whole
          obtain ⟨first, middle, second, before, after, sum⟩ := inductionHypothesis rfl
          exact ⟨first, middle, second, .up directory inside before, after, sum⟩
  | @down way piece others links last entry goesDown looked notLink further inductionHypothesis =>
      cases front with
      | nil =>
          obtain rfl : rest = piece :: others := whole
          exact ⟨0, way, links, .arrived way, .down goesDown looked notLink further, by simp⟩
      | cons head front =>
          obtain ⟨rfl, rfl⟩ := List.cons.inj whole
          obtain ⟨first, middle, second, before, after, sum⟩ := inductionHypothesis rfl
          exact ⟨first, middle, second, .down goesDown looked notLink before, after, sum⟩
  | @link way piece others links last target goesDown looked relative further inductionHypothesis =>
      cases front with
      | nil =>
          obtain rfl : rest = piece :: others := whole
          exact ⟨0, way, links + 1, .arrived way, .link goesDown looked relative further, by simp⟩
      | cons head front =>
          obtain ⟨rfl, rfl⟩ := List.cons.inj whole
          obtain ⟨first, middle, second, before, after, sum⟩ :=
            inductionHypothesis (List.append_assoc target.pieces front rest)
          exact ⟨first + 1, middle, second, .link goesDown looked relative before, after, by omega⟩

/-! ### Idle stretches -/

theorem Leads.of_alike
    (alike : ∀ limit, tree.wayWithin limit way front = tree.wayWithin limit way rest)
    (leads : tree.Leads way front links last) : tree.Leads way rest links last := by
  -- Each row of stretches needs no more links than the other one.
  obtain ⟨fewer, enough, there⟩ : ∃ fewer ≤ links, tree.Leads way rest fewer last := by
    rw [← wayWithin_eq_some_iff, ← alike, wayWithin_eq_some_iff]
    exact ⟨links, Nat.le_refl links, leads⟩
  obtain ⟨least, enoughToo, back⟩ : ∃ least ≤ fewer, tree.Leads way front least last := by
    rw [← wayWithin_eq_some_iff, alike, wayWithin_eq_some_iff]
    exact ⟨fewer, Nat.le_refl fewer, there⟩
  obtain rfl : links = least := (leads.unique back).1
  obtain rfl : fewer = links := Nat.le_antisymm enough enoughToo
  exact there

theorem leads_filter (noIdleEnd : NoIdleEnd pieces) :
    tree.Leads way (pieces.filter (!Path.isIdle ·)) links last ↔
      tree.Leads way pieces links last := by
  have alike : ∀ limit, tree.wayWithin limit way (pieces.filter (!Path.isIdle ·)) =
      tree.wayWithin limit way pieces :=
    fun limit => wayWithin_append_filter limit way [] noIdleEnd
  exact ⟨.of_alike alike, .of_alike fun limit => (alike limit).symm⟩

theorem Leads.eq_of_idle (idle : ∀ piece ∈ pieces, Path.isIdle piece)
    (leads : tree.Leads way pieces links last) : links = 0 ∧ last = way := by
  induction leads with
  | arrived => exact ⟨rfl, rfl⟩
  | idle _ _ _ inductionHypothesis =>
      exact inductionHypothesis (List.forall_mem_cons.mp idle).2
  | up => exact absurd (List.forall_mem_cons.mp idle).1 (by decide)
  | down goesDown => simp [goesDown.1] at idle
  | link goesDown => simp [goesDown.1] at idle

theorem leads_of_idle (directory : (tree.entriesAt? way).isSome)
    (idle : ∀ piece ∈ pieces, Path.isIdle piece) : tree.Leads way pieces 0 way := by
  induction pieces with
  | nil => exact .arrived way
  | cons piece rest inductionHypothesis =>
      obtain ⟨idlePiece, idleRest⟩ := List.forall_mem_cons.mp idle
      exact .idle directory idlePiece (inductionHypothesis idleRest)

theorem noIdleEnd_dropIdle (pieces : List String) : NoIdleEnd (Path.dropIdle pieces) := by
  intro last isLast
  have some : Path.dropIdle pieces ≠ [] := by
    intro nothing
    simp [nothing] at isLast
  obtain rfl := Option.some.inj ((List.getLast?_eq_some_getLast some).symm.trans isLast)
  exact Bool.eq_false_iff.mpr (List.rdropWhile_last_not Path.isIdle pieces some)

/-- On the way to a directory idle stretches do not matter, not even at the end. -/
theorem leads_filter_of_directory (directory : (tree.entriesAt? last).isSome) :
    tree.Leads way (pieces.filter (!Path.isIdle ·)) links last ↔
      tree.Leads way pieces links last := by
  obtain ⟨idles, whole, idle⟩ := Path.exists_idle_end pieces
  rw [← Path.filter_dropIdle, leads_filter (noIdleEnd_dropIdle pieces)]
  constructor
  · intro leads
    rw [whole]
    exact leads.append (leads_of_idle directory idle)
  · intro leads
    rw [whole] at leads
    obtain ⟨first, middle, second, before, after, rfl⟩ := leads.exists_of_append
    obtain ⟨rfl, rfl⟩ := after.eq_of_idle idle
    exact before

/-! ### Where paths lead -/

/-- The start and the names of a path lead to the end of a way, over so many links. -/
def LeadsTo (tree : FileTree) (path : Path) (links : Nat) (way : List String) : Prop :=
  path.start ≠ some .root ∧ tree.Leads [] path.names links way

/-- From the end of a path some names lead down to the end of a way. -/
def LeadsDown (tree : FileTree) (path : Path) (names : List String) (links : Nat)
    (way : List String) : Prop :=
  path.start ≠ some .root ∧ tree.Leads [] (path.names ++ names) links way

theorem way?_eq_some_iff {path : Path} (ending : path.EndsInName) :
    tree.way? path = some way ↔ ∃ links ≤ linkLimit, tree.LeadsTo path links way := by
  rw [way?_eq_names ending]
  by_cases absolute : path.start = some .root
  · simp [absolute, LeadsTo]
  · simp [absolute, LeadsTo, wayWithin_eq_some_iff]

theorem way?_eq_some_iff_of_directory {path : Path} (written : path.text ≠ "")
    (directory : (tree.entriesAt? way).isSome) :
    tree.way? path = some way ↔ ∃ links ≤ linkLimit, tree.LeadsTo path links way := by
  have names : ∀ links, tree.Leads [] path.names links way ↔ tree.Leads [] path.pieces links way :=
    fun links => leads_filter_of_directory directory
  rw [way?, Path.isAbsolute]
  by_cases absolute : path.start = some .root
  · simp [absolute, LeadsTo]
  · simp [absolute, written, LeadsTo, wayWithin_eq_some_iff, names]

theorem list?_eq_bind_way? (path : Path) :
    tree.list? path = (tree.way? path).bind fun way =>
      (tree.entriesAt? way).map fun entries => entries.map (·.1) := by
  rw [list?, find?_eq_bind_way?]
  cases tree.way? path with
  | none => rfl
  | some way =>
      simp only [Option.bind_some, entriesAt?]
      cases tree.locationAt? way <;> rfl

theorem list?_eq_some_iff {path : Path} (written : path.text ≠ "") {names : List String} :
    tree.list? path = some names ↔ ∃ links ≤ linkLimit, ∃ way entries, tree.LeadsTo path links way ∧
      tree.entriesAt? way = some entries ∧ entries.map (·.1) = names := by
  simp only [list?_eq_bind_way?, Option.bind_eq_some_iff, Option.map_eq_some_iff]
  constructor
  · rintro ⟨way, leads, entries, found, rfl⟩
    have directory : (tree.entriesAt? way).isSome := by simp [found]
    obtain ⟨links, enough, leads⟩ := (way?_eq_some_iff_of_directory written directory).mp leads
    exact ⟨links, enough, way, entries, leads, found, rfl⟩
  · rintro ⟨links, enough, way, entries, leads, found, rfl⟩
    have directory : (tree.entriesAt? way).isSome := by simp [found]
    exact ⟨way, (way?_eq_some_iff_of_directory written directory).mpr ⟨links, enough, leads⟩,
      entries, found, rfl⟩

theorem isDirectory_iff (path : Path) : tree.isDirectory path ↔
    ∃ way, tree.way? path = some way ∧ (tree.entriesAt? way).isSome := by
  rw [isDirectory, find?_eq_bind_way?]
  cases tree.way? path with
  | none => simp
  | some way =>
      simp only [Option.bind_some, entriesAt?, Option.some.injEq, exists_eq_left']
      rcases tree.locationAt? way with _ | ⟨entry, around⟩
      · simp
      · cases entry <;> simp [Location.entries?]

theorem leadsDown_nil {path : Path} :
    tree.LeadsDown path [] links way ↔ tree.LeadsTo path links way := by
  rw [LeadsDown, LeadsTo, List.append_nil]

theorem leadsDown_iff {path : Path} {names : List String} :
    tree.LeadsDown path names links last ↔ ∃ first way second,
      tree.LeadsTo path first way ∧ tree.Leads way names second last ∧ links = first + second := by
  constructor
  · rintro ⟨relative, leads⟩
    obtain ⟨first, way, second, before, after, sum⟩ := leads.exists_of_append
    exact ⟨first, way, second, ⟨relative, before⟩, after, sum⟩
  · rintro ⟨first, way, second, ⟨relative, before⟩, after, rfl⟩
    exact ⟨relative, before.append after⟩

section Join

variable {name : String} (proper : Path.properName name)

include proper

theorem endsInName_join (directory : Path) : (directory.join ⟨name⟩).EndsInName :=
  ⟨name, Path.getLast?_pieces_join proper directory, Path.not_isIdle_of_proper proper⟩

theorem leadsDown_join {directory : Path} {names : List String} :
    tree.LeadsDown (directory.join ⟨name⟩) names links way ↔
      tree.LeadsDown directory (name :: names) links way := by
  rw [LeadsDown, LeadsDown, Path.start_join_eq proper, Path.names_join proper, List.append_assoc,
    List.singleton_append]

theorem leadsTo_join {directory : Path} :
    tree.LeadsTo (directory.join ⟨name⟩) links last ↔ ∃ first way second,
      tree.LeadsTo directory first way ∧ tree.Leads way [name] second last ∧
        links = first + second := by
  rw [← leadsDown_nil, leadsDown_join proper, leadsDown_iff]

end Join

/-! ### Two paths to one directory -/

/-- Whatever lies below a path is found through both of two paths or through neither. -/
def FollowedAlike (tree : FileTree) (left right : Path) : Prop :=
  ∀ names, (∀ name ∈ names, Path.properName name) → ∀ way,
    (∃ links ≤ linkLimit, tree.LeadsDown left names links way) ↔
      ∃ links ≤ linkLimit, tree.LeadsDown right names links way

/-- Two paths lead to one directory.  If one of them follows more links than the other, enough of
them are left for all that lies below. -/
def SameDirectory (tree : FileTree) (left right : Path) : Prop :=
  ∃ way first second, tree.LeadsTo left first way ∧ tree.LeadsTo right second way ∧
    (first = second ∨ ∀ names, (∀ name ∈ names, Path.properName name) → ∀ links last,
      tree.Leads way names links last → max first second + links ≤ linkLimit)

theorem SameDirectory.followedAlike {left right : Path} (same : tree.SameDirectory left right) :
    tree.FollowedAlike left right := by
  obtain ⟨way, first, second, leftLeads, rightLeads, enough⟩ := same
  -- Either path is followed to the directory itself, and from there on the names are the same.
  have down : ∀ {path links names more last}, tree.LeadsTo path links way →
      (tree.LeadsDown path names more last ↔
        ∃ further, tree.Leads way names further last ∧ more = links + further) := by
    intro path links names more last leads
    rw [leadsDown_iff]
    constructor
    · rintro ⟨before, middle, further, leadsToo, after, sum⟩
      obtain ⟨rfl, rfl⟩ := leads.2.unique leadsToo.2
      exact ⟨further, after, sum⟩
    · rintro ⟨further, after, sum⟩
      exact ⟨links, way, further, leads, after, sum⟩
  intro names proper last
  simp only [down leftLeads, down rightLeads]
  rcases enough with rfl | enough
  · rfl
  · constructor
    · rintro ⟨_, _, further, after, _⟩
      have room := enough names proper further last after
      exact ⟨second + further, by omega, further, after, rfl⟩
    · rintro ⟨_, _, further, after, _⟩
      have room := enough names proper further last after
      exact ⟨first + further, by omega, further, after, rfl⟩

theorem FollowedAlike.join {left right : Path} (alike : tree.FollowedAlike left right)
    {name : String} (proper : Path.properName name) :
    tree.FollowedAlike (left.join ⟨name⟩) (right.join ⟨name⟩) := by
  intro names properNames way
  simp only [leadsDown_join proper]
  exact alike (name :: names) (List.forall_mem_cons.mpr ⟨proper, properNames⟩) way

namespace FollowedAlike

variable {left right : Path} (alike : tree.FollowedAlike left right)

include alike

theorem leadsTo_iff : (∃ links ≤ linkLimit, tree.LeadsTo left links way) ↔
    ∃ links ≤ linkLimit, tree.LeadsTo right links way := by
  have whole := alike [] (List.forall_mem_nil _) way
  simpa only [leadsDown_nil] using whole

theorem way?_eq (leftEnding : left.EndsInName) (rightEnding : right.EndsInName) :
    tree.way? left = tree.way? right := by
  ext way
  rw [way?_eq_some_iff leftEnding, way?_eq_some_iff rightEnding]
  exact alike.leadsTo_iff

theorem find?_eq (leftEnding : left.EndsInName) (rightEnding : right.EndsInName) :
    tree.find? left = tree.find? right := by
  rw [find?_eq_bind_way?, find?_eq_bind_way?, alike.way?_eq leftEnding rightEnding]

theorem list?_eq (leftWritten : left.text ≠ "") (rightWritten : right.text ≠ "") :
    tree.list? left = tree.list? right := by
  ext names
  rw [list?_eq_some_iff leftWritten, list?_eq_some_iff rightWritten]
  constructor
  · rintro ⟨links, enough, way, entries, leads, found, named⟩
    obtain ⟨more, enoughToo, leadsToo⟩ := alike.leadsTo_iff.mp ⟨links, enough, leads⟩
    exact ⟨more, enoughToo, way, entries, leadsToo, found, named⟩
  · rintro ⟨links, enough, way, entries, leads, found, named⟩
    obtain ⟨more, enoughToo, leadsToo⟩ := alike.leadsTo_iff.mpr ⟨links, enough, leads⟩
    exact ⟨more, enoughToo, way, entries, leadsToo, found, named⟩

end FollowedAlike

/-! ### Trees without links -/

theorem not_link_of_linkless (linkless : tree.linkless) {name : String} {target : Path} :
    tree.entryIn? way name ≠ some (.link target) := by
  intro looked
  obtain ⟨entries, listed, found⟩ := Option.bind_eq_some_iff.mp looked
  obtain ⟨before, after, rfl, _⟩ := List.lookup_eq_some_iff.mp found
  have noLink := check_of_entriesAt? linkless listed
    (List.mem_append_right before List.mem_cons_self)
  cases noLink

theorem Leads.links_eq_zero (linkless : tree.linkless) (leads : tree.Leads way pieces links last) :
    links = 0 := by
  induction leads with
  | arrived => rfl
  | idle _ _ _ inductionHypothesis => exact inductionHypothesis
  | up _ _ _ inductionHypothesis => exact inductionHypothesis
  | down _ _ _ _ inductionHypothesis => exact inductionHypothesis
  | link _ looked => exact absurd looked (not_link_of_linkless linkless)

theorem Leads.eq_append_of_proper (linkless : tree.linkless) {name : String}
    (proper : Path.properName name) (leads : tree.Leads way [name] links last) :
    last = way ++ [name] := by
  cases leads with
  | idle _ idle => simp [Path.not_isIdle_of_proper proper] at idle
  | up => cases proper
  | down _ _ _ further =>
      cases further
      rfl
  | link _ looked => exact absurd looked (not_link_of_linkless linkless)

/-- Without links, a file is in one directory only. -/
theorem sameDirectory_of_sameFile (linkless : tree.linkless) {left right : Path} {name : String}
    (proper : Path.properName name)
    (same : tree.SameFile (left.join ⟨name⟩) (right.join ⟨name⟩)) :
    tree.SameDirectory left right := by
  obtain ⟨last, leftWay, rightWay⟩ := same
  obtain ⟨_, _, leftLeads⟩ := (way?_eq_some_iff (endsInName_join proper left)).mp leftWay
  obtain ⟨_, _, rightLeads⟩ := (way?_eq_some_iff (endsInName_join proper right)).mp rightWay
  obtain ⟨first, way, _, leftLeads, leftEnd, _⟩ := (leadsTo_join proper).mp leftLeads
  obtain ⟨second, other, _, rightLeads, rightEnd, _⟩ := (leadsTo_join proper).mp rightLeads
  have ends : way ++ [name] = other ++ [name] :=
    (leftEnd.eq_append_of_proper linkless proper).symm.trans
      (rightEnd.eq_append_of_proper linkless proper)
  obtain rfl := List.append_cancel_right ends
  refine ⟨way, first, second, leftLeads, rightLeads, .inl ?_⟩
  rw [leftLeads.2.links_eq_zero linkless, rightLeads.2.links_eq_zero linkless]

end FileTree

end SolutionSurvey

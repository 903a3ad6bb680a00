import SolutionSurvey.Proofs.FileTree.Listing
import SolutionSurvey.Proofs.Solution.Sources

/-!
# Which sources a directory has

The sources of a directory are the files with the right extension that lie below it at any depth, as
long as every directory between can be opened and is not left out.  They are put in order, each
once.
-/

namespace SolutionSurvey.Sources

/-! ### What a source is -/

/-- A name with an extension, in whatever case: there is no dot in the extension, and something
stands before the dot. -/
def HasExtension (access : Access) (extension name : String) : Prop :=
  ∃ stem own, name = stem ++ "." ++ own ∧ stem ≠ "" ∧ '.' ∉ own.toList ∧ access.isText own ∧
    lower own = lower extension

/-- Hidden directories and those whose names are excluded are left out, if their names are texts. -/
def IsEntered (access : Access) (settings : Settings) (name : String) : Prop :=
  access.isText name → name.toList.head? ≠ some '.' ∧ name ∉ settings.excluded

/-- A directory can be listed, and an entry of it is shown. -/
def Shows (access : Access) (directory : Path) (name : String) : Prop :=
  access.lists directory ∧ access.shows directory name

/-- Every directory from one on down along some names shows the next one, which can be looked up,
and the last of them shows what lies in it. -/
def Opens (access : Access) (directory : Path) : List String → String → Prop
  | [], name => Shows access directory name
  | outer :: inner, name => Shows access directory outer ∧
      access.looksUp (directory.join ⟨outer⟩) ∧ Opens access (directory.join ⟨outer⟩) inner name

/-- The path to what lies at the end of some names below a directory. -/
def pathTo (directory : Path) (names : List String) : Path :=
  names.foldl (fun path name => path.join ⟨name⟩) directory

/-- What lies at the end of some names below a directory is a source of it.  A directory that is not
looked up passes for a file. -/
structure IsSource (access : Access) (tree : FileTree) (settings : Settings) (directory : Path)
    (inner : List String) (name : String) : Prop where
  lies : ∃ way entry, tree.way? directory = some way ∧
    tree.entryAt? (way ++ inner ++ [name]) = some entry ∧
      (entry.entries? = none ∨ access.looksUp (pathTo directory (inner ++ [name])) = false)
  extension : HasExtension access settings.extension name
  entered : ∀ outer ∈ inner, IsEntered access settings outer
  opens : Opens access directory inner name

variable {access : Access} {tree : FileTree} {settings : Settings} {directory path : Path}
  {inner : List String} {name : String}

section Join

variable (proper : Path.properName name)

include proper

theorem hasExtension_join_iff {extension : String} :
    hasExtension access extension (directory.join ⟨name⟩) ↔ HasExtension access extension name := by
  rw [hasExtension, Path.extension?, Path.fileName?_join proper, Option.bind_some]
  constructor
  · intro has
    cases split : (Path.splitName name).2 with
    | none => simp [split] at has
    | some own =>
        rw [split, Option.map_some, Option.getD_some, agree, Bool.and_eq_true, beq_iff_eq] at has
        obtain ⟨isText, same⟩ := has
        obtain ⟨absent, stem, written, spelled⟩ := Path.splitName_eq_some_iff.mp split
        exact ⟨stem, own, spelled, written, absent, isText, same.symm⟩
  · rintro ⟨stem, own, spelled, written, absent, isText, same⟩
    rw [Path.splitName_eq_some_iff.mpr ⟨absent, stem, written, spelled⟩, Option.map_some,
      Option.getD_some, agree, Bool.and_eq_true, beq_iff_eq]
    exact ⟨isText, same.symm⟩

theorem isLeftOut_join_iff :
    isLeftOut access settings (directory.join ⟨name⟩) = false ↔ IsEntered access settings name := by
  rw [isLeftOut, Path.fileName?_join proper, Option.map_some, Option.getD_some,
    Bool.and_eq_false_imp, Settings.excludes, Bool.or_eq_false_iff, beq_eq_false_iff_ne,
    List.contains_eq_mem, decide_eq_false_iff_not]
  rfl

end Join

theorem isDirectory_eq_false_iff : access.isDirectory tree path = false ↔
    tree.isDirectory path = false ∨ access.looksUp path = false := by
  rw [Access.isDirectory, Bool.and_eq_false_iff, or_comm]

/-! ### One directory -/

theorem properName_of_lists (lists : tree.Lists directory name) : Path.properName name := by
  obtain ⟨names, listed, membership⟩ := lists
  exact FileTree.properName_of_list? listed name membership

/-- One level of a search: directories are searched unless they are left out, and files are found if
they have the extension. -/
theorem mem_below_succ {depth : Nat} : path ∈ below access tree settings (depth + 1) directory ↔
    ∃ name, (Shows access directory name ∧ tree.Lists directory name) ∧
      (access.isDirectory tree (directory.join ⟨name⟩) ∧
          isLeftOut access settings (directory.join ⟨name⟩) = false ∧
            path ∈ below access tree settings depth (directory.join ⟨name⟩) ∨
        access.isDirectory tree (directory.join ⟨name⟩) = false ∧
          hasExtension access settings.extension (directory.join ⟨name⟩) ∧
            path = directory.join ⟨name⟩) := by
  have lists : ∀ name, name ∈ (access.list? tree directory).getD [] ↔
      Shows access directory name ∧ tree.Lists directory name := by
    intro name
    rw [FileTree.Lists, Access.list?, Shows]
    cases access.lists directory with
    | false => simp
    | true => cases tree.list? directory <;> simp [and_comm]
  rw [below, List.mem_flatMap]
  refine exists_congr fun name => ?_
  rw [lists]
  apply and_congr_right'
  dsimp only
  cases access.isDirectory tree (directory.join ⟨name⟩) with
  | true => cases isLeftOut access settings (directory.join ⟨name⟩) <;> simp
  | false => cases hasExtension access settings.extension (directory.join ⟨name⟩) <;> simp

/-- No source lies deeper than the tree goes. -/
theorem IsSource.length_le_deepest (source : IsSource access tree settings directory inner name) :
    inner.length ≤ tree.deepest := by
  obtain ⟨way, entry, _, found, _⟩ := source.lies
  have isDirectory := FileTree.isSome_entriesAt?_of_entryAt?_append (List.cons_ne_nil name [])
    (by rw [found]; rfl)
  obtain ⟨entries, listed⟩ := Option.isSome_iff_exists.mp isDirectory
  have bounded := FileTree.length_add_height_le listed
  rw [List.length_append] at bounded
  have enough : FileTree.heightOfAll tree.entries ≤ tree.deepest := by
    rw [FileTree.deepest, FileTree.linkLimit]
    omega
  omega

section Linkless

variable (linkless : tree.linkless)

include linkless

/-- A source directly in a directory is listed there and is no directory that is looked up. -/
theorem isSource_nil_iff :
    IsSource access tree settings directory [] name ↔
      (Shows access directory name ∧ tree.Lists directory name) ∧
        access.isDirectory tree (directory.join ⟨name⟩) = false ∧
          hasExtension access settings.extension (directory.join ⟨name⟩) := by
  constructor
  · rintro ⟨⟨way, entry, leads, found, plain⟩, extension, _, opens⟩
    rw [List.append_nil] at found
    have lists := FileTree.lists_iff.mpr ⟨way, entry, leads, found⟩
    have proper := properName_of_lists lists
    refine ⟨⟨opens, lists⟩, ?_, (hasExtension_join_iff proper).mpr extension⟩
    apply isDirectory_eq_false_iff.mpr
    apply plain.imp_left
    intro plain
    rw [Bool.eq_false_iff, Ne, FileTree.isDirectory_join_iff linkless proper leads found, plain]
    exact Bool.false_ne_true
  · rintro ⟨⟨opens, lists⟩, noDirectory, extension⟩
    have proper := properName_of_lists lists
    obtain ⟨way, entry, leads, found⟩ := FileTree.lists_iff.mp lists
    have plain : entry.entries? = none ∨ access.looksUp (directory.join ⟨name⟩) = false := by
      apply (isDirectory_eq_false_iff.mp noDirectory).imp_left
      intro noDirectory
      rwa [Bool.eq_false_iff, Ne, FileTree.isDirectory_join_iff linkless proper leads found,
        Option.not_isSome_iff_eq_none] at noDirectory
    exact
      { lies := ⟨way, entry, leads, by rwa [List.append_nil], plain⟩
        extension := (hasExtension_join_iff proper).mp extension
        entered := List.forall_mem_nil _
        opens }

/-- A source further below lies in a directory that is listed, opened and not left out. -/
theorem isSource_cons_iff {outer : String} :
    IsSource access tree settings directory (outer :: inner) name ↔
      (Shows access directory outer ∧ tree.Lists directory outer) ∧
        access.isDirectory tree (directory.join ⟨outer⟩) ∧
          isLeftOut access settings (directory.join ⟨outer⟩) = false ∧
            IsSource access tree settings (directory.join ⟨outer⟩) inner name := by
  constructor
  · rintro ⟨⟨way, entry, leads, found, plain⟩, extension, entered, listsIt, looksUp, opens⟩
    obtain ⟨enteredOuter, enteredInner⟩ := List.forall_mem_cons.mp entered
    rw [List.append_cons way, List.append_assoc] at found
    have more : inner ++ [name] ≠ [] := by simp
    have isDirectory := FileTree.isSome_entriesAt?_of_entryAt?_append more (by rw [found]; rfl)
    rw [← List.append_assoc] at found
    rw [FileTree.entriesAt?_eq_bind_entryAt?, Option.isSome_bind, Option.any_eq_true] at isDirectory
    obtain ⟨around, foundAround, isDirectory⟩ := isDirectory
    have lists := FileTree.lists_iff.mpr ⟨way, around, leads, foundAround⟩
    have proper := properName_of_lists lists
    refine ⟨⟨listsIt, lists⟩, ?_, (isLeftOut_join_iff proper).mpr enteredOuter, ?_⟩
    · rw [Access.isDirectory, looksUp, Bool.true_and]
      exact (FileTree.isDirectory_join_iff linkless proper leads foundAround).mpr isDirectory
    · have further := FileTree.way?_join_of_linkless linkless proper leads foundAround
      exact ⟨⟨way ++ [outer], entry, further, found, plain⟩, extension, enteredInner, opens⟩
  · rintro ⟨⟨listsIt, lists⟩, isDirectory, leftOut, source⟩
    obtain ⟨⟨wayToo, entry, further, found, plain⟩, extension, entered, opens⟩ := source
    have proper := properName_of_lists lists
    obtain ⟨way, around, leads, foundAround⟩ := FileTree.lists_iff.mp lists
    obtain rfl := Option.some.inj
      (further.symm.trans (FileTree.way?_join_of_linkless linkless proper leads foundAround))
    refine ⟨⟨way, entry, leads, ?_, plain⟩, extension, ?_, listsIt, ?_, opens⟩
    · rwa [List.append_cons way]
    · exact List.forall_mem_cons.mpr ⟨(isLeftOut_join_iff proper).mp leftOut, entered⟩
    · exact (Bool.and_eq_true_iff.mp isDirectory).1

/-- A search finds the sources that lie less deep than it goes. -/
theorem mem_below_iff {depth : Nat} : path ∈ below access tree settings depth directory ↔
    ∃ inner name, inner.length < depth ∧ IsSource access tree settings directory inner name ∧
      path = pathTo directory (inner ++ [name]) := by
  induction depth generalizing directory with
  | zero =>
      constructor
      · intro membership
        cases membership
      · rintro ⟨_, _, short, _⟩
        cases short
  | succ depth inductionHypothesis =>
      rw [mem_below_succ]
      constructor
      · rintro ⟨first, lists, ⟨isDirectory, entered, further⟩ | ⟨noDirectory, extension, rfl⟩⟩
        · obtain ⟨inner, name, short, source, rfl⟩ := inductionHypothesis.mp further
          exact ⟨first :: inner, name, Nat.succ_lt_succ short,
            (isSource_cons_iff linkless).mpr ⟨lists, isDirectory, entered, source⟩, rfl⟩
        · exact ⟨[], first, Nat.zero_lt_succ depth,
            (isSource_nil_iff linkless).mpr ⟨lists, noDirectory, extension⟩, rfl⟩
      · rintro ⟨inner, name, short, source, rfl⟩
        cases inner with
        | nil =>
            obtain ⟨lists, noDirectory, extension⟩ := (isSource_nil_iff linkless).mp source
            exact ⟨name, lists, .inr ⟨noDirectory, extension, rfl⟩⟩
        | cons outer inner =>
            obtain ⟨lists, isDirectory, entered, source⟩ := (isSource_cons_iff linkless).mp source
            have further := inductionHypothesis.mpr
              ⟨inner, name, Nat.lt_of_succ_lt_succ short, source, rfl⟩
            exact ⟨outer, lists, .inl ⟨isDirectory, entered, further⟩⟩

theorem IsSource.properName (source : IsSource access tree settings directory inner name) :
    ∀ step ∈ inner ++ [name], Path.properName step := by
  induction inner generalizing directory with
  | nil =>
      obtain ⟨⟨_, lists⟩, _⟩ := (isSource_nil_iff linkless).mp source
      simpa using properName_of_lists lists
  | cons outer inner inductionHypothesis =>
      obtain ⟨⟨_, lists⟩, _, _, source⟩ := (isSource_cons_iff linkless).mp source
      exact List.forall_mem_cons.mpr ⟨properName_of_lists lists, inductionHypothesis source⟩

theorem mem_collectWith_iff : path ∈ collectWith access tree settings directory ↔
    ∃ inner name, IsSource access tree settings directory inner name ∧
      path = pathTo directory (inner ++ [name]) := by
  rw [collectWith, List.mem_mergeSort, mem_below_iff linkless]
  constructor
  · rintro ⟨inner, name, _, source, written⟩
    exact ⟨inner, name, source, written⟩
  · rintro ⟨inner, name, source, written⟩
    have short := source.length_le_deepest
    exact ⟨inner, name, by omega, source, written⟩

end Linkless

/-! ### Order -/

theorem names_pathTo {names : List String} (proper : ∀ name ∈ names, Path.properName name) :
    (pathTo directory names).names = directory.names ++ names := by
  induction names generalizing directory with
  | nil => exact (List.append_nil _).symm
  | cons name names inductionHypothesis =>
      obtain ⟨properName, properNames⟩ := List.forall_mem_cons.mp proper
      have further : (pathTo (directory.join ⟨name⟩) names).names = _ :=
        inductionHypothesis properNames
      rw [Path.names_join properName, List.append_assoc] at further
      exact further

/-- What is found by way of an entry has its name behind those of the directory. -/
theorem names_of_mem_branch (proper : Path.properName name) {depth : Nat} (membership : path ∈
      if access.isDirectory tree (directory.join ⟨name⟩) then
        if isLeftOut access settings (directory.join ⟨name⟩) then []
        else below access tree settings depth (directory.join ⟨name⟩)
      else if hasExtension access settings.extension (directory.join ⟨name⟩) then
        [directory.join ⟨name⟩]
      else []) :
    ∃ way, path.names = directory.names ++ name :: way := by
  split at membership
  · split at membership
    · cases membership
    · obtain ⟨way, names, _⟩ := (spelledBelow_of_mem_below membership).names
      exact ⟨way, by rw [names, Path.names_join proper, List.append_assoc, List.singleton_append]⟩
  · split at membership
    · obtain rfl := List.mem_singleton.mp membership
      exact ⟨[], Path.names_join proper directory⟩
    · cases membership

/-- Where no directory lists a name twice, no source is found twice. -/
theorem below_apart {depth : Nat} :
    (below access tree settings depth directory).Pairwise fun earlier later =>
      earlier.components ≠ later.components := by
  induction depth generalizing directory with
  | zero => exact .nil
  | succ depth inductionHypothesis =>
      rw [below]
      cases seen : access.list? tree directory with
      | none => exact .nil
      | some names =>
          obtain ⟨held, listed, among⟩ := Access.exists_list?_of_list? seen
          have different : held.Nodup := by
            rw [FileTree.list?_eq_bind_way?] at listed
            obtain ⟨way, _, found⟩ := Option.bind_eq_some_iff.mp listed
            obtain ⟨entries, inside, rfl⟩ := Option.map_eq_some_iff.mp found
            exact FileTree.nodup_of_entriesAt? inside
          have proper : ∀ name ∈ names, Path.properName name := fun name membership =>
            FileTree.properName_of_list? listed name (among.subset membership)
          apply List.pairwise_flatMap.mpr
          constructor
          · intro name _
            dsimp only
            split
            · split
              · exact .nil
              · exact inductionHypothesis
            · split
              · exact List.pairwise_singleton _ _
              · exact .nil
          · apply (different.sublist among).imp_of_mem
            intro first second inFirst inSecond notSame earlier isEarlier later isLater same
            obtain ⟨_, names⟩ := names_of_mem_branch (proper first inFirst) isEarlier
            obtain ⟨_, namesToo⟩ := names_of_mem_branch (proper second inSecond) isLater
            have together := (Path.components_eq_iff.mp same).2
            rw [names, namesToo, List.append_cancel_left_eq] at together
            exact notSame (List.cons.inj together).1

theorem ascending_collectWith : Ascending Path.order (collectWith access tree settings directory) := by
  have sorted : Sorted Path.order (collectWith access tree settings directory) :=
    sorted_mergeSort _
  have different : (collectWith access tree settings directory).Pairwise fun earlier later =>
      earlier.components ≠ later.components :=
    ((List.mergeSort_perm _ _).pairwise_iff Ne.symm).mpr below_apart
  apply (sorted.and different).imp
  rintro earlier later ⟨before, different⟩
  rcases Ordering.isLE_iff_eq_lt_or_eq_eq.mp before with less | tie
  · exact less
  · exact absurd (Path.components_eq_of_order_eq tie) different

/-! ### More excluded names -/

theorem mem_excluded_exclude {names : List String} :
    name ∈ (settings.exclude names).excluded ↔ name ∈ settings.excluded ∨ name ∈ names := by
  unfold Settings.exclude
  induction names generalizing settings with
  | nil => simp
  | cons first names inductionHypothesis =>
      rw [List.foldl_cons, inductionHypothesis, List.mem_cons, ← or_assoc]
      apply or_congr_left
      unfold Settings.excludeOne
      split
      · next known =>
        have known : first ∈ settings.excluded := by simpa using known
        constructor
        · exact .inl
        · rintro (excluded | rfl)
          · exact excluded
          · exact known
      · simp

theorem extension_exclude (names : List String) :
    (settings.exclude names).extension = settings.extension := by
  unfold Settings.exclude
  induction names generalizing settings with
  | nil => rfl
  | cons first names inductionHypothesis =>
      rw [List.foldl_cons, inductionHypothesis]
      unfold Settings.excludeOne
      split <;> rfl

theorem isSource_exclude_iff {names : List String} :
    IsSource access tree (settings.exclude names) directory inner name ↔
      IsSource access tree settings directory inner name ∧
        ∀ outer ∈ inner, access.isText outer → outer ∉ names := by
  constructor
  · rintro ⟨lies, extension, entered, opens⟩
    rw [extension_exclude] at extension
    refine ⟨⟨lies, extension, ?_, opens⟩, ?_⟩
    · intro outer membership isText
      obtain ⟨visible, allowed⟩ := entered outer membership isText
      exact ⟨visible, fun excluded => allowed (mem_excluded_exclude.mpr (.inl excluded))⟩
    · intro outer membership isText isName
      exact (entered outer membership isText).2 (mem_excluded_exclude.mpr (.inr isName))
  · rintro ⟨⟨lies, extension, entered, opens⟩, others⟩
    refine ⟨lies, by rwa [extension_exclude], ?_, opens⟩
    intro outer membership isText
    obtain ⟨visible, allowed⟩ := entered outer membership isText
    refine ⟨visible, fun excluded => ?_⟩
    rcases mem_excluded_exclude.mp excluded with known | added
    · exact allowed known
    · exact others outer membership isText added

/-- The names of the directories between a directory and what lies below it. -/
def between (directory path : Path) : List String :=
  (path.names.drop directory.names.length).dropLast

theorem all_notText_or_other_iff {names : List String} :
    (inner.all fun outer => !(access.isText outer && names.contains outer)) ↔
      ∀ outer ∈ inner, access.isText outer → outer ∉ names := by
  simp only [List.all_eq_true, Bool.not_eq_true', Bool.and_eq_false_imp, List.contains_eq_mem,
    decide_eq_false_iff_not]

theorem between_pathTo (proper : ∀ step ∈ inner ++ [name], Path.properName step) :
    between directory (pathTo directory (inner ++ [name])) = inner := by
  rw [between, names_pathTo proper, List.drop_left, List.dropLast_concat]

/-! ### All sources, in order -/

/-- The sources of a directory: in strictly ascending order, all that there are and nothing else.
Excluding further names leaves out what lies in directories of these names. -/
structure Enumerates (access : Access) (tree : FileTree) (directory : Path) : Prop where
  ascending : ∀ settings, Ascending Path.order (collectWith access tree settings directory)
  exact : ∀ settings path, path ∈ collectWith access tree settings directory ↔
    ∃ inner name, IsSource access tree settings directory inner name ∧
      path = pathTo directory (inner ++ [name])
  unlisted : access.list? tree directory = none →
    ∀ settings, collectWith access tree settings directory = []
  excluding : ∀ settings names, collectWith access tree (settings.exclude names) directory =
    (collectWith access tree settings directory).filter fun path =>
      (between directory path).all fun outer => !(access.isText outer && names.contains outer)

theorem enumerates (linkless : tree.linkless) (access : Access) (directory : Path) :
    Enumerates access tree directory where
  ascending settings := ascending_collectWith
  exact settings path := mem_collectWith_iff linkless
  unlisted unlisted settings := by
    apply collectWith_eq_of_sorted _ .nil
    rw [below, unlisted]
    rfl
  excluding settings names := by
    apply ascending_collectWith.eq_of_mem_iff (ascending_collectWith.sublist List.filter_sublist)
    intro path
    rw [List.mem_filter, mem_collectWith_iff linkless, mem_collectWith_iff linkless]
    constructor
    · rintro ⟨inner, name, source, rfl⟩
      obtain ⟨source, others⟩ := isSource_exclude_iff.mp source
      refine ⟨⟨inner, name, source, rfl⟩, ?_⟩
      rw [between_pathTo (source.properName linkless)]
      exact all_notText_or_other_iff.mpr others
    · rintro ⟨⟨inner, name, source, rfl⟩, others⟩
      rw [between_pathTo (source.properName linkless)] at others
      have others := all_notText_or_other_iff.mp others
      exact ⟨inner, name, isSource_exclude_iff.mpr ⟨source, others⟩, rfl⟩

/-- A hidden directory with sources in two directories, one of which is excluded. -/
def shelf : FileTree :=
  ⟨[(".shelf", .directory
    [("Models", .directory [("Order.cs", .file (.text "")), ("cs", .file (.text ""))]),
      ("a.CS", .file (.text "")),
      ("bin", .directory [("B.cs", .file (.text ""))])])], by decide +kernel, by decide +kernel⟩

theorem shelf_enumerates : shelf.linkless ∧ Enumerates .full shelf ⟨".shelf"⟩ :=
  ⟨by decide +kernel, enumerates (by decide +kernel) _ _⟩

example : collect shelf .standard ⟨".shelf"⟩ = [⟨".shelf/Models/Order.cs"⟩, ⟨".shelf/a.CS"⟩] :=
  collectWith_eq_of_sorted (by decide +kernel) (List.pairwise_pair.mpr (by decide +kernel))

/-! ### A directory that cannot be looked up -/

/-- A directory whose only source lies in an inner directory. -/
def cellar : FileTree :=
  ⟨[("d", .directory [("inner", .directory [("A.cs", .file (.text ""))])])],
    by decide +kernel, by decide +kernel⟩

def spiralText : Nat → String
  | 0 => "d"
  | turns + 1 => "d/../" ++ spiralText turns

/-- The directory `d`, entered and left so many times before. -/
def spiral (turns : Nat) : Path := ⟨spiralText turns⟩

theorem utf8ByteSize_spiral (turns : Nat) : (spiral turns).text.utf8ByteSize = 5 * turns + 1 := by
  change (spiralText turns).utf8ByteSize = _
  induction turns with
  | zero => rfl
  | succ turns inductionHypothesis =>
      have turn : "d/../".utf8ByteSize = 5 := rfl
      rw [spiralText, String.utf8ByteSize_append, inductionHypothesis, turn]
      omega

theorem pieces_spiral_succ (turns : Nat) :
    (spiral (turns + 1)).pieces = ["d", ".."] ++ (spiral turns).pieces := by
  have spelled : (spiral (turns + 1)).text.toList =
      ['d', '/', '.', '.'] ++ '/' :: (spiral turns).text.toList := by
    change (spiralText (turns + 1)).toList = _
    rw [spiralText, String.toList_append]
    rfl
  rw [Path.pieces, spelled, Path.pieces_slash, List.map_append]
  rfl

theorem leads_spiral (turns : Nat) : cellar.Leads [] (spiral turns).pieces 0 ["d"] := by
  have goesDown : Path.GoesDown "d" := Path.goesDown_of_proper (by decide +kernel)
  have looked : cellar.entryIn? [] "d" =
      some (.directory [("inner", .directory [("A.cs", .file (.text ""))])]) := rfl
  have notLink : ∀ target,
      Entry.directory [("inner", .directory [("A.cs", .file (.text ""))])] ≠ .link target := nofun
  induction turns with
  | zero => exact .down goesDown looked notLink (.arrived _)
  | succ turns inductionHypothesis =>
      rw [pieces_spiral_succ]
      exact .down goesDown looked notLink (.up rfl (List.cons_ne_nil _ _) inductionHypothesis)

theorem way?_spiral (turns : Nat) : cellar.way? (spiral turns) = some ["d"] := by
  have written : (spiral turns).text ≠ "" := by
    intro empty
    have size := utf8ByteSize_spiral turns
    rw [empty] at size
    cases size
  have relative : (spiral turns).start ≠ some .root := by
    cases turns with
    | zero => decide +kernel
    | succ turns =>
        rw [Path.start, pieces_spiral_succ]
        exact (Option.some_ne_none _).symm
  apply (FileTree.way?_eq_some_iff_of_directory written rfl).mpr
  have leads := (FileTree.leads_filter_of_directory rfl).mpr (leads_spiral turns)
  exact ⟨0, Nat.zero_le _, relative, leads⟩

theorem isSource_spiral (turns : Nat) :
    IsSource .full cellar .standard (spiral turns) ["inner"] "A.cs" where
  lies := ⟨["d"], _, way?_spiral turns, rfl, .inl rfl⟩
  extension := ⟨"A", "cs", by decide +kernel⟩
  entered := by
    intro outer membership _
    obtain rfl := List.mem_singleton.mp membership
    decide +kernel
  opens := ⟨⟨rfl, rfl⟩, rfl, ⟨rfl, rfl⟩⟩

theorem utf8ByteSize_le_join (proper : Path.properName name) :
    directory.text.utf8ByteSize + name.utf8ByteSize ≤
      (directory.join ⟨name⟩).text.utf8ByteSize := by
  rw [Path.join, Path.not_isAbsolute_of_proper proper, if_neg Bool.false_ne_true]
  split <;> simp only [String.utf8ByteSize_append] <;> omega

/-- The path to the inner directory is too long. -/
theorem not_opens_spiral {turns limit : Nat} (long : limit < 5 * turns + 6) :
    ¬Opens (.upTo limit) (spiral turns) ["inner"] name := by
  rintro ⟨_, looksUp, _⟩
  have short : ((spiral turns).join ⟨"inner"⟩).text.utf8ByteSize ≤ limit :=
    of_decide_eq_true looksUp
  have proper : Path.properName "inner" := by decide +kernel
  have joined : (spiral turns).text.utf8ByteSize + _ ≤ _ := utf8ByteSize_le_join proper
  have inner : "inner".utf8ByteSize = 5 := rfl
  rw [utf8ByteSize_spiral, inner] at joined
  omega

theorem list?_spiral {turns limit : Nat} (short : 5 * turns + 1 ≤ limit) :
    (Access.upTo limit).list? cellar (spiral turns) = some ["inner"] := by
  rw [← utf8ByteSize_spiral] at short
  have listed : cellar.list? (spiral turns) = some ["inner"] := by
    rw [FileTree.list?_eq_bind_way?, way?_spiral]
    rfl
  exact Access.list?_eq_some_iff.mpr ⟨decide_eq_true short, _, listed, rfl⟩

theorem spiral_not_enumerated :
    cellar.linkless ∧ (Access.upTo Access.longest).list? cellar (spiral 818) = some ["inner"] ∧
      ¬∀ path, path ∈ collectWith (.upTo Access.longest) cellar .standard (spiral 818) ↔
        ∃ inner name, IsSource .full cellar .standard (spiral 818) inner name ∧
          path = pathTo (spiral 818) (inner ++ [name]) := by
  have linkless : cellar.linkless := by decide +kernel
  refine ⟨linkless, list?_spiral (by decide), fun enumerated => ?_⟩
  have source := isSource_spiral 818
  have collected := (enumerated _).mpr ⟨["inner"], "A.cs", source, rfl⟩
  obtain ⟨inner, name, found, same⟩ := (mem_collectWith_iff linkless).mp collected
  have way : inner = ["inner"] := by
    rw [← between_pathTo (found.properName linkless), ← same,
      between_pathTo (source.properName linkless)]
  subst way
  exact not_opens_spiral (by decide) found.opens

end SolutionSurvey.Sources

import SolutionSurvey.Proofs.FileTree.Links

/-!
# Taking files out of a tree

Where some entries are taken out of a tree, no path leads anywhere it did not lead before.  If every
entry that is taken out led to a file of some kind, nothing changes for the paths that lead to
anything else.
-/

namespace SolutionSurvey

namespace FileTree

section Definitions

variable (gone : List String → Bool)

mutual

/-- An entry at the end of a way without the entries below it whose ways are gone. -/
def withoutBelow (way : List String) : Entry → Entry
  | .directory entries => .directory (withoutAmong way entries)
  | entry => entry

def withoutAmong (way : List String) : List (String × Entry) → List (String × Entry)
  | [] => []
  | (name, entry) :: rest =>
      if gone (way ++ [name]) then withoutAmong way rest
      else (name, withoutBelow (way ++ [name]) entry) :: withoutAmong way rest

end

variable {gone}

theorem map_fst_withoutAmong (way : List String) (entries : List (String × Entry)) :
    (withoutAmong gone way entries).map (·.1) =
      (entries.map (·.1)).filter fun name => !gone (way ++ [name]) := by
  induction entries with
  | nil => rw [withoutAmong]; rfl
  | cons head rest inductionHypothesis =>
      obtain ⟨name, entry⟩ := head
      rw [withoutAmong, List.map_cons, List.filter_cons]
      by_cases taken : gone (way ++ [name])
      · simp [taken, inductionHypothesis]
      · simp [taken, inductionHypothesis]

mutual

theorem everyBelow_withoutBelow {check : String → Entry → Bool}
    (kept : ∀ name way entry, check name entry → check name (withoutBelow gone way entry))
    (way : List String) (entry : Entry) (all : everyBelow check entry) :
    everyBelow check (withoutBelow gone way entry) := by
  cases entry with
  | file content => rfl
  | link target => rfl
  | directory entries =>
      rw [withoutBelow, everyBelow]
      rw [everyBelow] at all
      exact everyAmong_withoutAmong kept way entries all

theorem everyAmong_withoutAmong {check : String → Entry → Bool}
    (kept : ∀ name way entry, check name entry → check name (withoutBelow gone way entry))
    (way : List String) (entries : List (String × Entry)) (all : everyAmong check entries) :
    everyAmong check (withoutAmong gone way entries) := by
  cases entries with
  | nil => rfl
  | cons head rest =>
      obtain ⟨name, entry⟩ := head
      rw [everyAmong, Bool.and_eq_true, Bool.and_eq_true] at all
      obtain ⟨⟨checked, below⟩, among⟩ := all
      have further := everyAmong_withoutAmong kept way rest among
      rw [withoutAmong]
      split
      · exact further
      · rw [everyAmong, Bool.and_eq_true, Bool.and_eq_true]
        exact ⟨⟨kept name (way ++ [name]) entry checked,
          everyBelow_withoutBelow kept (way ++ [name]) entry below⟩, further⟩

end

theorem areProper_withoutAmong {way : List String} {entries : List (String × Entry)}
    (proper : areProper entries) : areProper (withoutAmong gone way entries) := by
  apply everyAmong_withoutAmong _ way entries proper
  exact fun _ _ _ named => named

theorem differ_withoutAmong {way : List String} {entries : List (String × Entry)}
    (different : differ entries) : differ (withoutAmong gone way entries) := by
  rw [differ, decide_eq_true_iff, map_fst_withoutAmong]
  exact (of_decide_eq_true different).filter _

theorem areApart_withoutAmong {way : List String} {entries : List (String × Entry)}
    (apart : areApart entries) : areApart (withoutAmong gone way entries) := by
  obtain ⟨here, below⟩ := Bool.and_eq_true_iff.mp apart
  refine Bool.and_eq_true_iff.mpr
    ⟨differ_withoutAmong here, everyAmong_withoutAmong ?_ way entries below⟩
  intro _ _ entry different
  cases entry with
  | file content => rfl
  | link target => rfl
  | directory inner =>
      rw [withoutBelow]
      exact differ_withoutAmong different

variable (gone)

/-- A tree without the entries whose ways are gone. -/
def without (tree : FileTree) : FileTree where
  entries := withoutAmong gone [] tree.entries
  wellNamed := areProper_withoutAmong tree.wellNamed
  namesApart := areApart_withoutAmong tree.namesApart

/-- Every entry that is gone leads to the end of a way of some kind, where no directory is. -/
structure GoneLeadsTo (tree : FileTree) (kind : List String → Prop) : Prop where
  goesDown : ∀ way name, gone (way ++ [name]) → Path.GoesDown name
  leads : ∀ way name, gone (way ++ [name]) →
    ∃ links last, tree.Leads way [name] links last ∧ kind last
  noDirectory : ∀ way, kind way → tree.entriesAt? way = none

end Definitions

variable {tree : FileTree} {gone : List String → Bool} {way pieces last : List String} {links : Nat}
  {kind : List String → Prop}

/-! ### The entries that are left -/

theorem withoutBelow_of_not_directory {entry : Entry} (plain : entry.entries? = none) :
    withoutBelow gone way entry = entry := by
  cases entry with
  | file content => rfl
  | directory entries => cases plain
  | link target => rfl

theorem entries?_withoutBelow (entry : Entry) :
    (withoutBelow gone way entry).entries? = entry.entries?.map (withoutAmong gone way) := by
  cases entry with
  | file content => rfl
  | directory entries => rw [withoutBelow]; rfl
  | link target => rfl

theorem withoutBelow_eq_link_iff {entry : Entry} {target : Path} :
    withoutBelow gone way entry = .link target ↔ entry = .link target := by
  cases entry with
  | file content => rfl
  | directory entries => simp [withoutBelow]
  | link target => rfl

theorem lookup_withoutAmong (name : String) (entries : List (String × Entry)) :
    (withoutAmong gone way entries).lookup name =
      if gone (way ++ [name]) then none
      else (entries.lookup name).map (withoutBelow gone (way ++ [name])) := by
  induction entries with
  | nil => simp [withoutAmong]
  | cons head rest inductionHypothesis =>
      obtain ⟨other, entry⟩ := head
      rw [withoutAmong]
      by_cases same : name = other
      · subst same
        by_cases taken : gone (way ++ [name])
        · rw [if_pos taken, inductionHypothesis, if_pos taken, if_pos taken]
        · rw [if_neg taken, if_neg taken, List.lookup_cons_self, List.lookup_cons_self,
            Option.map_some]
      · have different : (name == other) = false := beq_false_of_ne same
        by_cases taken : gone (way ++ [other])
        · rw [if_pos taken, inductionHypothesis, List.lookup_cons, different]
        · rw [if_neg taken, List.lookup_cons, different, List.lookup_cons, different,
            inductionHypothesis]

/-! ### What does not change -/

theorem Leads.of_no_directory (noDirectory : tree.entriesAt? way = none)
    (leads : tree.Leads way pieces links last) : pieces = [] ∧ last = way := by
  cases leads with
  | arrived => exact ⟨rfl, rfl⟩
  | idle directory => simp [noDirectory] at directory
  | up directory => simp [noDirectory] at directory
  | down _ looked =>
      have directory := isSome_entriesAt?_of_entryIn? looked
      simp [noDirectory] at directory
  | link _ looked =>
      have directory := isSome_entriesAt?_of_entryIn? looked
      simp [noDirectory] at directory

theorem entryIn?_without_of_entriesAt? {name : String}
    (entries :
      (tree.without gone).entriesAt? way = (tree.entriesAt? way).map (withoutAmong gone way)) :
    (tree.without gone).entryIn? way name =
      if gone (way ++ [name]) then none
      else (tree.entryIn? way name).map (withoutBelow gone (way ++ [name])) := by
  unfold entryIn?
  rw [entries]
  cases tree.entriesAt? way with
  | none => simp
  | some entries =>
      simp only [Option.map_some, Option.bind_some]
      exact lookup_withoutAmong name entries

namespace GoneLeadsTo

variable (goneLeads : GoneLeadsTo gone tree kind)

include goneLeads

/-- A path that passes an entry which is gone ends where the entry leads. -/
theorem kind_of_leads {name : String} {rest : List String} (taken : gone (way ++ [name]))
    (leads : tree.Leads way (name :: rest) links last) : kind last := by
  obtain ⟨_, reached, leadsToo, isKind⟩ := goneLeads.leads way name taken
  have split : name :: rest = [name] ++ rest := rfl
  rw [split] at leads
  obtain ⟨first, middle, second, before, after, _⟩ := leads.exists_of_append
  obtain ⟨rfl, rfl⟩ := before.unique leadsToo
  obtain ⟨_, rfl⟩ := after.of_no_directory (goneLeads.noDirectory _ isKind)
  exact isKind

theorem not_directory {name : String} (taken : gone (way ++ [name]))
    {entries : List (String × Entry)} : tree.entryIn? way name ≠ some (.directory entries) := by
  intro looked
  obtain ⟨_, last, leads, isKind⟩ := goneLeads.leads way name taken
  have listed : tree.entriesAt? (way ++ [name]) = some entries := by
    rw [entriesAt?_append, looked]
    rfl
  have goesDown := goneLeads.goesDown way name taken
  cases leads with
  | idle _ idle => simp [goesDown.1] at idle
  | up => exact absurd rfl goesDown.2
  | down _ _ _ further =>
      cases further
      simp [goneLeads.noDirectory _ isKind] at listed
  | link _ lookedToo =>
      cases looked.symm.trans lookedToo

theorem entriesAt?_without (way : List String) :
    (tree.without gone).entriesAt? way = (tree.entriesAt? way).map (withoutAmong gone way) := by
  induction way using List.reverseRecOn with
  | nil => rfl
  | append_singleton way name inductionHypothesis =>
      rw [entriesAt?_append, entriesAt?_append, entryIn?_without_of_entriesAt? inductionHypothesis]
      by_cases taken : gone (way ++ [name])
      · rw [if_pos taken, Option.bind_none]
        cases looked : tree.entryIn? way name with
        | none => rfl
        | some entry =>
            cases entry with
            | file content => rfl
            | link target => rfl
            | directory entries => exact absurd looked (goneLeads.not_directory taken)
      · rw [if_neg taken]
        cases tree.entryIn? way name with
        | none => rfl
        | some entry => exact entries?_withoutBelow entry

theorem entryIn?_without (way : List String) (name : String) :
    (tree.without gone).entryIn? way name =
      if gone (way ++ [name]) then none
      else (tree.entryIn? way name).map (withoutBelow gone (way ++ [name])) :=
  entryIn?_without_of_entriesAt? (goneLeads.entriesAt?_without way)

theorem isSome_entriesAt?_without (way : List String) :
    ((tree.without gone).entriesAt? way).isSome = (tree.entriesAt? way).isSome := by
  rw [goneLeads.entriesAt?_without, Option.isSome_map]

/-- Nothing new is reached where entries are gone. -/
theorem leads_of_without (leads : (tree.without gone).Leads way pieces links last) :
    tree.Leads way pieces links last := by
  induction leads with
  | arrived way => exact .arrived way
  | idle directory idle _ inductionHypothesis =>
      rw [goneLeads.isSome_entriesAt?_without] at directory
      exact .idle directory idle inductionHypothesis
  | up directory inside _ inductionHypothesis =>
      rw [goneLeads.isSome_entriesAt?_without] at directory
      exact .up directory inside inductionHypothesis
  | down goesDown looked notLink _ inductionHypothesis =>
      rw [goneLeads.entryIn?_without] at looked
      split at looked
      · cases looked
      · obtain ⟨entry, lookedToo, rfl⟩ := Option.map_eq_some_iff.mp looked
        refine .down goesDown lookedToo ?_ inductionHypothesis
        rintro target rfl
        exact notLink target rfl
  | link goesDown looked relative _ inductionHypothesis =>
      rw [goneLeads.entryIn?_without] at looked
      split at looked
      · cases looked
      · obtain ⟨entry, lookedToo, isLink⟩ := Option.map_eq_some_iff.mp looked
        rw [withoutBelow_eq_link_iff.mp isLink] at lookedToo
        exact .link goesDown lookedToo relative inductionHypothesis

/-- What is not of the kind that is gone is reached as before. -/
theorem leads_without (leads : tree.Leads way pieces links last) (otherKind : ¬kind last) :
    (tree.without gone).Leads way pieces links last := by
  induction leads with
  | arrived way => exact .arrived way
  | idle directory idle _ inductionHypothesis =>
      rw [← goneLeads.isSome_entriesAt?_without] at directory
      exact .idle directory idle (inductionHypothesis otherKind)
  | up directory inside _ inductionHypothesis =>
      rw [← goneLeads.isSome_entriesAt?_without] at directory
      exact .up directory inside (inductionHypothesis otherKind)
  | @down way name rest links last entry goesDown looked notLink further inductionHypothesis =>
      have left : ¬gone (way ++ [name]) := fun taken =>
        otherKind (goneLeads.kind_of_leads taken (.down goesDown looked notLink further))
      have lookedToo := goneLeads.entryIn?_without way name
      rw [if_neg left, looked, Option.map_some] at lookedToo
      refine .down goesDown lookedToo ?_ (inductionHypothesis otherKind)
      intro target isLink
      exact notLink target (withoutBelow_eq_link_iff.mp isLink)
  | @link way name rest links last target goesDown looked relative further inductionHypothesis =>
      have left : ¬gone (way ++ [name]) := fun taken =>
        otherKind (goneLeads.kind_of_leads taken (.link goesDown looked relative further))
      have lookedToo := goneLeads.entryIn?_without way name
      rw [if_neg left, looked, Option.map_some] at lookedToo
      exact .link goesDown lookedToo relative (inductionHypothesis otherKind)

/-! ### Where paths lead -/

theorem leadsTo_without_iff {path : Path} (otherKind : ¬kind way) :
    (tree.without gone).LeadsTo path links way ↔ tree.LeadsTo path links way := by
  constructor
  · exact fun leads => ⟨leads.1, goneLeads.leads_of_without leads.2⟩
  · exact fun leads => ⟨leads.1, goneLeads.leads_without leads.2 otherKind⟩

theorem way?_without_eq_some_iff {path : Path} (ending : path.EndsInName) (otherKind : ¬kind way) :
    (tree.without gone).way? path = some way ↔ tree.way? path = some way := by
  rw [way?_eq_some_iff ending, way?_eq_some_iff ending]
  simp only [goneLeads.leadsTo_without_iff otherKind]

theorem not_kind_of_directory (directory : (tree.entriesAt? way).isSome) : ¬kind way := by
  intro isKind
  simp [goneLeads.noDirectory way isKind] at directory

theorem way?_without_of_directory (path : Path) (directory : (tree.entriesAt? way).isSome) :
    (tree.without gone).way? path = some way ↔ tree.way? path = some way := by
  by_cases written : path.text = ""
  · simp [way?, written]
  · have directoryToo : ((tree.without gone).entriesAt? way).isSome := by
      rwa [goneLeads.isSome_entriesAt?_without]
    rw [way?_eq_some_iff_of_directory written directory,
      way?_eq_some_iff_of_directory written directoryToo]
    simp only [goneLeads.leadsTo_without_iff (goneLeads.not_kind_of_directory directory)]

theorem isDirectory_without (path : Path) :
    (tree.without gone).isDirectory path = tree.isDirectory path := by
  rw [Bool.eq_iff_iff, isDirectory_iff, isDirectory_iff]
  constructor
  · rintro ⟨way, leads, directory⟩
    rw [goneLeads.isSome_entriesAt?_without] at directory
    exact ⟨way, (goneLeads.way?_without_of_directory path directory).mp leads, directory⟩
  · rintro ⟨way, leads, directory⟩
    refine ⟨way, (goneLeads.way?_without_of_directory path directory).mpr leads, ?_⟩
    rwa [goneLeads.isSome_entriesAt?_without]

/-- A directory lists what it listed before, except for what is gone. -/
theorem list?_without {path : Path} {entries : List (String × Entry)}
    (leads : tree.way? path = some way) (listed : tree.entriesAt? way = some entries) :
    (tree.without gone).list? path =
      some ((entries.map (·.1)).filter fun name => !gone (way ++ [name])) := by
  have directory : (tree.entriesAt? way).isSome := by simp [listed]
  rw [list?_eq_bind_way?, (goneLeads.way?_without_of_directory path directory).mpr leads,
    Option.bind_some, goneLeads.entriesAt?_without, listed, Option.map_some, Option.map_some,
    map_fst_withoutAmong]

theorem list?_without_of_none {path : Path} (unlisted : tree.list? path = none) :
    (tree.without gone).list? path = none := by
  have noDirectory : tree.isDirectory path = false := by
    rw [Bool.eq_false_iff, Ne, isDirectory_iff]
    rintro ⟨way, leads, directory⟩
    rw [list?_eq_bind_way?, leads, Option.bind_some, Option.map_eq_none_iff] at unlisted
    simp [unlisted] at directory
  rw [← goneLeads.isDirectory_without, Bool.eq_false_iff, Ne, isDirectory_iff] at noDirectory
  rw [list?_eq_bind_way?, Option.bind_eq_none_iff]
  intro way leads
  rw [Option.map_eq_none_iff, ← Option.not_isSome_iff_eq_none]
  exact fun directory => noDirectory ⟨way, leads, directory⟩

/-- A path to something that is no directory leads to the same thing as before, unless it leads to
something of the kind that is gone. -/
theorem entry_without {path : Path} (ending : path.EndsInName) (plain : tree.isDirectory path = false)
    (otherKind : ∀ way, tree.way? path = some way → ¬kind way) :
    ((tree.without gone).find? path).map Location.entry =
      (tree.find? path).map Location.entry := by
  rw [map_entry_find?, map_entry_find?]
  cases leads : tree.way? path with
  | none =>
      have nowhere : (tree.without gone).way? path = none := by
        rw [Option.eq_none_iff_forall_ne_some]
        intro way leadsToo
        rw [way?_eq_some_iff ending] at leadsToo
        obtain ⟨links, enough, relative, further⟩ := leadsToo
        have before : tree.way? path = some way := (way?_eq_some_iff ending).mpr
          ⟨links, enough, relative, goneLeads.leads_of_without further⟩
        cases leads.symm.trans before
      rw [nowhere]
      rfl
  | some way =>
      rw [(goneLeads.way?_without_eq_some_iff ending (otherKind way leads)).mpr leads,
        Option.bind_some, Option.bind_some]
      rw [Bool.eq_false_iff, Ne, isDirectory_iff] at plain
      have noEntries : tree.entriesAt? way = none := by
        rw [← Option.not_isSome_iff_eq_none]
        exact fun directory => plain ⟨way, leads, directory⟩
      rcases List.eq_nil_or_concat way with rfl | ⟨outer, name, rfl⟩
      · cases noEntries
      · rw [List.concat_eq_append] at leads noEntries ⊢
        rw [entryAt?_append, entryAt?_append, goneLeads.entryIn?_without]
        rw [entriesAt?_append] at noEntries
        cases looked : tree.entryIn? outer name with
        | none => simp
        | some entry =>
            rw [looked, Option.bind_some] at noEntries
            obtain ⟨_, _, leadsTo⟩ := (way?_eq_some_iff ending).mp leads
            have notLink : ∀ target, entry ≠ .link target := by
              rintro target rfl
              refine leadsTo.2.not_link ?_ target ((entryAt?_append outer name).trans looked)
              rintro target ⟨⟩
            have kept : ¬gone (outer ++ [name]) := by
              intro taken
              have arrives : tree.Leads outer [name] 0 (outer ++ [name]) :=
                .down (goneLeads.goesDown _ _ taken) looked notLink (.arrived _)
              exact otherKind _ leads (goneLeads.kind_of_leads taken arrives)
            rw [if_neg kept, Option.map_some, withoutBelow_of_not_directory noEntries]

end GoneLeadsTo

/-! ### The entry that a path names -/

/-- The way to the entry that a path names in its directory; a link is not followed. -/
def entryWay? (tree : FileTree) (path : Path) : Option (List String) :=
  if path.start = some .root then none
  else path.names.getLast?.bind fun name =>
    (tree.wayWithin linkLimit [] path.names.dropLast).map fun way => way ++ [name]

theorem entryWay?_congr {left right : Path} (same : left.components = right.components) :
    tree.entryWay? left = tree.entryWay? right := by
  obtain ⟨starts, names⟩ := Path.components_eq_iff.mp same
  rw [entryWay?, entryWay?, starts, names]

theorem entryWay?_join {name : String} (proper : Path.properName name) {directory : Path}
    (leads : tree.LeadsTo directory links way) (enough : links ≤ linkLimit) :
    tree.entryWay? (directory.join ⟨name⟩) = some (way ++ [name]) := by
  have walked : tree.wayWithin linkLimit [] directory.names = some way :=
    wayWithin_eq_some_iff.mpr ⟨links, enough, leads.2⟩
  rw [entryWay?, Path.start_join_eq proper, if_neg leads.1, Path.names_join proper,
    List.getLast?_concat, List.dropLast_concat, Option.bind_some, walked, Option.map_some]

/-- Whether the entry that a path names is gone. -/
def isGone (tree : FileTree) (gone : List String → Bool) (path : Path) : Bool :=
  (tree.entryWay? path).any gone

end FileTree

end SolutionSurvey

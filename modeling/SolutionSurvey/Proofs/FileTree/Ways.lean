import SolutionSurvey.FileTree

/-!
# Where a path leads

Whatever lies in a tree lies at the end of a way: the names of the directories around it, from the
root on, and its own name.  A path leads along such a way once idle stretches are passed over, `..`
is undone and links are followed.  Two paths lead to the same thing just if they lead the same way.
-/

namespace SolutionSurvey

namespace Location

/-- Go into an entry of a directory; a link is not followed. -/
def enter? (location : Location) (name : String) : Option Location :=
  location.entries?.bind fun entries =>
    (entries.lookup name).map fun entry => ⟨entry, entries :: location.around⟩

theorem entry_of_entries? {location : Location} {entries : List (String × Entry)}
    (listed : location.entries? = some entries) : location.entry = .directory entries := by
  unfold entries? at listed
  split at listed
  case h_1 held => rw [held, Option.some.inj listed]
  case h_2 => cases listed

end Location

namespace FileTree

section Ways

variable (tree : FileTree)

/-- What lies at the end of a way. -/
def locationAt? (way : List String) : Option Location :=
  way.foldlM Location.enter? tree.root

/-- The directory at the end of a way. -/
def entriesAt? (way : List String) : Option (List (String × Entry)) :=
  (tree.locationAt? way).bind Location.entries?

/-- The way along the stretches of a path, from the end of another way; `follow` goes on at a
link. -/
def wayWith (follow : List String → List String → Option (List String)) (way : List String) :
    List String → Option (List String)
  | [] => some way
  | piece :: rest =>
      match tree.entriesAt? way with
      | none => none
      | some entries =>
          if Path.isIdle piece then wayWith follow way rest
          else if piece == ".." then
            if way.isEmpty then none else wayWith follow way.dropLast rest
          else
            match entries.lookup piece with
            | none => none
            | some (.link target) =>
                if target.isAbsolute then none else follow way (target.pieces ++ rest)
            | some _ => wayWith follow (way ++ [piece]) rest

def wayWithin : Nat → List String → List String → Option (List String)
  | 0 => tree.wayWith fun _ _ => none
  | links + 1 => tree.wayWith (wayWithin links)

/-- The way that a path leads. -/
def way? (path : Path) : Option (List String) :=
  if path.text == "" || path.isAbsolute then none else tree.wayWithin linkLimit [] path.pieces

/-- Whether two paths lead to the same thing. -/
def SameFile (left right : Path) : Prop :=
  ∃ way, tree.way? left = some way ∧ tree.way? right = some way

variable {tree}

theorem SameFile.symm {left right : Path} (same : tree.SameFile left right) :
    tree.SameFile right left := by
  obtain ⟨way, leftWay, rightWay⟩ := same
  exact ⟨way, rightWay, leftWay⟩

/-! ### Walking along a path goes its way -/

theorem locationAt?_append {way : List String} {name : String} :
    tree.locationAt? (way ++ [name]) = (tree.locationAt? way).bind fun location =>
      location.enter? name := by
  simp [locationAt?, List.foldlM_append]

theorem entriesAt?_of_locationAt? {way : List String} {location : Location}
    (found : tree.locationAt? way = some location) : tree.entriesAt? way = location.entries? := by
  rw [entriesAt?, found, Option.bind_some]

theorem locationAt?_append_of_lookup {way : List String} {name : String}
    {entries : List (String × Entry)} {around : List (List (String × Entry))} {entry : Entry}
    (found : tree.locationAt? way = some ⟨.directory entries, around⟩)
    (listed : entries.lookup name = some entry) :
    tree.locationAt? (way ++ [name]) = some ⟨entry, entries :: around⟩ := by
  rw [locationAt?_append, found, Option.bind_some, Location.enter?]
  simp [Location.entries?, listed]

/-- Around what lies at the end of a way are the directories on the way. -/
theorem locationAt?_dropLast {way : List String} {location : Location}
    (found : tree.locationAt? way = some location) :
    match location.around with
    | [] => way = []
    | outer :: around => way ≠ [] ∧
        tree.locationAt? way.dropLast = some ⟨.directory outer, around⟩ := by
  rcases List.eq_nil_or_concat way with rfl | ⟨way, name, rfl⟩
  · obtain rfl : tree.root = location := by simpa [locationAt?] using found
    rfl
  · rw [List.concat_eq_append] at found ⊢
    rw [locationAt?_append] at found
    obtain ⟨outer, outerFound, entered⟩ := Option.bind_eq_some_iff.mp found
    obtain ⟨entries, listed, named⟩ := Option.bind_eq_some_iff.mp entered
    obtain ⟨entry, _, rfl⟩ := Option.map_eq_some_iff.mp named
    refine ⟨by simp, ?_⟩
    rw [List.dropLast_concat, outerFound, ← Location.entry_of_entries? listed]

/-- A walk reaches what lies at the end of its way, if it does so beyond links. -/
theorem walkWith_eq_wayWith {followLocation : Location → List String → Option Location}
    {followWay : List String → List String → Option (List String)}
    (follows : ∀ way location pieces, tree.locationAt? way = some location →
      followLocation location pieces = (followWay way pieces).bind tree.locationAt?)
    {pieces way : List String} {location : Location}
    (found : tree.locationAt? way = some location) :
    location.walkWith followLocation pieces =
      (tree.wayWith followWay way pieces).bind tree.locationAt? := by
  -- The way always leads to the location reached so far, so both sides see the same directory.
  induction pieces generalizing way location with
  | nil => simp [Location.walkWith, wayWith, found]
  | cons piece rest inductionHypothesis =>
      obtain ⟨entry, around⟩ := location
      unfold Location.walkWith wayWith
      rw [entriesAt?_of_locationAt? found]
      cases entry with
      | file content => rfl
      | link target => rfl
      | directory entries =>
          simp only [Location.entries?]
          by_cases idle : Path.isIdle piece
          · rw [if_pos idle, if_pos idle]
            exact inductionHypothesis found
          · rw [if_neg idle, if_neg idle]
            by_cases up : piece == ".."
            · rw [if_pos up, if_pos up]
              have outer := locationAt?_dropLast found
              cases around with
              | nil =>
                  obtain rfl : way = [] := outer
                  rfl
              | cons directory around =>
                  rw [if_neg (by simpa using outer.1)]
                  exact inductionHypothesis outer.2
            · rw [if_neg up, if_neg up]
              cases listed : entries.lookup piece with
              | none => rfl
              | some inner =>
                  have entered := inductionHypothesis (locationAt?_append_of_lookup found listed)
                  cases inner with
                  | file content => exact entered
                  | directory inner => exact entered
                  | link target =>
                      simp only
                      split
                      · rfl
                      · exact follows way _ _ found

theorem walk_eq_wayWithin {links : Nat} {pieces way : List String} {location : Location}
    (found : tree.locationAt? way = some location) :
    location.walk links pieces = (tree.wayWithin links way pieces).bind tree.locationAt? := by
  induction links generalizing way location pieces with
  | zero =>
      rw [Location.walk, wayWithin]
      refine walkWith_eq_wayWith ?_ found
      exact fun _ _ _ _ => rfl
  | succ links inductionHypothesis =>
      rw [Location.walk, wayWithin]
      refine walkWith_eq_wayWith ?_ found
      exact fun _ _ _ reached => inductionHypothesis reached

/-- What a path leads to lies at the end of its way. -/
theorem find?_eq_bind_way? (path : Path) :
    tree.find? path = (tree.way? path).bind tree.locationAt? := by
  unfold find? way?
  split
  · rfl
  · exact walk_eq_wayWithin rfl

end Ways

end FileTree

end SolutionSurvey

import Mathlib.Data.List.Basic
import SolutionSurvey.Dependency.Resolution
import SolutionSurvey.Proofs.Text.LeavingOut

/-!
# The names in an expression

An expression is cut at every separator, so the names on both sides of a separator are read as if
they stood alone.  A stretch that is neither cut nor marked nor trimmed is one name as a whole.
-/

namespace SolutionSurvey.Resolution

/-! ### Names in an expression -/

theorem mem_namesIn {expression name : String} :
    name ∈ namesIn expression ↔
      ∃ stretch ∈ Text.pieces separates
          (Text.withoutList Directive.globalMark.toList 0 expression.toList),
        startsName (Text.trimList (· == '.') stretch) ∧
          String.ofList ((Text.trimList (· == '.') stretch).dropWhile (· == '@')) = name := by
  simp [namesIn, Text.without, and_assoc]

/-- No separator is left in a name. -/
theorem not_separates_of_mem_namesIn {expression name : String}
    (membership : name ∈ namesIn expression) : ∀ c ∈ name.toList, separates c = false := by
  obtain ⟨stretch, inExpression, _, rfl⟩ := mem_namesIn.mp membership
  intro c inName
  rw [String.toList_ofList] at inName
  have inStretch := (Text.trimList_sublist _ _).subset ((List.dropWhile_sublist _).subset inName)
  exact Text.not_separates_of_mem_pieces inExpression c inStretch

/-- Reading a name out of an expression brings in no characters. -/
theorem sublist_of_mem_namesIn {expression name : String} (membership : name ∈ namesIn expression) :
    name.toList.Sublist expression.toList := by
  obtain ⟨stretch, inExpression, _, rfl⟩ := mem_namesIn.mp membership
  rw [String.toList_ofList]
  calc (Text.trimList (· == '.') stretch).dropWhile (· == '@')
    _ |>.Sublist (Text.trimList (· == '.') stretch) := List.dropWhile_sublist _
    _ |>.Sublist stretch := Text.trimList_sublist _ _
    _ |>.Sublist (Text.withoutList Directive.globalMark.toList 0 expression.toList) :=
        Text.sublist_of_mem_pieces inExpression
    _ |>.Sublist expression.toList := Text.withoutList_sublist _ _ _

/-- An expression that is one of its names has no other. -/
theorem namesIn_eq_of_mem {name : String} (membership : name ∈ namesIn name) :
    namesIn name = [name] := by
  have bare : (namesIn name).length ≤ 1 := by
    obtain ⟨stretch, inExpression, _, written⟩ := mem_namesIn.mp membership
    have shown := congrArg String.toList written
    rw [String.toList_ofList] at shown
    have within : name.toList.Sublist stretch :=
      shown ▸ (List.dropWhile_sublist _).trans (Text.trimList_sublist _ _)
    -- Nothing is left out around the name, so no separator is left to cut at.
    have unmarked := Text.withoutList_sublist Directive.globalMark.toList 0 name.toList
    have whole : stretch = Text.withoutList Directive.globalMark.toList 0 name.toList :=
      (Text.sublist_of_mem_pieces inExpression).antisymm (unmarked.trans within)
    have uncut := Text.pieces_of_none (Text.not_separates_of_mem_pieces inExpression)
    rw [namesIn, Text.without, String.toList_ofList, ← whole, uncut, List.length_map]
    exact List.length_filter_le _ _
  obtain ⟨only, isOnly⟩ := List.length_eq_one_iff.mp
    (Nat.le_antisymm bare (List.length_pos_of_mem membership))
  rw [isOnly, List.mem_singleton] at membership
  rw [isOnly, membership]

/-! ### Separators -/

theorem separates_of_isBlank {c : Char} (blank : Text.isBlank c) : separates c := by
  rw [separates, blank, Bool.or_true]

theorem not_mem_globalMark {c : Char} (cuts : separates c) : c ∉ Directive.globalMark.toList := by
  have uncut : Directive.globalMark.toList.all (!separates ·) = true := by decide
  intro membership
  have whole := List.all_eq_true.mp uncut c membership
  rw [cuts] at whole
  cases whole

theorem namesIn_append_cons {c : Char} (cuts : separates c) (front back : List Char) :
    namesIn (String.ofList (front ++ c :: back)) =
      namesIn (String.ofList front) ++ namesIn (String.ofList back) := by
  have foreign := not_mem_globalMark cuts
  simp only [namesIn, Text.without, String.toList_ofList,
    Text.withoutList_append_cons (by decide) foreign, Text.pieces_append_cons cuts,
    List.map_append, List.filter_append]

variable {front gap back : List Char}

theorem namesIn_gap_append (cut : ∀ c ∈ gap, separates c) (back : List Char) :
    namesIn (String.ofList (gap ++ back)) = namesIn (String.ofList back) := by
  induction gap with
  | nil => rfl
  | cons c gap inductionHypothesis =>
      obtain ⟨cuts, cut⟩ := List.forall_mem_cons.mp cut
      have nothing : namesIn (String.ofList []) = [] := by decide
      have apart := namesIn_append_cons cuts [] (gap ++ back)
      rw [nothing, List.nil_append, List.nil_append, inductionHypothesis cut] at apart
      exact apart

/-- Between two stretches that are apart nothing is read. -/
theorem namesIn_append (cut : ∀ c ∈ gap, separates c) (apart : ∀ c ∈ back.head?, separates c)
    (front : List Char) :
    namesIn (String.ofList (front ++ (gap ++ back))) =
      namesIn (String.ofList front) ++ namesIn (String.ofList back) := by
  have nothing : namesIn (String.ofList []) = [] := by decide
  cases gap with
  | nil =>
      cases back with
      | nil => rw [nothing, List.append_nil, List.append_nil, List.append_nil]
      | cons c back =>
          have cuts := apart c rfl
          have cut : ∀ other ∈ [c], separates other := List.forall_mem_singleton.mpr cuts
          have skipped : namesIn (String.ofList (c :: back)) = namesIn (String.ofList back) :=
            namesIn_gap_append cut back
          rw [List.nil_append, namesIn_append_cons cuts, skipped]
  | cons c gap =>
      obtain ⟨cuts, cut⟩ := List.forall_mem_cons.mp cut
      rw [List.cons_append, namesIn_append_cons cuts, namesIn_gap_append cut]

theorem namesIn_append_gap (cut : ∀ c ∈ gap, separates c) (front : List Char) :
    namesIn (String.ofList (front ++ gap)) = namesIn (String.ofList front) := by
  have nothing : namesIn (String.ofList []) = [] := by decide
  have apart : ∀ c ∈ ([] : List Char).head?, separates c := by simp
  have read := namesIn_append cut apart front
  rwa [List.append_nil, nothing, List.append_nil] at read

/-- A separator at the end of a stretch keeps it apart from what follows. -/
theorem namesIn_append_of_last (apart : ∀ c ∈ front.getLast?, separates c) (back : List Char) :
    namesIn (String.ofList (front ++ back)) =
      namesIn (String.ofList front) ++ namesIn (String.ofList back) := by
  rcases List.eq_nil_or_concat front with rfl | ⟨front, c, rfl⟩
  · have nothing : namesIn (String.ofList []) = [] := by decide
    rw [nothing, List.nil_append, List.nil_append]
  · rw [List.concat_eq_append] at apart ⊢
    have cuts := apart c List.getLast?_concat
    have cut : ∀ other ∈ [c], separates other := List.forall_mem_singleton.mpr cuts
    rw [List.append_assoc, List.singleton_append, namesIn_append_cons cuts, namesIn_append_gap cut]

/-- White space around an expression makes no difference. -/
theorem namesIn_trim (expression : String) :
    namesIn (Text.trim expression) = namesIn expression := by
  obtain ⟨before, after, blankBefore, blankAfter, split⟩ :=
    Text.exists_around_trimList Text.isBlank expression.toList
  have cutBefore : ∀ c ∈ before, separates c := fun c membership =>
    separates_of_isBlank (blankBefore c membership)
  have cutAfter : ∀ c ∈ after, separates c := fun c membership =>
    separates_of_isBlank (blankAfter c membership)
  have read := namesIn_append_gap cutAfter (Text.trimList Text.isBlank expression.toList)
  rw [Text.trim, ← read, ← namesIn_gap_append cutBefore, ← split, String.ofList_toList]

/-! ### Whole names -/

/-- A stretch that is read as one name, if it begins as one. -/
structure IsName (text : List Char) : Prop where
  written : text ≠ []
  uncut : ∀ c ∈ text, separates c = false
  unmarked : ':' ∉ text
  first : ∀ c ∈ text.head?, c ≠ '.'
  last : ∀ c ∈ text.getLast?, c ≠ '.'

/-- A name without at signs before it; there is none where it does not begin as one. -/
def readName (text : List Char) : List String :=
  if startsName text then [String.ofList (text.dropWhile (· == '@'))] else []

/-- A stretch without a separator is read as one name, but for the dots around it. -/
theorem namesIn_of_uncut {text : List Char} (uncut : ∀ c ∈ text, separates c = false)
    (unmarked : ':' ∉ text) :
    namesIn (String.ofList text) = readName (Text.trimList (· == '.') text) := by
  have unmarked : Text.withoutList Directive.globalMark.toList 0 text = text :=
    Text.withoutList_of_not_mem (by decide : ':' ∈ Directive.globalMark.toList) unmarked
  rw [namesIn, Text.without, String.toList_ofList, String.toList_ofList, unmarked,
    Text.pieces_of_none uncut, List.map_singleton, readName]
  split
  case isTrue starts => rw [List.filter_cons_of_pos starts]; rfl
  case isFalse starts => rw [List.filter_cons_of_neg starts]; rfl

section IsName

variable {text : List Char} (whole : IsName text)
include whole

/-- Dots around a name do not count. -/
theorem namesIn_of_dots_around {before after : List Char} (dotsBefore : ∀ c ∈ before, c = '.')
    (dotsAfter : ∀ c ∈ after, c = '.') :
    namesIn (String.ofList (before ++ text ++ after)) = readName text := by
  have uncutDots : ∀ dots : List Char, (∀ c ∈ dots, c = '.') → ∀ c ∈ dots, separates c = false :=
    fun dots allDots c membership => by rw [allDots c membership]; decide
  have uncut : ∀ c ∈ before ++ text ++ after, separates c = false :=
    List.forall_mem_append.mpr ⟨List.forall_mem_append.mpr
      ⟨uncutDots before dotsBefore, whole.uncut⟩, uncutDots after dotsAfter⟩
  have unmarked : ':' ∉ before ++ text ++ after := by
    simp only [List.mem_append, not_or]
    exact ⟨⟨fun inBefore => absurd (dotsBefore _ inBefore) (by decide), whole.unmarked⟩,
      fun inAfter => absurd (dotsAfter _ inAfter) (by decide)⟩
  have trimmed : Text.trimList (· == '.') (before ++ text ++ after) = text :=
    Text.trimList_around (fun c isFirst => beq_eq_false_iff_ne.mpr (whole.first c isFirst))
      (fun c isLast => beq_eq_false_iff_ne.mpr (whole.last c isLast))
      (fun c inBefore => beq_iff_eq.mpr (dotsBefore c inBefore))
      (fun c inAfter => beq_iff_eq.mpr (dotsAfter c inAfter)) whole.written
  rw [namesIn_of_uncut uncut unmarked, trimmed]

theorem namesIn_of_isName : namesIn (String.ofList text) = readName text := by
  have alone := namesIn_of_dots_around whole (List.forall_mem_nil _) (List.forall_mem_nil _)
  rwa [List.nil_append, List.append_nil] at alone

theorem namesIn_of_dotted : namesIn (String.ofList (text ++ ['.'])) = readName text := by
  have dot : ∀ c ∈ ['.'], c = '.' := List.forall_mem_singleton.mpr rfl
  have around := namesIn_of_dots_around whole (List.forall_mem_nil _) dot
  rwa [List.nil_append] at around

theorem namesIn_of_dot_cons : namesIn (String.ofList ('.' :: text)) = readName text := by
  have dot : ∀ c ∈ ['.'], c = '.' := List.forall_mem_singleton.mpr rfl
  have around := namesIn_of_dots_around whole dot (List.forall_mem_nil _)
  rwa [List.append_nil, List.singleton_append] at around

end IsName

/-- A dot before an expression does not count. -/
theorem namesIn_dot_append (text : List Char) :
    namesIn (String.ofList ('.' :: text)) = namesIn (String.ofList text) := by
  have unmarked : Text.withoutList Directive.globalMark.toList 0 ('.' :: text) =
      '.' :: Text.withoutList Directive.globalMark.toList 0 text := rfl
  have pieces : ∀ rest : List Char, (Text.pieces separates ('.' :: rest)).map
      (Text.trimList (· == '.')) = (Text.pieces separates rest).map (Text.trimList (· == '.')) := by
    intro rest
    have some : Text.pieces separates rest ≠ [] := Text.pieces_ne_nil rest
    obtain ⟨first, others, cut⟩ := List.exists_cons_of_ne_nil some
    have plain : separates '.' = false := by decide
    rw [Text.pieces, plain, if_neg Bool.false_ne_true, cut]
    rfl
  simp only [namesIn, Text.without, String.toList_ofList, unmarked, pieces]

theorem namesIn_globalMark_append (text : List Char) :
    namesIn (String.ofList (Directive.globalMark.toList ++ text)) =
      namesIn (String.ofList text) := by
  have unmarked : Text.withoutList Directive.globalMark.toList 0
      (Directive.globalMark.toList ++ text) =
        Text.withoutList Directive.globalMark.toList 0 text := rfl
  simp only [namesIn, Text.without, String.toList_ofList, unmarked]

/-- Two names with a dot between them are one name. -/
theorem IsName.append_dot {outer inner : List Char} (first : IsName outer) (second : IsName inner) :
    IsName (outer ++ '.' :: inner) where
  written := by simp
  uncut := by
    simp only [List.forall_mem_append, List.forall_mem_cons]
    exact ⟨first.uncut, by decide, second.uncut⟩
  unmarked := by simp [first.unmarked, second.unmarked]
  first := by
    obtain ⟨c, outer, rfl⟩ := List.exists_cons_of_ne_nil first.written
    exact first.first
  last := by
    rw [List.append_cons, List.getLast?_append_of_ne_nil _ second.written]
    exact second.last

end SolutionSurvey.Resolution

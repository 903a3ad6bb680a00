import Mathlib.Algebra.Order.BigOperators.Group.List
import Mathlib.Algebra.Order.Ring.Nat
import SolutionSurvey.Proofs.Dependency.SpacedNames

/-!
# White space in dotted names

Where a dotted name is written with white space at a dot, an expression is read as if there were
several names.  So in some scope the white space makes a difference whenever a name is cut at all,
unless none of its stretches is read; in a given scope it makes none as long as the stretches of every
name lead where the whole name leads.
-/

namespace SolutionSurvey

open Resolution (namesIn readName resolve? resolveAll separates startsName)

/-- A dotted name in an expression, and the text up to the next one. -/
structure WrittenName where
  name : SpacedName
  next : List Char

/-- Names stand between separators. -/
def Apart : List Char → List WrittenName → Prop
  | _, [] => True
  | before, occurrence :: rest =>
      (∀ c ∈ before.getLast?, separates c) ∧ (∀ c ∈ occurrence.next.head?, separates c) ∧
        (occurrence.next = [] → rest = []) ∧ Apart occurrence.next rest

/-- An expression in which some dotted names are written with white space.  Other names may stand in
the text around them. -/
structure SpacedExpression where
  start : List Char
  occurrences : List WrittenName
  apart : Apart start occurrences

/-- An expression for a way to write its names. -/
def charsFrom (write : SpacedName → List Char) (start : List Char) : List WrittenName → List Char
  | [] => start
  | occurrence :: rest =>
      start ++ (write occurrence.name ++ charsFrom write occurrence.next rest)

namespace SpacedExpression

def text (expression : SpacedExpression) : String :=
  String.ofList (charsFrom SpacedName.chars expression.start expression.occurrences)

/-- The expression without the white space in its names. -/
def tight (expression : SpacedExpression) : String :=
  String.ofList (charsFrom SpacedName.tight expression.start expression.occurrences)

end SpacedExpression

namespace SpacedName

/-- There is no white space in the name, or none of its stretches begins as a name. -/
def Unbroken (name : SpacedName) : Prop :=
  (∀ joint ∈ name.joints, joint.isOpen = false) ∨
    ∀ stretch ∈ name.stretches, startsName stretch = false

/-- The stretches of a name lead, in their order, where the whole name leads. -/
def LeadsAlike (catalog : Catalog) (imports : Imports) (own : Option String) (name : SpacedName) :
    Prop :=
  (name.stretches.map String.ofList).flatMap (resolveAll catalog imports own) =
    resolveAll catalog imports own (String.ofList name.full)

instance (name : SpacedName) : Decidable name.Unbroken :=
  inferInstanceAs (Decidable (_ ∨ _))

instance (catalog : Catalog) (imports : Imports) (own : Option String) (name : SpacedName) :
    Decidable (name.LeadsAlike catalog imports own) :=
  inferInstanceAs (Decidable (_ = _))

end SpacedName

/-- In a scope an expression leads to the same types with and without the white space. -/
def ResolvesAlike (catalog : Catalog) (imports : Imports) (own : Option String)
    (expression : SpacedExpression) : Prop :=
  resolveAll catalog imports own expression.text =
    resolveAll catalog imports own expression.tight

instance (catalog : Catalog) (imports : Imports) (own : Option String)
    (expression : SpacedExpression) : Decidable (ResolvesAlike catalog imports own expression) :=
  inferInstanceAs (Decidable (_ = _))

/-! ### One name -/

theorem dropWhile_append_dot_ne (text rest : List Char) :
    (text ++ '.' :: rest).dropWhile (· == '@') ≠ text.dropWhile (· == '@') := by
  induction text with
  | nil => exact List.cons_ne_nil '.' rest
  | cons c text inductionHypothesis =>
      rw [List.cons_append, List.dropWhile_cons, List.dropWhile_cons]
      by_cases atSign : (c == '@') = true
      · rwa [if_pos atSign, if_pos atSign]
      · rw [if_neg atSign, if_neg atSign, ← List.cons_append]
        exact fun same => List.cons_ne_nil '.' rest (List.append_right_eq_self.mp same)

namespace SpacedName

variable (name : SpacedName)

/-- A name begins as its first stretch does, and is another text if it is cut. -/
theorem exists_first : ∃ first others, name.stretches = first :: others ∧
    startsName name.full = startsName first ∧
      ((∀ joint ∈ name.joints, joint.isOpen = false) ∧ others = [] ∧ name.full = first ∨
        (¬ ∀ joint ∈ name.joints, joint.isOpen = false) ∧
          name.full.dropWhile (· == '@') ≠ first.dropWhile (· == '@')) := by
  obtain ⟨first, others, cut, whole⟩ := exists_first_stretch name.first.toList name.joints
  have cut : name.stretches = first :: others := cut
  have isFirst : first ∈ name.stretches := cut ▸ List.mem_cons_self
  obtain ⟨c, more, written⟩ :=
    List.exists_cons_of_ne_nil (name.isName_of_mem_stretches first isFirst).written
  refine ⟨first, others, cut, ?_⟩
  rcases whole with ⟨closed, none, same⟩ | ⟨isOpen, rest, same⟩
  · have same : name.full = first := same
    exact ⟨by rw [same], .inl ⟨closed, none, same⟩⟩
  · have same : name.full = first ++ '.' :: rest := same
    refine ⟨?_, .inr ⟨isOpen, ?_⟩⟩
    · rw [same, written, List.cons_append, startsName, startsName]
    · rw [same]
      exact dropWhile_append_dot_ne first rest

theorem length_readName_le :
    (readName name.full).length ≤ (name.stretches.flatMap readName).length := by
  obtain ⟨first, others, cut, begins, _⟩ := name.exists_first
  rw [cut, List.flatMap_cons, List.length_append, readName, readName, begins]
  split
  · exact Nat.le_add_right _ _
  · exact Nat.zero_le _

/-- The stretches of a name are read as the whole name just if nothing in it is cut that is read. -/
theorem flatMap_readName_eq_iff :
    readName name.full = name.stretches.flatMap readName ↔ name.Unbroken := by
  obtain ⟨first, others, cut, begins, whole⟩ := name.exists_first
  rcases whole with ⟨closed, none, same⟩ | ⟨isOpen, different⟩
  · refine iff_of_true ?_ (.inl closed)
    rw [cut, none, same, List.flatMap_singleton]
  · rw [Unbroken, or_iff_right isOpen, cut, List.flatMap_cons, List.forall_mem_cons, readName,
      begins, readName]
    by_cases starts : startsName first = true
    · refine iff_of_false (fun same => ?_) (fun none => ?_)
      · rw [if_pos starts, if_pos starts, List.singleton_append] at same
        exact different (String.ofList_injective (List.cons.inj same).1)
      · rw [none.1] at starts
        cases starts
    · rw [if_neg starts, if_neg starts, List.nil_append,
        and_iff_right (Bool.eq_false_iff.mpr starts), eq_comm, List.flatMap_eq_nil_iff]
      refine forall₂_congr fun stretch _ => ?_
      rw [readName, Bool.eq_false_iff]
      split <;> simp_all

end SpacedName

/-! ### Expressions -/

/-- What is read from a name as it is written, and from the text behind it. -/
def WrittenName.names (occurrence : WrittenName) : List String :=
  occurrence.name.stretches.flatMap readName ++ namesIn (String.ofList occurrence.next)

def WrittenName.tightNames (occurrence : WrittenName) : List String :=
  readName occurrence.name.full ++ namesIn (String.ofList occurrence.next)

section Written

variable {write : SpacedName → List Char}

theorem separates_head?_charsFrom {occurrence : WrittenName} {rest : List WrittenName}
    (apart : ∀ c ∈ occurrence.next.head?, separates c) (some : occurrence.next = [] → rest = []) :
    ∀ c ∈ (charsFrom write occurrence.next rest).head?, separates c := by
  cases rest with
  | nil => exact apart
  | cons other rest =>
      obtain ⟨c, next, written⟩ :=
        List.exists_cons_of_ne_nil fun none => List.cons_ne_nil other rest (some none)
      rw [charsFrom, written]
      rwa [written] at apart

theorem namesIn_charsFrom {read : SpacedName → List String}
    (reads : ∀ name back, (∀ c ∈ back.head?, separates c) →
      namesIn (String.ofList (write name ++ back)) = read name ++ namesIn (String.ofList back))
    {start : List Char} {occurrences : List WrittenName} (apart : Apart start occurrences) :
    namesIn (String.ofList (charsFrom write start occurrences)) =
      namesIn (String.ofList start) ++ occurrences.flatMap fun occurrence =>
        read occurrence.name ++ namesIn (String.ofList occurrence.next) := by
  induction occurrences generalizing start with
  | nil => rw [charsFrom, List.flatMap_nil, List.append_nil]
  | cons occurrence rest inductionHypothesis =>
      obtain ⟨apartBefore, apartBehind, some, apart⟩ := apart
      rw [charsFrom, Resolution.namesIn_append_of_last apartBefore,
        reads _ _ (separates_head?_charsFrom apartBehind some), inductionHypothesis apart,
        List.flatMap_cons, List.append_assoc (read occurrence.name)]

end Written

namespace SpacedExpression

variable (expression : SpacedExpression)

theorem namesIn_text : namesIn expression.text =
    namesIn (String.ofList expression.start) ++ expression.occurrences.flatMap WrittenName.names :=
  namesIn_charsFrom (fun name _ => name.namesIn_chars_append) expression.apart

theorem namesIn_tight : namesIn expression.tight = namesIn (String.ofList expression.start) ++
    expression.occurrences.flatMap WrittenName.tightNames :=
  namesIn_charsFrom (fun name _ => name.namesIn_tight_append) expression.apart

end SpacedExpression

/-! ### In every scope -/

/-- Lists that are put together from shorter and from longer ones are the same only if all their parts
are. -/
theorem eq_of_flatMap_eq {α β : Type} {items : List α} {one other : α → List β}
    (shorter : ∀ item, (one item).length ≤ (other item).length)
    (same : items.flatMap one = items.flatMap other) : ∀ item ∈ items, one item = other item := by
  induction items with
  | nil => exact List.forall_mem_nil _
  | cons item rest inductionHypothesis =>
      rw [List.flatMap_cons, List.flatMap_cons] at same
      have shorterRest : (rest.flatMap one).length ≤ (rest.flatMap other).length := by
        rw [List.length_flatMap, List.length_flatMap]
        exact List.sum_le_sum fun item _ => shorter item
      have lengths := congrArg List.length same
      rw [List.length_append, List.length_append] at lengths
      have shorterItem := shorter item
      obtain ⟨sameItem, sameRest⟩ := List.append_inj same (by omega)
      exact List.forall_mem_cons.mpr ⟨sameItem, inductionHypothesis sameRest⟩

namespace Resolution

theorem resolve?_empty {catalog : Catalog} {name : String} (known : catalog.contains name) :
    resolve? catalog .empty none name = some name := by
  have alone : meanings .empty none name = [name] := by
    by_cases dotted : '.' ∈ name.toList
    · exact meanings_empty_of_dotted dotted
    · exact meanings_empty_of_simple dotted
  rw [resolve?, alone, List.find?_cons_of_pos known]

theorem filterMap_resolve?_empty {catalog : Catalog} {names : List String}
    (known : ∀ name ∈ names, catalog.contains name) :
    names.filterMap (resolve? catalog .empty none) = names := by
  calc names.filterMap (resolve? catalog .empty none)
    _ = names.filterMap some := List.filterMap_congr fun name isName =>
      resolve?_empty (known name isName)
    _ = names := List.filterMap_some

/-- Expressions that lead to the same types in every scope have the same names. -/
theorem namesIn_eq_of_resolveAll_eq {one other : String}
    (same : ∀ catalog imports own,
      resolveAll catalog imports own one = resolveAll catalog imports own other) :
    namesIn one = namesIn other := by
  -- Where all these names are declared, every one of them leads to itself.
  have all := same (.ofNames (namesIn one ++ namesIn other)) .empty none
  have known : ∀ name ∈ namesIn one ++ namesIn other,
      (Catalog.ofNames (namesIn one ++ namesIn other)).contains name := fun name isName =>
    Catalog.contains_ofNames.mpr isName
  obtain ⟨knownOne, knownOther⟩ := List.forall_mem_append.mp known
  rwa [resolveAll, resolveAll, filterMap_resolve?_empty knownOne,
    filterMap_resolve?_empty knownOther] at all

end Resolution

theorem SpacedExpression.namesIn_eq_iff (expression : SpacedExpression) :
    namesIn expression.text = namesIn expression.tight ↔
      ∀ occurrence ∈ expression.occurrences, occurrence.name.Unbroken := by
  rw [namesIn_text, namesIn_tight, List.append_right_inj]
  constructor
  · intro same occurrence membership
    have shorter : ∀ occurrence : WrittenName,
        occurrence.tightNames.length ≤ occurrence.names.length := by
      intro occurrence
      have ofName := occurrence.name.length_readName_le
      rw [WrittenName.tightNames, WrittenName.names, List.length_append, List.length_append]
      omega
    have sameNames := eq_of_flatMap_eq shorter same.symm occurrence membership
    exact occurrence.name.flatMap_readName_eq_iff.mp (List.append_cancel_right sameNames)
  · intro unbroken
    refine List.flatMap_congr fun occurrence membership => ?_
    have sameNames := occurrence.name.flatMap_readName_eq_iff.mpr (unbroken occurrence membership)
    rw [WrittenName.names, WrittenName.tightNames, sameNames]

/-! ### In one scope -/

section Scope

variable {catalog : Catalog} {imports : Imports} {own : Option String}

theorem SpacedName.leadsAlike_iff (name : SpacedName) : name.LeadsAlike catalog imports own ↔
    (name.stretches.flatMap readName).filterMap (resolve? catalog imports own) =
      (readName name.full).filterMap (resolve? catalog imports own) := by
  have stretches : (name.stretches.map String.ofList).flatMap (resolveAll catalog imports own) =
      (name.stretches.flatMap readName).filterMap (resolve? catalog imports own) := by
    rw [List.flatMap_map, List.filterMap_flatMap]
    refine List.flatMap_congr fun stretch isStretch => ?_
    rw [resolveAll, Resolution.namesIn_of_isName (name.isName_of_mem_stretches stretch isStretch)]
  rw [LeadsAlike, stretches, resolveAll, Resolution.namesIn_of_isName name.isName_full]

theorem filterMap_names_eq_iff (occurrence : WrittenName) :
    occurrence.names.filterMap (resolve? catalog imports own) =
        occurrence.tightNames.filterMap (resolve? catalog imports own) ↔
      occurrence.name.LeadsAlike catalog imports own := by
  rw [WrittenName.names, WrittenName.tightNames, List.filterMap_append, List.filterMap_append,
    List.append_left_inj, SpacedName.leadsAlike_iff]

theorem filterMap_flatMap_names {occurrences : List WrittenName}
    (alike : ∀ occurrence ∈ occurrences, occurrence.name.LeadsAlike catalog imports own) :
    (occurrences.flatMap WrittenName.names).filterMap (resolve? catalog imports own) =
      (occurrences.flatMap WrittenName.tightNames).filterMap (resolve? catalog imports own) := by
  rw [List.filterMap_flatMap, List.filterMap_flatMap]
  exact List.flatMap_congr fun occurrence membership =>
    (filterMap_names_eq_iff occurrence).mpr (alike occurrence membership)

/-- Where all other names lead alike, the expression does just if this name does. -/
theorem resolvesAlike_iff_of_others {expression : SpacedExpression}
    {earlier later : List WrittenName} {occurrence : WrittenName}
    (written : expression.occurrences = earlier ++ occurrence :: later)
    (others : ∀ other ∈ earlier ++ later, other.name.LeadsAlike catalog imports own) :
    ResolvesAlike catalog imports own expression ↔
      occurrence.name.LeadsAlike catalog imports own := by
  obtain ⟨alikeEarlier, alikeLater⟩ := List.forall_mem_append.mp others
  rw [ResolvesAlike, resolveAll, resolveAll, expression.namesIn_text, expression.namesIn_tight,
    written]
  simp only [List.flatMap_append, List.flatMap_cons, List.filterMap_append]
  rw [filterMap_flatMap_names alikeEarlier, filterMap_flatMap_names alikeLater,
    List.append_right_inj, List.append_right_inj, List.append_left_inj, filterMap_names_eq_iff]

end Scope

/-- White space at dots makes no difference in any scope just if no name that is read is cut.  In a
given scope it makes none just if the stretches of the name lead where the name leads, whenever that
is so of the other names. -/
theorem resolvesAlike_iff (expression : SpacedExpression) :
    ((∀ catalog imports own, ResolvesAlike catalog imports own expression) ↔
      ∀ occurrence ∈ expression.occurrences, occurrence.name.Unbroken) ∧
    ∀ catalog imports own earlier occurrence later,
      expression.occurrences = earlier ++ occurrence :: later →
      (∀ other ∈ earlier ++ later, other.name.LeadsAlike catalog imports own) →
      (ResolvesAlike catalog imports own expression ↔
        occurrence.name.LeadsAlike catalog imports own) := by
  refine ⟨?_, fun _ _ _ _ _ _ written others => resolvesAlike_iff_of_others written others⟩
  rw [← expression.namesIn_eq_iff]
  constructor
  · exact Resolution.namesIn_eq_of_resolveAll_eq
  · intro same catalog imports own
    rw [ResolvesAlike, resolveAll, resolveAll, same]

namespace SpacedExpression

/-- The name in `Pair<M . A, B>`. -/
def nested : WrittenName where
  name := ⟨false, "M", [⟨Space.single.toBlanks, Space.single.toBlanks, "A", by decide⟩], by decide⟩
  next := [',', ' ', 'B', '>']

/-- The expression `Pair<M . A, B>`. -/
def pair : SpacedExpression where
  start := ['P', 'a', 'i', 'r', '<']
  occurrences := [nested]
  apart := ⟨by rintro _ ⟨⟩; decide, by rintro _ ⟨⟩; decide, fun _ => rfl, trivial⟩

/-- The white space makes a difference in some scope, but within the namespace of the type it makes
none. -/
theorem pair_resolvesAlike :
    pair.text = "Pair<M . A, B>" ∧ pair.tight = "Pair<M.A, B>" ∧
      pair.occurrences = [] ++ nested :: [] ∧
      (∀ other ∈ ([] ++ [] : List WrittenName),
        other.name.LeadsAlike ⟨["M.A"]⟩ .empty (some "M")) ∧
      (¬ ∀ catalog imports own, ResolvesAlike catalog imports own pair) ∧
      ResolvesAlike ⟨["M.A"]⟩ .empty (some "M") pair := by
  have written : pair.occurrences = [] ++ nested :: [] := rfl
  have others : ∀ other ∈ ([] ++ [] : List WrittenName),
      other.name.LeadsAlike ⟨["M.A"]⟩ .empty (some "M") := List.forall_mem_nil _
  obtain ⟨everywhere, here⟩ := resolvesAlike_iff pair
  have cut : ¬ nested.name.Unbroken := by decide +kernel
  have alike : nested.name.LeadsAlike ⟨["M.A"]⟩ .empty (some "M") := by decide +kernel
  exact ⟨by decide +kernel, by decide +kernel, written, others,
    fun same => cut (everywhere.mp same nested (List.mem_singleton_self _)),
    (here _ _ _ _ _ _ written others).mpr alike⟩

/-- Outside the namespace of the type the name is found only without the white space. -/
theorem pair_not_resolvesAlike :
    pair.text = "Pair<M . A, B>" ∧ pair.tight = "Pair<M.A, B>" ∧
      resolveAll ⟨["M.A"]⟩ .empty none pair.text = [] ∧
      resolveAll ⟨["M.A"]⟩ .empty none pair.tight = ["M.A"] ∧
      ¬ ResolvesAlike ⟨["M.A"]⟩ .empty none pair := by
  decide +kernel

end SpacedExpression

end SolutionSurvey

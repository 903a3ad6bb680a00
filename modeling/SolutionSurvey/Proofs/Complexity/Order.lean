import SolutionSurvey.Proofs.Complexity.Charging

/-!
# The order of the units

The unit of the statements outside of any member is put in front of the units that a walk finds, and
then all of them are sorted by line.  If lines ascend along the walk, the sort moves nothing but that
one unit: it gets behind those on earlier lines.
-/

namespace SolutionSurvey.Complexity

/-- Lines do not descend in the order of the text. -/
def LinesAscend (root : Node) : Prop :=
  root.places.Pairwise fun earlier later => earlier.node.line ≤ later.node.line

instance (root : Node) : Decidable (LinesAscend root) :=
  inferInstanceAs (Decidable (root.places.Pairwise _))

/-- The order in which the units of a tree are listed. -/
structure InTextOrder (root : Node) : Prop where
  /-- But for the top-level unit, every unit of the tree is listed once, in the order of the text: in
  this order addresses ascend. -/
  members : ∃ (addresses : List Address) (scores : List UnitScore), addresses.Pairwise (· < ·) ∧
    (∀ address, address ∈ addresses ↔ UnitAt root address) ∧
    addresses.map (scoreAt? root) = scores.map some ∧
    (units root).filter (·.kind != .topLevel) = scores
  lines : (units root).Pairwise fun earlier later => earlier.line ≤ later.line
  noTopLevel : (∀ statement ∈ root.children, statement.kind ≠ "global_statement") →
    ∀ unit ∈ units root, unit.kind ≠ .topLevel
  /-- The top-level unit is on the line of the first statement outside of any member.  It is listed
  once, behind all units on earlier lines and in front of all others. -/
  topLevel : ∀ statement, root.children.find? (·.kind == "global_statement") = some statement →
    ∃ before top after, units root = before ++ top :: after ∧
      scoreTopLevel? root = some top ∧ top.kind = .topLevel ∧ top.line = statement.line ∧
      (∀ unit ∈ before, unit.kind ≠ .topLevel ∧ unit.line < statement.line) ∧
      ∀ unit ∈ after, unit.kind ≠ .topLevel ∧ statement.line ≤ unit.line

/-! ### The units that the walk finds -/

def walkedUnits (root : Node) : List UnitScore := root.places.filterMap scoreUnit?

theorem unitKind?_ne_topLevel {node : Node} {kind : UnitKind} (isKind : unitKind? node = some kind) :
    kind ≠ .topLevel := by
  rintro rfl
  rw [unitKind?] at isKind
  split at isKind <;> simp at isKind

theorem kind_of_mem_walkedUnits {root : Node} {unit : UnitScore}
    (membership : unit ∈ walkedUnits root) : unit.kind ≠ .topLevel := by
  obtain ⟨place, _, scored⟩ := List.mem_filterMap.mp membership
  obtain ⟨kind, isKind, rfl⟩ := Option.map_eq_some_iff.mp scored
  exact unitKind?_ne_topLevel isKind

theorem line_of_scoreUnit? {place : Place} {unit : UnitScore} (scored : scoreUnit? place = some unit) :
    unit.line = place.node.line := by
  obtain ⟨kind, _, rfl⟩ := Option.map_eq_some_iff.mp scored
  rfl

theorem lines_walkedUnits {root : Node} (ascend : LinesAscend root) :
    (walkedUnits root).Pairwise fun earlier later => earlier.line ≤ later.line := by
  refine List.pairwise_filterMap.mpr (ascend.imp fun {earlier later} ordered => ?_)
  intro first scoredFirst second scoredSecond
  rwa [line_of_scoreUnit? scoredFirst, line_of_scoreUnit? scoredSecond]

/-! ### The top-level unit -/

theorem kind_of_scoreTopLevel? {root : Node} {top : UnitScore}
    (scored : scoreTopLevel? root = some top) : top.kind = .topLevel := by
  rw [scoreTopLevel?] at scored
  split at scored
  · cases scored
  · rw [← Option.some.inj scored]

theorem exists_scoreTopLevel? {root statement : Node}
    (first : root.children.find? (·.kind == "global_statement") = some statement) :
    ∃ top, scoreTopLevel? root = some top ∧ top.line = statement.line := by
  rw [← List.head?_filter] at first
  obtain ⟨rest, statements⟩ := List.head?_eq_some_iff.mp first
  rw [scoreTopLevel?, topLevelStatements, statements]
  exact ⟨_, rfl, rfl⟩

/-! ### The sort -/

theorem line_trans (first second third : UnitScore) (before : decide (first.line ≤ second.line))
    (after : decide (second.line ≤ third.line)) : decide (first.line ≤ third.line) :=
  decide_eq_true ((of_decide_eq_true before).trans (of_decide_eq_true after))

theorem line_total (first second : UnitScore) :
    (decide (first.line ≤ second.line) || decide (second.line ≤ first.line)) = true := by
  simpa using Nat.le_total first.line second.line

theorem lines_units (root : Node) :
    (units root).Pairwise fun earlier later => earlier.line ≤ later.line :=
  (List.pairwise_mergeSort line_trans line_total _).imp of_decide_eq_true

/-- The sort leaves the walk as it is. -/
theorem mergeSort_walkedUnits {root : Node} (ascend : LinesAscend root) :
    (walkedUnits root).mergeSort (fun left right => left.line ≤ right.line) = walkedUnits root :=
  List.mergeSort_of_pairwise ((lines_walkedUnits ascend).imp decide_eq_true)

theorem units_of_no_topLevel {root : Node} (ascend : LinesAscend root)
    (unscored : scoreTopLevel? root = none) : units root = walkedUnits root := by
  rw [units, unscored]
  exact mergeSort_walkedUnits ascend

/-- The sort moves the top-level unit behind the units on earlier lines. -/
theorem exists_units_of_topLevel {root : Node} (ascend : LinesAscend root) {top : UnitScore}
    (scored : scoreTopLevel? root = some top) :
    ∃ before after, units root = before ++ top :: after ∧ walkedUnits root = before ++ after ∧
      (∀ unit ∈ before, unit.line < top.line) ∧ ∀ unit ∈ after, top.line ≤ unit.line := by
  obtain ⟨before, after, listed, walked, earlier⟩ :=
    List.mergeSort_cons line_trans line_total top (walkedUnits root)
  rw [mergeSort_walkedUnits ascend] at walked
  have all : units root = before ++ top :: after := by
    rw [units, scored]
    exact listed
  have sorted := lines_units root
  rw [all] at sorted
  refine ⟨before, after, all, walked, fun unit inBefore => by simpa using earlier unit inBefore, ?_⟩
  exact (List.pairwise_cons.mp (List.pairwise_append.mp sorted).2.1).1

theorem filter_units {root : Node} (ascend : LinesAscend root) :
    (units root).filter (·.kind != .topLevel) = walkedUnits root := by
  have keeps : (walkedUnits root).filter (·.kind != .topLevel) = walkedUnits root :=
    List.filter_eq_self.mpr fun unit walked => bne_iff_ne.mpr (kind_of_mem_walkedUnits walked)
  cases scored : scoreTopLevel? root with
  | none => rw [units_of_no_topLevel ascend scored, keeps]
  | some top =>
      obtain ⟨before, after, listed, walked, _⟩ := exists_units_of_topLevel ascend scored
      have leftOut : (top :: after).filter (·.kind != .topLevel) =
          after.filter (·.kind != .topLevel) :=
        List.filter_cons_of_neg (by simp [kind_of_scoreTopLevel? scored])
      rw [listed, List.filter_append, leftOut, ← List.filter_append, ← walked, keeps]

/-- If lines ascend along the walk, units are listed in the order of the text. -/
theorem inTextOrder_of_linesAscend {root : Node} (ascend : LinesAscend root) :
    InTextOrder root where
  members := by
    refine ⟨unitAddresses root, walkedUnits root, root.addresses_ascending.filter _,
      fun _ => mem_unitAddresses, ?_, filter_units ascend⟩
    rw [walkedUnits, filterMap_scoreUnit?_places]
    exact exists_scores fun address membership => mem_unitAddresses.mp membership
  lines := lines_units root
  noTopLevel noStatement unit listed := by
    have unscored : scoreTopLevel? root = none := by
      refine Option.not_isSome_iff_eq_none.mp fun scored => ?_
      obtain ⟨statement, isChild, kind⟩ := scoreTopLevel?_isSome.mp scored
      exact noStatement statement isChild kind
    rw [units_of_no_topLevel ascend unscored] at listed
    exact kind_of_mem_walkedUnits listed
  topLevel statement first := by
    obtain ⟨top, scored, line⟩ := exists_scoreTopLevel? first
    obtain ⟨before, after, listed, walked, earlier, later⟩ := exists_units_of_topLevel ascend scored
    have kinds : ∀ unit ∈ before ++ after, unit.kind ≠ .topLevel := fun unit isWalked =>
      kind_of_mem_walkedUnits (walked ▸ isWalked)
    refine ⟨before, top, after, listed, scored, kind_of_scoreTopLevel? scored, line, ?_, ?_⟩
    · exact fun unit inBefore => ⟨kinds unit (List.mem_append_left after inBefore),
        line ▸ earlier unit inBefore⟩
    · exact fun unit inAfter => ⟨kinds unit (List.mem_append_right before inAfter),
        line ▸ later unit inAfter⟩

open Node (written sign) in
/-- A method with a function in it on one line, then two statements outside of any member, each with
a method behind it on its own line. -/
def methodsAndStatements : Node :=
  let method (name : String) (line : Nat) (inner : List Node) :=
    written "method_declaration" [] line line "" (written "identifier" ["name"] line line name [] :: inner)
  let statement (line : Nat) := written "global_statement" [] line line "" []
  written "compilation_unit" [] 1 3 "" [
    method "First" 1 [written "local_function_statement" [] 1 1 "" []],
    statement 2, method "Second" 2 [], statement 3, method "Third" 3 []]

theorem methodsAndStatements_inTextOrder :
    LinesAscend methodsAndStatements ∧ InTextOrder methodsAndStatements ∧
      (scoreTopLevel? methodsAndStatements).map (·.line) = some 2 ∧
      (walkedUnits methodsAndStatements).map (fun unit => (unit.name, unit.line)) =
        [("First", 1), ("local_function_statement", 1), ("Second", 2), ("Third", 3)] :=
  ⟨by decide +kernel, inTextOrder_of_linesAscend (by decide +kernel), by decide +kernel,
    by decide +kernel⟩

end SolutionSurvey.Complexity

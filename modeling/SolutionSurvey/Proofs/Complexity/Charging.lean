import SolutionSurvey.Proofs.Complexity.Units

/-!
# Every branch is charged once

The scores of a file are obtained from many walks, one for each unit and one for each statement
outside of any member.  These walks overlap nowhere: a branch counts for the nearest unit around it,
or for the top-level unit if it is in no other unit.
-/

namespace SolutionSurvey.Complexity

def scoreAt? (root : Node) (address : Address) : Option UnitScore :=
  (root.place? address).bind scoreUnit?

/-- The branches that are in some unit, the top-level one included. -/
def enclosedBranches (root : Node) : Set Address :=
  {branch | BranchAt root branch ∧ (InUnit root branch ∨ InTopLevel root branch)}

/-- How the scores of a tree come about. -/
structure ChargedOnce (root : Node) : Prop where
  /-- A unit scores one, and one more for each branch whose nearest unit it is. -/
  unit : ∀ address score, scoreAt? root address = some score →
    score.score = 1 + (unitBranches root address).ncard
  topLevel_isSome : (scoreTopLevel? root).isSome ↔
    ∃ statement ∈ root.children, statement.kind = "global_statement"
  /-- The top-level unit scores one, and one more for each branch in statements outside of any member
  that is in no other unit. -/
  topLevel : ∀ score, scoreTopLevel? root = some score →
    score.score = 1 + (topLevelBranches root).ncard
  /-- The top-level unit and every unit of the tree are listed once. -/
  listed : ∃ (addresses : List Address) (scores : List UnitScore), addresses.Nodup ∧
    (∀ address, address ∈ addresses ↔ UnitAt root address) ∧
    addresses.map (scoreAt? root) = scores.map some ∧
    (units root).Perm ((scoreTopLevel? root).toList ++ scores)
  noUnit : (∀ address, ¬ UnitAt root address) →
    (∀ statement ∈ root.children, statement.kind ≠ "global_statement") → ofTree root = 1
  /-- Any other tree scores the number of its units and of the branches that are in one. -/
  total : ((∃ address, UnitAt root address) ∨
      ∃ statement ∈ root.children, statement.kind = "global_statement") →
    ofTree root = (scoreTopLevel? root).toList.length + {address | UnitAt root address}.ncard +
      (enclosedBranches root).ncard
  /-- A branch that is in a unit is charged to one unit and to no other. -/
  once : ∀ branch ∈ enclosedBranches root,
    (∃! unit, branch ∈ unitBranches root unit) ∧ branch ∉ topLevelBranches root ∨
      (∀ unit, branch ∉ unitBranches root unit) ∧ branch ∈ topLevelBranches root
  /-- The keyword `case` is a branch unless it follows a `goto` or its label is counted itself. -/
  caseKeyword : ∀ address place, root.place? address = some place → place.node.kind = "case" →
    place.node.named = false →
    (BranchAt root address ↔ ∃ parent, place.parent? = some parent ∧
      parent.kind ≠ "goto_statement" ∧ parent.kind ∉ branchKinds)

/-! ### Units of the tree -/

theorem scoreUnit?_isSome (place : Place) : (scoreUnit? place).isSome = isUnit place.node := by
  simp [scoreUnit?, isUnit]

theorem unitAt_iff_scoreAt? {root : Node} {address : Address} :
    UnitAt root address ↔ (scoreAt? root address).isSome := by
  rw [UnitAt, scoreAt?, ← Node.map_node_place?]
  cases root.place? address with
  | none => simp
  | some place => simp [scoreUnit?_isSome]

theorem score_of_scoreAt? {root : Node} {address : Address} {score : UnitScore}
    (scored : scoreAt? root address = some score) :
    score.score = 1 + (unitBranches root address).ncard := by
  have unitAt : UnitAt root address := unitAt_iff_scoreAt?.mpr (by simp [scored])
  obtain ⟨place, found, scoredPlace⟩ := Option.bind_eq_some_iff.mp scored
  obtain ⟨kind, _, rfl⟩ := Option.map_eq_some_iff.mp scoredPlace
  rw [unitBranches_eq_ownBranches unitAt, ← length_branches_eq_ncard found]

def unitAddresses (root : Node) : List Address :=
  root.addresses.filter fun address => (scoreAt? root address).isSome

theorem mem_unitAddresses {root : Node} {address : Address} :
    address ∈ unitAddresses root ↔ UnitAt root address := by
  rw [unitAddresses, List.mem_filter, ← unitAt_iff_scoreAt?]
  refine ⟨And.right, fun unit => ⟨?_, unit⟩⟩
  obtain ⟨node, found, _⟩ := unit
  exact Node.mem_addresses.mpr (by simp [found])

theorem unitAddresses_nodup (root : Node) : (unitAddresses root).Nodup :=
  root.addresses_nodup.filter _

theorem filterMap_scoreUnit?_places (root : Node) :
    root.places.filterMap scoreUnit? = (unitAddresses root).filterMap (scoreAt? root) := by
  rw [Node.places_eq_filterMap, List.filterMap_filterMap, unitAddresses, List.filterMap_filter]
  refine List.filterMap_congr fun address _ => ?_
  change scoreAt? root address = _
  cases scoreAt? root address with
  | none => rfl
  | some score => rfl

theorem sum_scores_of_units {root : Node} {addresses : List Address}
    (unitsAt : ∀ address ∈ addresses, UnitAt root address) :
    ((addresses.filterMap (scoreAt? root)).map (·.score)).sum =
      addresses.length + (addresses.map fun address => (unitBranches root address).ncard).sum := by
  induction addresses with
  | nil => rfl
  | cons head rest inductionHypothesis =>
      obtain ⟨score, scored⟩ := Option.isSome_iff_exists.mp
        (unitAt_iff_scoreAt?.mp (unitsAt head List.mem_cons_self))
      rw [List.filterMap_cons, scored, List.map_cons, List.sum_cons, List.map_cons, List.sum_cons,
        score_of_scoreAt? scored,
        inductionHypothesis fun address membership =>
          unitsAt address (List.mem_cons_of_mem head membership),
        List.length_cons]
      omega

/-- The branches that some unit is charged with are those that lie in a unit. -/
theorem sum_unitBranches (root : Node) :
    ((unitAddresses root).map fun unit => (unitBranches root unit).ncard).sum =
      {branch | BranchAt root branch ∧ InUnit root branch}.ncard := by
  rw [sum_map_ncard (unitAddresses_nodup root)]
  · congr 1
    ext branch
    constructor
    · rintro ⟨unit, _, branchAt, nearest⟩
      exact ⟨branchAt, unit, nearest.1, nearest.2.1⟩
    · rintro ⟨branchAt, inside⟩
      obtain ⟨unit, nearest⟩ := exists_nearestUnit inside
      exact ⟨unit, mem_unitAddresses.mpr nearest.1, branchAt, nearest⟩
  · intro unit _
    exact finite_of_branchAt fun branch charged => charged.1
  · intro first _ second _ branch inFirst inSecond
    exact inFirst.2.unique inSecond.2

/-! ### Statements outside of any member -/

theorem not_unitAt_of_kind {root node : Node} {address : Address}
    (found : root.at? address = some node) (kind : node.kind = "compilation_unit" ∨
      node.kind = "global_statement") : ¬ UnitAt root address := by
  rintro ⟨other, foundOther, unit⟩
  rw [found, Option.some.injEq] at foundOther
  subst foundOther
  rcases kind with kind | kind <;> simp [isUnit, unitKind?, kind] at unit

theorem ownBranches_statement {root statement : Node} {index : Nat}
    (whole : root.kind = "compilation_unit") (atIndex : root.children[index]? = some statement)
    (kind : statement.kind = "global_statement") :
    ownBranches root [index] =
      {branch | BranchAt root branch ∧ Address.Above [index] branch ∧ ¬ InUnit root branch} := by
  have found : root.at? [index] = some statement := by simp [Node.at?_cons, atIndex]
  ext branch
  constructor
  · rintro ⟨branchAt, above, noUnit⟩
    refine ⟨branchAt, above, ?_⟩
    rintro ⟨unit, unitAt, unitAbove⟩
    cases unit with
    | nil => exact not_unitAt_of_kind (Node.at?_nil root) (.inl whole) unitAt
    | cons first rest =>
        rcases List.prefix_or_prefix_of_prefix above.1 unitAbove.1 with inward | outward
        · refine noUnit (first :: rest) unitAt ⟨inward, ?_⟩ unitAbove
          intro same
          exact not_unitAt_of_kind found (.inr kind) (same ▸ unitAt)
        · have same : first :: rest = [index] := outward.eq_of_length_le (by simp)
          exact not_unitAt_of_kind found (.inr kind) (same ▸ unitAt)
  · rintro ⟨branchAt, above, outside⟩
    exact ⟨branchAt, above, fun unit unitAt _ unitAbove => outside ⟨unit, unitAt, unitAbove⟩⟩

def placedStatements (root : Node) : List (Node × Nat) :=
  root.children.zipIdx.filter fun child => child.1.kind == "global_statement"

theorem mem_placedStatements {root statement : Node} {index : Nat} :
    (statement, index) ∈ placedStatements root ↔
      root.children[index]? = some statement ∧ statement.kind = "global_statement" := by
  simp [placedStatements, List.mem_zipIdx_iff_getElem?]

theorem map_fst_placedStatements (root : Node) :
    (placedStatements root).map Prod.fst = topLevelStatements root := by
  rw [placedStatements, topLevelStatements, ← List.zipIdx_map_fst 0 root.children, List.filter_map,
    List.zipIdx_map_fst]
  rfl

theorem placedStatements_nodup (root : Node) : (placedStatements root).Nodup := by
  refine List.Nodup.filter _ (List.Nodup.of_map Prod.snd ?_)
  rw [List.zipIdx_map_snd]
  exact List.nodup_range'

theorem sum_statementBranches {root : Node} (whole : root.kind = "compilation_unit") :
    ((topLevelStatements root).map fun statement => (branches statement).length).sum =
      (topLevelBranches root).ncard := by
  have counts : ∀ placed ∈ placedStatements root,
      (branches placed.1).length = (ownBranches root [placed.2]).ncard := by
    rintro ⟨statement, index⟩ membership
    have atIndex := (mem_placedStatements.mp membership).1
    have found : root.place? [index] = some ⟨statement, [root]⟩ := by
      simp [Node.place?, Node.placeWithin?_cons, atIndex]
    exact length_branches_eq_ncard found
  rw [← map_fst_placedStatements, List.map_map]
  change ((placedStatements root).map fun placed => (branches placed.1).length).sum = _
  rw [List.map_congr_left counts, sum_map_ncard (placedStatements_nodup root)]
  · congr 1
    ext branch
    constructor
    · rintro ⟨⟨statement, index⟩, membership, charged⟩
      obtain ⟨atIndex, kind⟩ := mem_placedStatements.mp membership
      rw [ownBranches_statement whole atIndex kind] at charged
      exact ⟨charged.1, ⟨index, statement, atIndex, kind, charged.2.1⟩, charged.2.2⟩
    · rintro ⟨branchAt, ⟨index, statement, atIndex, kind, above⟩, outside⟩
      refine ⟨(statement, index), mem_placedStatements.mpr ⟨atIndex, kind⟩, ?_⟩
      rw [ownBranches_statement whole atIndex kind]
      exact ⟨branchAt, above, outside⟩
  · intro placed _
    exact finite_of_branchAt fun branch charged => charged.1
  · rintro ⟨first, index⟩ inFirst ⟨second, other⟩ inSecond branch chargedFirst chargedSecond
    have sameIndex : [index] = [other] := by
      rcases List.prefix_or_prefix_of_prefix chargedFirst.2.1.1 chargedSecond.2.1.1 with
        inward | outward
      · exact inward.eq_of_length_le (by simp)
      · exact (outward.eq_of_length_le (by simp)).symm
    obtain rfl : index = other := by simpa using sameIndex
    have atFirst := (mem_placedStatements.mp inFirst).1
    have atSecond := (mem_placedStatements.mp inSecond).1
    rw [atFirst, Option.some.injEq] at atSecond
    rw [atSecond]

/-! ### All scores together -/

theorem scoreTopLevel?_isSome {root : Node} :
    (scoreTopLevel? root).isSome ↔
      ∃ statement ∈ root.children, statement.kind = "global_statement" := by
  have members : topLevelStatements root ≠ [] ↔
      ∃ statement ∈ root.children, statement.kind = "global_statement" := by
    simp [topLevelStatements]
  rw [← members, scoreTopLevel?]
  cases topLevelStatements root with
  | nil => simp
  | cons first rest => simp

theorem score_of_scoreTopLevel? {root : Node} (whole : root.kind = "compilation_unit")
    {score : UnitScore} (scored : scoreTopLevel? root = some score) :
    score.score = 1 + (topLevelBranches root).ncard := by
  rw [← sum_statementBranches whole]
  rw [scoreTopLevel?] at scored
  cases statements : topLevelStatements root with
  | nil => simp [statements] at scored
  | cons first rest =>
      rw [statements] at scored
      simp [← Option.some.inj scored, sumOf_eq_sum]

theorem topLevelBranches_eq_empty {root : Node} (unscored : scoreTopLevel? root = none) :
    topLevelBranches root = ∅ := by
  have noStatement := mt scoreTopLevel?_isSome.mpr (Option.not_isSome_iff_eq_none.mpr unscored)
  refine Set.eq_empty_iff_forall_notMem.mpr ?_
  rintro branch ⟨_, ⟨index, statement, atIndex, kind, _⟩, _⟩
  exact noStatement ⟨statement, List.mem_of_getElem? atIndex, kind⟩

theorem units_perm (root : Node) :
    (units root).Perm ((scoreTopLevel? root).toList ++
      (unitAddresses root).filterMap (scoreAt? root)) := by
  rw [← filterMap_scoreUnit?_places]
  exact List.mergeSort_perm _ _

theorem enclosedBranches_eq_union (root : Node) :
    enclosedBranches root =
      {branch | BranchAt root branch ∧ InUnit root branch} ∪ topLevelBranches root := by
  ext branch
  by_cases inside : InUnit root branch
  · simp [enclosedBranches, topLevelBranches, inside]
  · simp [enclosedBranches, topLevelBranches, inside]

/-- The scores together count every unit once and every branch that is in one of them once. -/
theorem sum_scores {root : Node} (whole : root.kind = "compilation_unit") :
    ((units root).map (·.score)).sum =
      (scoreTopLevel? root).toList.length + (unitAddresses root).length +
        (enclosedBranches root).ncard := by
  have topLevel : ((scoreTopLevel? root).toList.map (·.score)).sum =
      (scoreTopLevel? root).toList.length + (topLevelBranches root).ncard := by
    cases scored : scoreTopLevel? root with
    | none => simp [topLevelBranches_eq_empty scored]
    | some score => simp [score_of_scoreTopLevel? whole scored]
  have apart : Disjoint {branch | BranchAt root branch ∧ InUnit root branch}
      (topLevelBranches root) :=
    Set.disjoint_left.mpr fun branch inside outside => outside.2.2 inside.2
  rw [((units_perm root).map (·.score)).sum_eq, List.map_append, List.sum_append, topLevel,
    sum_scores_of_units (fun address membership => mem_unitAddresses.mp membership),
    sum_unitBranches, enclosedBranches_eq_union,
    Set.ncard_union_eq apart (finite_of_branchAt fun branch charged => charged.1)
      (finite_of_branchAt fun branch charged => charged.1)]
  omega

theorem ncard_units (root : Node) :
    {address | UnitAt root address}.ncard = (unitAddresses root).length := by
  rw [← ncard_setOf_mem (unitAddresses_nodup root)]
  simp only [mem_unitAddresses]

/-- A `case` keyword is a branch if it stands in something that is neither a `goto` nor counted as a
branch by its kind. -/
theorem branchAt_case_iff {root : Node} {address : Address} {place : Place}
    (found : root.place? address = some place) (kind : place.node.kind = "case")
    (keyword : place.node.named = false) :
    BranchAt root address ↔ ∃ parent, place.parent? = some parent ∧
      parent.kind ≠ "goto_statement" ∧ parent.kind ∉ branchKinds := by
  rw [branchAt_iff_any, found, Option.any_some, isBranch, kind, keyword]
  cases place.parent? with
  | none => simp [branchKinds]
  | some parent => simp [branchKinds, marksLabel]

theorem exists_scores {root : Node} {addresses : List Address}
    (unitsAt : ∀ address ∈ addresses, UnitAt root address) :
    addresses.map (scoreAt? root) = (addresses.filterMap (scoreAt? root)).map some :=
  Node.map_eq_map_some_filterMap fun address membership =>
    unitAt_iff_scoreAt?.mp (unitsAt address membership)

theorem chargedOnce_branch {root : Node} {branch : Address}
    (enclosed : branch ∈ enclosedBranches root) :
    (∃! unit, branch ∈ unitBranches root unit) ∧ branch ∉ topLevelBranches root ∨
      (∀ unit, branch ∉ unitBranches root unit) ∧ branch ∈ topLevelBranches root := by
  by_cases inside : InUnit root branch
  · obtain ⟨unit, nearest⟩ := exists_nearestUnit inside
    refine .inl ⟨⟨unit, ⟨enclosed.1, nearest⟩, ?_⟩, fun charged => charged.2.2 inside⟩
    exact fun other charged => charged.2.unique nearest
  · refine .inr ⟨fun unit charged => inside ⟨unit, charged.2.1, charged.2.2.1⟩, ?_⟩
    exact ⟨enclosed.1, enclosed.2.resolve_left inside, inside⟩

theorem ofTree_eq_one {root : Node} (whole : root.kind = "compilation_unit")
    (noUnit : ∀ address, ¬ UnitAt root address)
    (noStatement : ∀ statement ∈ root.children, statement.kind ≠ "global_statement") :
    ofTree root = 1 := by
  have unscored : scoreTopLevel? root = none := by
    refine Option.not_isSome_iff_eq_none.mp fun scored => ?_
    obtain ⟨statement, membership, kind⟩ := scoreTopLevel?_isSome.mp scored
    exact noStatement statement membership kind
  have noAddress : unitAddresses root = [] :=
    List.eq_nil_iff_forall_not_mem.mpr fun address membership =>
      noUnit address (mem_unitAddresses.mp membership)
  have noBranch : enclosedBranches root = ∅ := by
    rw [enclosedBranches_eq_union, topLevelBranches_eq_empty unscored, Set.union_empty]
    refine Set.eq_empty_iff_forall_notMem.mpr ?_
    rintro branch ⟨_, unit, unitAt, _⟩
    exact noUnit unit unitAt
  rw [ofTree, sumOf_eq_sum, sum_scores whole, unscored, noAddress, noBranch]
  simp

theorem ofTree_eq_of_unit {root : Node} (whole : root.kind = "compilation_unit")
    (someUnit : (∃ address, UnitAt root address) ∨
      ∃ statement ∈ root.children, statement.kind = "global_statement") :
    ofTree root = (scoreTopLevel? root).toList.length + {address | UnitAt root address}.ncard +
      (enclosedBranches root).ncard := by
  -- A single unit makes the sum positive, so the least score of a file does not come into play.
  have positive : 0 < (scoreTopLevel? root).toList.length + (unitAddresses root).length := by
    rcases someUnit with ⟨address, unitAt⟩ | statement
    · have listed := List.length_pos_of_mem (mem_unitAddresses.mpr unitAt)
      omega
    · obtain ⟨score, scored⟩ := Option.isSome_iff_exists.mp (scoreTopLevel?_isSome.mpr statement)
      rw [scored, Option.toList_some, List.length_singleton]
      omega
  rw [ofTree, sumOf_eq_sum, sum_scores whole, ncard_units]
  omega

/-- In the tree of a whole file every branch is charged once. -/
theorem chargedOnce_of_compilationUnit {root : Node} (whole : root.kind = "compilation_unit") :
    ChargedOnce root where
  unit _ _ scored := score_of_scoreAt? scored
  topLevel_isSome := scoreTopLevel?_isSome
  topLevel _ scored := score_of_scoreTopLevel? whole scored
  listed := by
    have unitsAt : ∀ address ∈ unitAddresses root, UnitAt root address :=
      fun address membership => mem_unitAddresses.mp membership
    exact ⟨unitAddresses root, _, unitAddresses_nodup root, fun _ => mem_unitAddresses,
      exists_scores unitsAt, units_perm root⟩
  noUnit := ofTree_eq_one whole
  total := ofTree_eq_of_unit whole
  once _ enclosed := chargedOnce_branch enclosed
  caseKeyword _ _ found kind keyword := branchAt_case_iff found kind keyword

open Node (written sign) in
/-- A condition outside of any member, with a function declared in it that jumps between the cases
of a `switch`. -/
def conditionWithFunction : Node :=
  written "compilation_unit" [] 1 1 "" [written "global_statement" [] 1 1 "" [
    written "if_statement" [] 1 1 "" [written "local_function_statement" [] 1 1 "" [
      written "switch_section" [] 1 1 "" [sign 1 "case",
        written "goto_statement" [] 1 1 "" [sign 1 "case"]]]]]]

/-- The condition is charged to the top-level unit and the first `case` to the function. -/
theorem conditionWithFunction_chargedOnce :
    conditionWithFunction.kind = "compilation_unit" ∧ ChargedOnce conditionWithFunction ∧
      (scoreTopLevel? conditionWithFunction).map (·.score) = some 2 ∧
      (scoreAt? conditionWithFunction [0, 0, 0]).map (·.score) = some 2 :=
  ⟨rfl, chargedOnce_of_compilationUnit rfl, by decide +kernel, by decide +kernel⟩

end SolutionSurvey.Complexity

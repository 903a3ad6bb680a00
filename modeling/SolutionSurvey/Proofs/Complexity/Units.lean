import Mathlib.Data.Set.Finite.Lemmas
import SolutionSurvey.Metrics.Complexity
import SolutionSurvey.Proofs.Collection.Counting
import SolutionSurvey.Proofs.Node.Walk

/-!
# The branches of a unit

Units may lie in units.  A branch belongs to the nearest unit around it.  The walk that counts the
branches below a node does not enter units, so it counts those that have no further unit in between.
-/

namespace SolutionSurvey.Complexity

/-! ### Units and branches at addresses -/

def UnitAt (root : Node) (address : Address) : Prop :=
  ∃ node, root.at? address = some node ∧ isUnit node = true

def BranchAt (root : Node) (address : Address) : Prop :=
  ∃ place, root.place? address = some place ∧ isBranch place = true

/-- A unit is around an address, and every other unit around the address is around that unit. -/
def NearestUnit (root : Node) (unit inner : Address) : Prop :=
  UnitAt root unit ∧ unit.Above inner ∧
    ∀ other, UnitAt root other → other.Above inner → other <+: unit

def InUnit (root : Node) (inner : Address) : Prop :=
  ∃ unit, UnitAt root unit ∧ unit.Above inner

/-- An address lies below a statement outside of any member. -/
def InTopLevel (root : Node) (inner : Address) : Prop :=
  ∃ index statement, root.children[index]? = some statement ∧
    statement.kind = "global_statement" ∧ Address.Above [index] inner

def unitBranches (root : Node) (unit : Address) : Set Address :=
  {branch | BranchAt root branch ∧ NearestUnit root unit branch}

def topLevelBranches (root : Node) : Set Address :=
  {branch | BranchAt root branch ∧ InTopLevel root branch ∧ ¬ InUnit root branch}

/-- The branches below a node that have no unit in between. -/
def ownBranches (root : Node) (outer : Address) : Set Address :=
  {branch | BranchAt root branch ∧ outer.Above branch ∧
    ∀ unit, UnitAt root unit → outer.Above unit → ¬ unit.Above branch}

theorem mem_addresses_of_branchAt {root : Node} {address : Address}
    (branchAt : BranchAt root address) : address ∈ root.addresses := by
  obtain ⟨place, found, _⟩ := branchAt
  rw [Node.mem_addresses, Node.at?_of_place? found]
  rfl

theorem finite_of_branchAt {root : Node} {addresses : Set Address}
    (branches : ∀ address ∈ addresses, BranchAt root address) : addresses.Finite :=
  root.addresses.finite_toSet.subset fun address membership =>
    mem_addresses_of_branchAt (branches address membership)

/-! ### The nearest unit -/

theorem NearestUnit.unique {root : Node} {first second inner : Address}
    (nearestFirst : NearestUnit root first inner) (nearestSecond : NearestUnit root second inner) :
    first = second :=
  (nearestSecond.2.2 first nearestFirst.1 nearestFirst.2.1).eq_of_length_le
    (nearestFirst.2.2 second nearestSecond.1 nearestSecond.2.1).length_le

/-- Inside of some unit there is a nearest one: of the units around, the one furthest down. -/
theorem exists_nearestUnit {root : Node} {inner : Address} (inside : InUnit root inner) :
    ∃ unit, NearestUnit root unit inner := by
  have finite : {unit | UnitAt root unit ∧ Address.Above unit inner}.Finite := by
    refine root.addresses.finite_toSet.subset ?_
    rintro unit ⟨⟨node, found, _⟩, _⟩
    exact Node.mem_addresses.mpr (by simp [found])
  obtain ⟨unit, ⟨unitAt, above⟩, furthest⟩ :=
    Set.exists_max_image _ List.length finite inside
  refine ⟨unit, unitAt, above, ?_⟩
  intro other otherUnit otherAbove
  rcases List.prefix_or_prefix_of_prefix otherAbove.1 above.1 with outward | inward
  · exact outward
  · have same := inward.eq_of_length_le (furthest other ⟨otherUnit, otherAbove⟩)
    exact same ▸ List.prefix_rfl

theorem unitBranches_eq_ownBranches {root : Node} {unit : Address} (unitAt : UnitAt root unit) :
    unitBranches root unit = ownBranches root unit := by
  ext branch
  constructor
  · rintro ⟨branchAt, _, above, nearest⟩
    refine ⟨branchAt, above, ?_⟩
    intro other otherUnit below otherAbove
    exact below.2 (below.1.eq_of_length_le (nearest other otherUnit otherAbove).length_le)
  · rintro ⟨branchAt, above, noneBetween⟩
    exact ⟨branchAt, unitAt, above, fun _ => Address.prefix_of_nothingBetween above noneBetween⟩

/-! ### Counting the branches of one unit -/

theorem isBranch_congr {first second : Place} (sameNode : first.node = second.node)
    (sameParent : first.parent? = second.parent?) : isBranch first = isBranch second := by
  simp only [isBranch, sameNode, sameParent]

/-- Below a node it makes no difference what stands around the node. -/
theorem any_isBranch_placeWithin? {node : Node} {address : Address} (started : address ≠ [])
    (around others : List Node) :
    (node.placeWithin? around address).any isBranch =
      (node.placeWithin? others address).any isBranch := by
  obtain ⟨way, index, rfl⟩ : ∃ way index, address = way ++ [index] :=
    ⟨_, _, (List.dropLast_append_getLast started).symm⟩
  have nodes : (node.placeWithin? around (way ++ [index])).map (·.node) =
      (node.placeWithin? others (way ++ [index])).map (·.node) := by simp
  cases first : node.placeWithin? around (way ++ [index]) with
  | none =>
      rw [first, Option.map_none] at nodes
      rw [Option.map_eq_none_iff.mp nodes.symm]
  | some place =>
      cases second : node.placeWithin? others (way ++ [index]) with
      | none => simp [first, second] at nodes
      | some other =>
          refine isBranch_congr ?_ ?_
          · simpa [first, second] using nodes
          · rw [Node.parent?_of_placeWithin? first, Node.parent?_of_placeWithin? second]

/-- The addresses of the branches that are counted for a node, seen from it. -/
def branchAddresses (node : Node) : List Address :=
  (node.boundedAddresses fun inner => !isUnit inner).filter fun address =>
    (node.place? address).any isBranch

theorem length_branches (node : Node) :
    (branches node).length = (branchAddresses node).length := by
  rw [branches, Node.bounded_eq_filterMap, List.filter_filterMap, List.length_filterMap_eq_countP,
    branchAddresses, ← List.countP_eq_length_filter]
  refine List.countP_congr fun address _ => ?_
  cases node.place? address with
  | none => simp
  | some place => by_cases branch : isBranch place = true <;> simp [branch]

theorem branchAt_iff_any {root : Node} {address : Address} :
    BranchAt root address ↔ (root.place? address).any isBranch = true := by
  simp [BranchAt, Option.any_eq_true]

theorem branchAt_append {root : Node} {outer inner : Address} {place : Place}
    (found : root.place? outer = some place) (started : inner ≠ []) :
    BranchAt root (outer ++ inner) ↔ BranchAt place.node inner := by
  rw [branchAt_iff_any, branchAt_iff_any, Node.place?, Node.placeWithin?_append]
  change ((root.place? outer).bind _).any isBranch = true ↔ _
  rw [found, Option.bind_some, any_isBranch_placeWithin? started place.around []]
  rfl

theorem unitAt_append {root : Node} {outer inner : Address} {place : Place}
    (found : root.place? outer = some place) :
    UnitAt root (outer ++ inner) ↔ UnitAt place.node inner := by
  simp only [UnitAt, Node.at?_append, Node.at?_of_place? found, Option.bind_some]

theorem mem_branchAddresses {node : Node} {address : Address} :
    address ∈ branchAddresses node ↔
      BranchAt node address ∧ address ≠ [] ∧
        ∀ way, way ≠ [] → Address.Above way address → ¬ UnitAt node way := by
  rw [branchAddresses, Node.boundedAddresses, List.mem_filter, List.mem_filter, Node.mem_addresses,
    Node.reaches_iff, ← branchAt_iff_any]
  constructor
  · rintro ⟨⟨_, _, started, entered⟩, branch⟩
    refine ⟨branch, started, ?_⟩
    rintro way wayStarted above ⟨inner, found, unit⟩
    simpa [unit] using entered way inner wayStarted above found
  · rintro ⟨branch, started, noUnit⟩
    have present := Node.mem_addresses.mp (mem_addresses_of_branchAt branch)
    refine ⟨⟨present, present, started, ?_⟩, branch⟩
    intro way inner wayStarted above found
    by_cases unit : isUnit inner = true
    · exact absurd ⟨inner, found, unit⟩ (noUnit way wayStarted above)
    · simpa using unit

theorem ownBranches_eq_image {root : Node} {outer : Address} {place : Place}
    (found : root.place? outer = some place) :
    ownBranches root outer = (outer ++ ·) '' {inner | inner ∈ branchAddresses place.node} := by
  ext branch
  constructor
  · rintro ⟨branchAt, ⟨⟨inner, rfl⟩, different⟩, noUnit⟩
    have started : inner ≠ [] := fun same => different (by simp [same])
    refine ⟨inner, mem_branchAddresses.mpr ⟨(branchAt_append found started).mp branchAt, started,
      ?_⟩, rfl⟩
    intro way wayStarted above unit
    refine noUnit (outer ++ way) ((unitAt_append found).mpr unit)
      ⟨List.prefix_append outer way, by simpa using wayStarted⟩
      ⟨(List.prefix_append_right_inj outer).mpr above.1, by simpa using above.2⟩
  · rintro ⟨inner, counted, rfl⟩
    obtain ⟨branch, started, noUnit⟩ := mem_branchAddresses.mp counted
    refine ⟨(branchAt_append found started).mpr branch,
      ⟨List.prefix_append outer inner, by simpa using started⟩, ?_⟩
    intro unit unitAt below above
    rcases above.of_append with outward | ⟨way, wayStarted, rfl, wayAbove⟩
    · exact below.2 (below.1.eq_of_length_le outward.length_le)
    · exact noUnit way wayStarted wayAbove ((unitAt_append found).mp unitAt)

/-- The walk below a node counts each branch with no unit in between once. -/
theorem length_branches_eq_ncard {root : Node} {outer : Address} {place : Place}
    (found : root.place? outer = some place) :
    (branches place.node).length = (ownBranches root outer).ncard := by
  have distinct : (branchAddresses place.node).Nodup :=
    (place.node.addresses_nodup.filter _).filter _
  rw [ownBranches_eq_image found, Set.ncard_image_of_injective _ (List.append_right_injective outer),
    ncard_setOf_mem distinct, length_branches]

end SolutionSurvey.Complexity

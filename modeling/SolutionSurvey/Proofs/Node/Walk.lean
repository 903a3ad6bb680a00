import Mathlib.Data.List.Basic
import SolutionSurvey.Proofs.Node.Address

/-!
# What walks go through

The full walk goes through every address of a tree.  A bounded walk goes through those below its
start to which a way leads that enters every node on it.
-/

namespace SolutionSurvey.Node

theorem map_eq_map_some_filterMap {α : Type} {look : Address → Option α} {addresses : List Address}
    (found : ∀ address ∈ addresses, (look address).isSome) :
    addresses.map look = (addresses.filterMap look).map some := by
  induction addresses with
  | nil => rfl
  | cons head rest inductionHypothesis =>
      obtain ⟨item, atHead⟩ := Option.isSome_iff_exists.mp (found head List.mem_cons_self)
      rw [List.filterMap_cons, atHead, List.map_cons, List.map_cons, atHead,
        inductionHypothesis fun address membership =>
          found address (List.mem_cons_of_mem head membership)]

/-- Some nodes are the children of a node from an index on. -/
def ChildrenFrom (parent : Node) (index : Nat) (nodes : List Node) : Prop :=
  ∀ offset, parent.children[index + offset]? = nodes[offset]?

theorem childrenFrom_zero (node : Node) : ChildrenFrom node 0 node.children := by
  intro offset
  rw [Nat.zero_add]

theorem ChildrenFrom.head {parent head : Node} {index : Nat} {rest : List Node}
    (children : ChildrenFrom parent index (head :: rest)) : parent.children[index]? = some head :=
  children 0

theorem ChildrenFrom.tail {parent head : Node} {index : Nat} {rest : List Node}
    (children : ChildrenFrom parent index (head :: rest)) : ChildrenFrom parent (index + 1) rest := by
  intro offset
  rw [Nat.add_assoc, Nat.add_comm 1]
  exact children (offset + 1)

/-! ### The full walk -/

theorem placesAmong_eq_filterMap {around : List Node} {parent : Node} {children : List Node}
    (inner : ∀ child ∈ children, ∀ around,
      placesWithin around child = child.addresses.filterMap (child.placeWithin? around))
    {index : Nat} (aligned : ChildrenFrom parent index children) :
    placesAmong (parent :: around) children =
      (addressesAmong index children).filterMap (parent.placeWithin? around) := by
  induction children generalizing index with
  | nil => rfl
  | cons head rest inductionHypothesis =>
      have atIndex := aligned.head
      rw [placesAmong, addressesAmong, List.filterMap_append, List.filterMap_map,
        inner head List.mem_cons_self,
        inductionHypothesis (fun child membership => inner child (List.mem_cons_of_mem head membership))
          aligned.tail]
      congr 1
      refine List.filterMap_congr fun address _ => ?_
      simp [placeWithin?_cons, atIndex]

/-- The full walk goes through the places at all addresses, in the order of the text. -/
theorem placesWithin_eq_filterMap (around : List Node) (node : Node) :
    placesWithin around node = node.addresses.filterMap (node.placeWithin? around) := by
  induction node using inductionOnChildren generalizing around with
  | step description children inductionHypothesis =>
      rw [placesWithin, addresses, List.filterMap_cons, placeWithin?_nil]
      congr 1
      exact placesAmong_eq_filterMap inductionHypothesis
        (childrenFrom_zero (node description children))

theorem places_eq_filterMap (root : Node) : root.places = root.addresses.filterMap root.place? :=
  placesWithin_eq_filterMap [] root

theorem map_node_places (root : Node) :
    root.places.map (·.node) = root.addresses.filterMap root.at? := by
  rw [places_eq_filterMap, List.map_filterMap]
  exact List.filterMap_congr fun address _ => map_node_place? root address

theorem ofKinds_places (kinds : List String) (root : Node) :
    ofKinds kinds root.places = root.addresses.filterMap fun address =>
      (root.at? address).filter fun node => kinds.contains node.kind := by
  rw [ofKinds, map_node_places, List.filter_filterMap]

theorem mem_places {root : Node} {place : Place} :
    place ∈ root.places ↔ ∃ address, root.place? address = some place := by
  rw [places_eq_filterMap, List.mem_filterMap]
  constructor
  · rintro ⟨address, _, found⟩
    exact ⟨address, found⟩
  · rintro ⟨address, found⟩
    refine ⟨address, ?_, found⟩
    rw [mem_addresses, at?_of_place? found]
    rfl

/-! ### Bounded walks -/

/-- Whether a walk that starts at a node gets to an address below it: every node on the way is
entered. -/
def reaches (enter : Node → Bool) : Node → Address → Bool
  | _, [] => false
  | start, index :: rest =>
      match start.children[index]? with
      | none => false
      | some child => rest.isEmpty || (enter child && child.reaches enter rest)

@[simp]
theorem reaches_nil (enter : Node → Bool) (start : Node) : start.reaches enter [] = false := by
  cases start
  rfl

theorem reaches_cons {enter : Node → Bool} {start child : Node} {index : Nat}
    (atIndex : start.children[index]? = some child) (rest : Address) :
    start.reaches enter (index :: rest) = (rest.isEmpty || (enter child && child.reaches enter rest)) := by
  cases start
  simp only [reaches, atIndex]

/-- A bounded walk gets to what is below its start, unless there is a node in between that it does
not enter. -/
theorem reaches_iff {enter : Node → Bool} {start : Node} {address : Address} :
    start.reaches enter address = true ↔
      (start.at? address).isSome ∧ address ≠ [] ∧
        ∀ way node, way ≠ [] → Address.Above way address → start.at? way = some node →
          enter node = true := by
  induction address generalizing start with
  | nil => simp
  | cons index rest inductionHypothesis =>
      cases atIndex : start.children[index]? with
      | none =>
          obtain ⟨description, children⟩ := start
          simp [reaches, at?_cons, atIndex]
      | some child =>
          rw [reaches_cons atIndex]
          cases rest with
          | nil =>
              simp only [List.isEmpty_nil, Bool.true_or, true_iff]
              refine ⟨by simp [at?_cons, atIndex], by simp, ?_⟩
              intro way node started above _
              obtain ⟨inner, _, aboveNil⟩ := above.exists_eq_cons started
              exact absurd aboveNil (Address.not_above_nil inner)
          | cons second others =>
              simp only [List.isEmpty_cons, Bool.false_or, Bool.and_eq_true, inductionHypothesis]
              constructor
              · rintro ⟨entered, present, _, allEntered⟩
                refine ⟨by simpa [at?_cons, atIndex] using present, by simp, ?_⟩
                intro way node started above found
                obtain ⟨inner, rfl, aboveRest⟩ := above.exists_eq_cons started
                simp only [at?_cons, atIndex, Option.bind_some] at found
                by_cases here : inner = []
                · subst here
                  simp only [at?_nil, Option.some.injEq] at found
                  exact found ▸ entered
                · exact allEntered inner node here aboveRest found
              · rintro ⟨present, _, allEntered⟩
                have present' : (child.at? (second :: others)).isSome := by
                  simpa [at?_cons, atIndex] using present
                refine ⟨?_, present', by simp, ?_⟩
                · exact allEntered [index] child (by simp)
                    (Address.cons_above_cons_iff.mpr ⟨List.nil_prefix, by simp⟩)
                    (by simp [at?_cons, atIndex])
                · intro way node _ above found
                  exact allEntered (index :: way) node (by simp)
                    (Address.cons_above_cons_iff.mpr above) (by simp [at?_cons, atIndex, found])

def boundedAddresses (enter : Node → Bool) (start : Node) : List Address :=
  start.addresses.filter (start.reaches enter)

/-- One child of a bounded walk: the child itself, and what is below it if it is entered. -/
theorem filter_reaches_map_cons {enter : Node → Bool} {start child : Node} {index : Nat}
    (atIndex : start.children[index]? = some child) :
    (child.addresses.map (index :: ·)).filter (start.reaches enter) =
      [index] :: (if enter child then (child.boundedAddresses enter).map (index :: ·) else []) := by
  obtain ⟨description, children⟩ := child
  rw [boundedAddresses, addresses, List.map_cons, List.filter_cons, reaches_cons atIndex]
  simp only [List.isEmpty_nil, Bool.true_or, if_true, List.filter_map, List.filter_cons,
    reaches_nil, Bool.false_eq_true, if_false, List.cons.injEq, true_and]
  by_cases entered : enter (.node description children) = true
  · rw [if_pos entered]
    congr 1
    refine List.filter_congr fun address membership => ?_
    obtain ⟨offset, rest, inner, rfl, _, _⟩ := mem_addressesAmong.mp membership
    simp [reaches_cons atIndex, entered]
  · rw [if_neg entered, List.map_eq_nil_iff, List.filter_eq_nil_iff]
    intro address membership
    obtain ⟨offset, rest, inner, rfl, _, _⟩ := mem_addressesAmong.mp membership
    simp [reaches_cons atIndex, entered]

theorem boundedAmong_eq_filterMap {enter : Node → Bool} {around : List Node} {parent : Node}
    {children : List Node}
    (inner : ∀ child ∈ children, ∀ around, boundedWithin enter around child =
      (child.boundedAddresses enter).filterMap (child.placeWithin? around))
    {index : Nat} (aligned : ChildrenFrom parent index children) :
    boundedAmong enter (parent :: around) children =
      ((addressesAmong index children).filter (parent.reaches enter)).filterMap
        (parent.placeWithin? around) := by
  induction children generalizing index with
  | nil => rfl
  | cons head rest inductionHypothesis =>
      have atIndex := aligned.head
      have below : ((head.boundedAddresses enter).map (index :: ·)).filterMap
          (parent.placeWithin? around) = boundedWithin enter (parent :: around) head := by
        rw [inner head List.mem_cons_self, List.filterMap_map]
        refine List.filterMap_congr fun address _ => ?_
        simp [placeWithin?_cons, atIndex]
      rw [boundedAmong, addressesAmong, List.filter_append, filter_reaches_map_cons atIndex,
        List.filterMap_append, List.filterMap_cons, placeWithin?_cons, atIndex,
        inductionHypothesis (fun child membership => inner child (List.mem_cons_of_mem head membership))
          aligned.tail]
      simp only [Option.bind_some, placeWithin?_nil, List.cons_append, List.cons.injEq, true_and]
      by_cases entered : enter head = true
      · simp [entered, below]
      · simp [entered]

/-- A bounded walk goes through the places at the addresses that it reaches, in the order of the
text. -/
theorem boundedWithin_eq_filterMap (enter : Node → Bool) (around : List Node) (node : Node) :
    boundedWithin enter around node =
      (node.boundedAddresses enter).filterMap (node.placeWithin? around) := by
  induction node using inductionOnChildren generalizing around with
  | step description children inductionHypothesis =>
      rw [boundedWithin, boundedAddresses, addresses, List.filter_cons, reaches_nil, if_neg (by simp)]
      exact boundedAmong_eq_filterMap inductionHypothesis
        (childrenFrom_zero (node description children))

theorem bounded_eq_filterMap (enter : Node → Bool) (start : Node) :
    start.bounded enter = (start.boundedAddresses enter).filterMap start.place? :=
  boundedWithin_eq_filterMap enter [] start

end SolutionSurvey.Node

import SolutionSurvey.Node.Walk

/-!
# Addresses of nodes

Equal nodes may stand in several places of a tree, so a node is told apart by its address: the
positions of the children on the way down to it.  The addresses of a tree are listed in the order of
the text, each once, and the full walk through a tree goes through the places at these addresses.
-/

namespace SolutionSurvey

/-- The positions of the children on the way from a node down to another one. -/
abbrev Address := List Nat

namespace Address

/-- The first address is on the way to the second, and is not the second itself. -/
def Above (outer inner : Address) : Prop := outer <+: inner ∧ outer ≠ inner

theorem not_above_nil (outer : Address) : ¬ outer.Above [] := by
  rintro ⟨onWay, different⟩
  exact different (List.prefix_nil.mp onWay)

theorem cons_above_cons_iff {index : Nat} {outer inner : Address} :
    Above (index :: outer) (index :: inner) ↔ outer.Above inner := by
  simp [Above, List.cons_prefix_cons]

theorem Above.trans {first second third : Address} (above : first.Above second)
    (aboveToo : second.Above third) : first.Above third := by
  refine ⟨above.1.trans aboveToo.1, ?_⟩
  rintro rfl
  exact above.2 (above.1.eq_of_length_le aboveToo.1.length_le)

theorem Above.not_above {first second : Address} (above : first.Above second) :
    ¬ second.Above first := fun back => (above.trans back).2 rfl

theorem Above.length_lt {outer inner : Address} (above : outer.Above inner) :
    outer.length < inner.length :=
  Nat.lt_of_le_of_ne above.1.length_le fun same => above.2 (above.1.eq_of_length same)

theorem above_append_iff {outer rest : Address} : outer.Above (outer ++ rest) ↔ rest ≠ [] := by
  simp [Above]

theorem Above.exists_append {outer inner : Address} (above : outer.Above inner) :
    ∃ rest, rest ≠ [] ∧ inner = outer ++ rest := by
  obtain ⟨rest, rfl⟩ := above.1
  exact ⟨rest, above_append_iff.mp above, rfl⟩

theorem append_above_append_iff {first outer inner : Address} :
    Above (first ++ outer) (first ++ inner) ↔ outer.Above inner := by
  simp [Above, List.prefix_append_right_inj]

/-- Something strictly above an address that is not the start goes down the same child first. -/
theorem Above.exists_eq_cons {outer rest : Address} {index : Nat}
    (above : outer.Above (index :: rest)) (started : outer ≠ []) :
    ∃ way, outer = index :: way ∧ Above way rest := by
  cases outer with
  | nil => exact absurd rfl started
  | cons first way =>
      obtain ⟨rfl, _⟩ := List.cons_prefix_cons.mp above.1
      exact ⟨way, rfl, cons_above_cons_iff.mp above⟩

/-- If nothing of a sort lies between two addresses, whatever of the sort is above the inner one is on
the way to the outer one. -/
theorem prefix_of_nothingBetween {holds : Address → Prop} {outer inner other : Address}
    (below : outer.Above inner)
    (nothingBetween : ∀ other, holds other → outer.Above other → ¬ other.Above inner)
    (held : holds other) (above : other.Above inner) : other <+: outer := by
  rcases List.prefix_or_prefix_of_prefix above.1 below.1 with outward | inward
  · exact outward
  · by_cases same : outer = other
    · exact same ▸ List.prefix_rfl
    · exact absurd above (nothingBetween other held ⟨inward, same⟩)

/-- What is above an address that goes through a given one is on the way to the given one, or goes
through it as well. -/
theorem Above.of_append {outer first second : Address} (above : outer.Above (first ++ second)) :
    outer <+: first ∨ ∃ way, way ≠ [] ∧ outer = first ++ way ∧ Above way second := by
  rcases List.prefix_or_prefix_of_prefix above.1 (List.prefix_append first second) with
    onWay | ⟨way, rfl⟩
  · exact .inl onWay
  · by_cases started : way = []
    · subst started
      exact .inl (by simp)
    · refine .inr ⟨way, started, rfl, (List.prefix_append_right_inj first).mp above.1, ?_⟩
      exact fun same => above.2 (by rw [same])

end Address

namespace Node

def at? : Node → Address → Option Node
  | start, [] => some start
  | start, index :: rest => (start.children[index]?).bind fun child => child.at? rest

def placeWithin? (around : List Node) : Node → Address → Option Place
  | start, [] => some ⟨start, around⟩
  | start, index :: rest =>
      (start.children[index]?).bind fun child => placeWithin? (start :: around) child rest

def place? (root : Node) (address : Address) : Option Place := placeWithin? [] root address

mutual

def addresses : Node → List Address
  | node _ children => [] :: addressesAmong 0 children

def addressesAmong (index : Nat) : List Node → List Address
  | [] => []
  | child :: rest => (addresses child).map (index :: ·) ++ addressesAmong (index + 1) rest

end

/-- What holds of a node whenever it holds of its children holds of every node. -/
theorem inductionOnChildren {property : Node → Prop}
    (step : ∀ description children, (∀ child ∈ children, property child) →
      property (.node description children)) :
    ∀ tree, property tree
  | .node description children =>
      step description children fun child membership =>
        have := List.sizeOf_lt_of_mem membership
        inductionOnChildren step child

/-! ### Nodes and places at addresses -/

@[simp]
theorem at?_nil (node : Node) : node.at? [] = some node := by
  cases node
  rfl

theorem at?_cons (node : Node) (index : Nat) (rest : Address) :
    node.at? (index :: rest) = (node.children[index]?).bind fun child => child.at? rest := by
  cases node
  rfl

theorem at?_append (node : Node) (first second : Address) :
    node.at? (first ++ second) = (node.at? first).bind fun inner => inner.at? second := by
  induction first generalizing node with
  | nil => simp
  | cons index rest inductionHypothesis =>
      rw [List.cons_append, at?_cons, at?_cons]
      cases node.children[index]? with
      | none => rfl
      | some child => exact inductionHypothesis child

theorem at?_below {node inner : Node} {first : Address} (found : node.at? first = some inner)
    (second : Address) : node.at? (first ++ second) = inner.at? second := by
  rw [at?_append, found, Option.bind_some]

@[simp]
theorem placeWithin?_nil (around : List Node) (node : Node) :
    node.placeWithin? around [] = some ⟨node, around⟩ := by
  cases node
  rfl

theorem placeWithin?_cons (around : List Node) (node : Node) (index : Nat) (rest : Address) :
    node.placeWithin? around (index :: rest) =
      (node.children[index]?).bind fun child => child.placeWithin? (node :: around) rest := by
  cases node
  rfl

theorem placeWithin?_append (around : List Node) (node : Node) (first second : Address) :
    node.placeWithin? around (first ++ second) =
      (node.placeWithin? around first).bind fun place =>
        place.node.placeWithin? place.around second := by
  induction first generalizing node around with
  | nil => simp
  | cons index rest inductionHypothesis =>
      rw [List.cons_append, placeWithin?_cons, placeWithin?_cons]
      cases node.children[index]? with
      | none => rfl
      | some child => exact inductionHypothesis (node :: around) child

@[simp]
theorem map_node_placeWithin? (around : List Node) (node : Node) (address : Address) :
    (node.placeWithin? around address).map (·.node) = node.at? address := by
  induction address generalizing node around with
  | nil => simp
  | cons index rest inductionHypothesis =>
      rw [placeWithin?_cons, at?_cons]
      cases node.children[index]? with
      | none => rfl
      | some child => exact inductionHypothesis (node :: around) child

theorem map_node_place? (root : Node) (address : Address) :
    (root.place? address).map (·.node) = root.at? address :=
  map_node_placeWithin? [] root address

theorem at?_of_place? {root : Node} {address : Address} {place : Place}
    (found : root.place? address = some place) : root.at? address = some place.node := by
  rw [← map_node_place?, found]
  rfl

theorem parent?_of_placeWithin? {around : List Node} {node : Node} {address : Address}
    {index : Nat} {place : Place} (found : node.placeWithin? around (address ++ [index]) = some place) :
    place.parent? = node.at? address := by
  rw [placeWithin?_append] at found
  rw [← map_node_placeWithin? around]
  cases upper : node.placeWithin? around address with
  | none => simp [upper] at found
  | some parent =>
      simp only [upper, Option.bind_some, placeWithin?_cons, placeWithin?_nil] at found
      cases child : parent.node.children[index]? with
      | none => simp [child] at found
      | some inner =>
          simp only [child, Option.bind_some, Option.some.injEq] at found
          simp [← found, Place.parent?]

/-! ### Listing the addresses -/

theorem mem_addressesAmong {index : Nat} {children : List Node} {address : Address} :
    address ∈ addressesAmong index children ↔
      ∃ offset rest child, address = (index + offset) :: rest ∧
        children[offset]? = some child ∧ rest ∈ child.addresses := by
  induction children generalizing index with
  | nil => simp [addressesAmong]
  | cons head tail inductionHypothesis =>
      simp only [addressesAmong, List.mem_append, List.mem_map, inductionHypothesis]
      constructor
      · rintro (⟨rest, inHead, rfl⟩ | ⟨offset, rest, child, rfl, atOffset, inChild⟩)
        · exact ⟨0, rest, head, rfl, rfl, inHead⟩
        · exact ⟨offset + 1, rest, child, by rw [Nat.add_assoc, Nat.add_comm 1], atOffset, inChild⟩
      · rintro ⟨offset, rest, child, rfl, atOffset, inChild⟩
        cases offset with
        | zero =>
            simp only [List.getElem?_cons_zero, Option.some.injEq] at atOffset
            subst atOffset
            exact .inl ⟨rest, inChild, rfl⟩
        | succ offset =>
            exact .inr ⟨offset, rest, child, by rw [Nat.add_assoc, Nat.add_comm 1], atOffset,
              inChild⟩

theorem mem_addresses {node : Node} {address : Address} :
    address ∈ node.addresses ↔ (node.at? address).isSome := by
  induction node using inductionOnChildren generalizing address with
  | step description children inductionHypothesis =>
      cases address with
      | nil => simp [addresses]
      | cons index rest =>
          simp only [addresses, List.mem_cons, reduceCtorEq, false_or, mem_addressesAmong,
            at?_cons, Node.children]
          constructor
          · rintro ⟨offset, inner, child, sameAddress, atOffset, inChild⟩
            simp only [Nat.zero_add, List.cons.injEq] at sameAddress
            obtain ⟨rfl, rfl⟩ := sameAddress
            simpa [atOffset] using
              (inductionHypothesis child (List.mem_of_getElem? atOffset)).mp inChild
          · intro found
            cases atIndex : children[index]? with
            | none => simp [atIndex] at found
            | some child =>
                refine ⟨index, rest, child, by rw [Nat.zero_add], atIndex, ?_⟩
                refine (inductionHypothesis child (List.mem_of_getElem? atIndex)).mpr ?_
                simpa [atIndex] using found

theorem addressesAmong_ascending {children : List Node}
    (inner : ∀ child ∈ children, child.addresses.Pairwise (· < ·)) (index : Nat) :
    (addressesAmong index children).Pairwise (· < ·) := by
  induction children generalizing index with
  | nil => exact .nil
  | cons head tail inductionHypothesis =>
      refine List.pairwise_append.mpr ⟨?_, ?_, ?_⟩
      · refine List.pairwise_map.mpr ((inner head (by simp)).imp ?_)
        intro earlier later before
        exact List.cons_lt_cons_iff.mpr (.inr ⟨rfl, before⟩)
      · exact inductionHypothesis (fun child membership => inner child (by simp [membership])) _
      · intro earlier inHead later inTail
        obtain ⟨first, _, rfl⟩ := List.mem_map.mp inHead
        obtain ⟨offset, rest, child, rfl, _, _⟩ := mem_addressesAmong.mp inTail
        exact List.cons_lt_cons_iff.mpr (.inl (by omega))

/-- Addresses are listed in the order of the text, a node before what is below it. -/
theorem addresses_ascending (node : Node) : node.addresses.Pairwise (· < ·) := by
  induction node using inductionOnChildren with
  | step description children inductionHypothesis =>
      refine List.pairwise_cons.mpr ⟨?_, addressesAmong_ascending inductionHypothesis 0⟩
      intro address membership
      obtain ⟨offset, rest, child, rfl, _, _⟩ := mem_addressesAmong.mp membership
      exact List.nil_lt_cons _ _

theorem addresses_nodup (node : Node) : node.addresses.Nodup := by
  refine (addresses_ascending node).imp ?_
  rintro earlier later before rfl
  exact List.lt_irrefl _ before

/-! ### Trees written out -/

def written (kind : String) (fields : List String) (line lastLine : Nat) (text : String)
    (children : List Node) : Node :=
  node { kind, named := true, faulty := false, damaged := false, fields, line, lastLine, text }
    children

def sign (line : Nat) (text : String) : Node :=
  node { kind := text, named := false, faulty := false, damaged := false, fields := [], line
         lastLine := line, text } []

end Node

end SolutionSurvey

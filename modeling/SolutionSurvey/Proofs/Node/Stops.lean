import Mathlib.Order.WellFounded
import SolutionSurvey.Proofs.Node.Walk

/-!
# Where bounded walks stop

A bounded walk stops at a node that it does not enter.  Starting at any node of a tree, it goes
through what lies below the start with no stop in between, and whatever else lies below the start
lies below exactly one of the nodes at which the walk stops.
-/

namespace SolutionSurvey.Node

def StopAt (enter : Node → Bool) (root : Node) (address : Address) : Prop :=
  ∃ node, root.at? address = some node ∧ enter node = false

/-- What a walk from an address gets to: what lies below, with no stop strictly in between. -/
structure Reached (enter : Node → Bool) (root : Node) (outer inner : Address) : Prop where
  present : (root.at? inner).isSome
  below : outer.Above inner
  noStop : ∀ between, outer.Above between → between.Above inner → ¬ StopAt enter root between

/-- What the bounded walk from a place of a tree has to do with the full one. -/
structure WalksToStops (enter : Node → Bool) (root : Node) (outer : Address) (start : Place) :
    Prop where
  /-- The full walk goes through the start and all below it, each once, in the order of the text: in
  this order addresses ascend. -/
  full : ∃ addresses : List Address, addresses.Pairwise (· < ·) ∧
    (∀ inner, inner ∈ addresses ↔ (root.at? inner).isSome ∧ outer <+: inner) ∧
    addresses.map root.place? = (placesWithin start.around start.node).map some
  /-- The bounded walk goes through what it gets to in the same way. -/
  bounded : ∃ addresses : List Address, addresses.Pairwise (· < ·) ∧
    (∀ inner, inner ∈ addresses ↔ Reached enter root outer inner) ∧
    addresses.map root.place? = (boundedWithin enter start.around start.node).map some
  /-- It makes no difference whether the start itself is one to be entered. -/
  startUntested : ∀ other : Node → Bool, (∀ node, node ≠ start.node → other node = enter node) →
    boundedWithin other start.around start.node = boundedWithin enter start.around start.node
  /-- A walk that stops nowhere leaves out nothing but the start. -/
  unbounded : (∀ node, enter node = true) →
    placesWithin start.around start.node = start :: boundedWithin enter start.around start.node
  /-- What the walk does not get to lies below exactly one node that it gets to and stops at. -/
  covered : ∀ inner, (root.at? inner).isSome → outer.Above inner →
    (¬ Reached enter root outer inner ↔
      ∃! stop, Reached enter root outer stop ∧ StopAt enter root stop ∧ stop.Above inner)

/-! ### Walks in a tree -/

theorem place?_append {root : Node} {outer : Address} {start : Place}
    (found : root.place? outer = some start) (inner : Address) :
    root.place? (outer ++ inner) = start.node.placeWithin? start.around inner := by
  rw [place?, placeWithin?_append]
  exact congrArg (Option.bind · _) found

/-- A walk from a place gets to what it reaches seen from there. -/
theorem reached_append_iff {enter : Node → Bool} {root : Node} {outer inner : Address}
    {start : Place} (found : root.place? outer = some start) :
    Reached enter root outer (outer ++ inner) ↔ start.node.reaches enter inner = true := by
  have seen : ∀ way, root.at? (outer ++ way) = start.node.at? way :=
    at?_below (at?_of_place? found)
  rw [reaches_iff]
  constructor
  · rintro ⟨present, below, noStop⟩
    refine ⟨seen inner ▸ present, Address.above_append_iff.mp below, ?_⟩
    intro way node started above foundNode
    by_contra stopped
    exact noStop (outer ++ way) (Address.above_append_iff.mpr started)
      (Address.append_above_append_iff.mpr above)
      ⟨node, (seen way).trans foundNode, Bool.eq_false_iff.mpr stopped⟩
  · rintro ⟨present, started, entered⟩
    refine ⟨(seen inner).symm ▸ present, Address.above_append_iff.mpr started, ?_⟩
    rintro between below above ⟨node, foundNode, stopped⟩
    obtain ⟨way, wayStarted, rfl⟩ := below.exists_append
    have isEntered := entered way node wayStarted (Address.append_above_append_iff.mp above)
      ((seen way).symm.trans foundNode)
    exact Bool.noConfusion (stopped.symm.trans isEntered)

theorem ascending_map_append {addresses : List Address} (outer : Address)
    (ascending : addresses.Pairwise (· < ·)) : (addresses.map (outer ++ ·)).Pairwise (· < ·) := by
  refine List.pairwise_map.mpr (ascending.imp fun {earlier later} before => ?_)
  induction outer with
  | nil => exact before
  | cons index outer inductionHypothesis =>
      exact List.cons_lt_cons_iff.mpr (.inr ⟨rfl, inductionHypothesis⟩)

/-- Addresses seen from a place and the places that are found at them in the tree. -/
theorem map_place?_append {root : Node} {outer : Address} {start : Place}
    (found : root.place? outer = some start) {addresses : List Address}
    (listed : ∀ inner ∈ addresses, inner ∈ start.node.addresses) :
    (addresses.map (outer ++ ·)).map root.place? =
      (addresses.filterMap (start.node.placeWithin? start.around)).map some := by
  rw [List.map_map, ← map_eq_map_some_filterMap]
  · exact List.map_congr_left fun inner _ => place?_append found inner
  · intro inner membership
    rw [← Option.isSome_map, map_node_placeWithin?]
    exact mem_addresses.mp (listed inner membership)

/-! ### The start -/

theorem sizeOf_lt_of_at? {node inner : Node} {address : Address}
    (found : node.at? address = some inner) (started : address ≠ []) :
    sizeOf inner < sizeOf node := by
  induction address generalizing node with
  | nil => exact absurd rfl started
  | cons index rest inductionHypothesis =>
      obtain ⟨description, children⟩ := node
      obtain ⟨child, isChild, foundBelow⟩ := Option.bind_eq_some_iff.mp (at?_cons _ _ _ ▸ found)
      have smaller : sizeOf child < sizeOf (Node.node description children) := by
        have within : child ∈ children := List.mem_of_getElem? isChild
        have := List.sizeOf_lt_of_mem within
        rw [Node.node.sizeOf_spec]
        omega
      by_cases here : rest = []
      · subst here
        rw [at?_nil, Option.some.injEq] at foundBelow
        exact foundBelow ▸ smaller
      · exact (inductionHypothesis foundBelow here).trans smaller

/-- A walk does not come to its start again. -/
theorem node_ne_of_mem_boundedWithin {enter : Node → Bool} {around : List Node} {start : Node}
    {place : Place} (visited : place ∈ boundedWithin enter around start) : place.node ≠ start := by
  rw [boundedWithin_eq_filterMap] at visited
  obtain ⟨address, reached, placed⟩ := List.mem_filterMap.mp visited
  have found : start.at? address = some place.node := by
    rw [← map_node_placeWithin? around, placed]
    rfl
  have started : address ≠ [] := (reaches_iff.mp (List.mem_filter.mp reached).2).2.1
  intro same
  exact absurd (sizeOf_lt_of_at? found started) (same ▸ lt_irrefl _)

theorem boundedAmong_congr {enter other : Node → Bool} {around : List Node} {children : List Node}
    (inner : ∀ child ∈ children, ∀ around,
      (∀ place ∈ boundedWithin enter around child, other place.node = enter place.node) →
        boundedWithin other around child = boundedWithin enter around child)
    (agree : ∀ place ∈ boundedAmong enter around children, other place.node = enter place.node) :
    boundedAmong other around children = boundedAmong enter around children := by
  induction children with
  | nil => rfl
  | cons head rest inductionHypothesis =>
      simp only [boundedAmong, List.mem_cons, List.mem_append, or_imp, forall_and] at agree
      obtain ⟨here, below, beside⟩ := agree
      have same : other head = enter head := here ⟨head, around⟩ rfl
      rw [boundedAmong, boundedAmong, same, inductionHypothesis
        (fun child membership => inner child (List.mem_cons_of_mem head membership)) beside]
      by_cases entered : enter head = true
      · rw [if_pos entered] at below ⊢
        rw [inner head List.mem_cons_self around below, if_pos entered]
      · rw [if_neg entered, if_neg entered]

/-- A walk asks whether a node is entered of those nodes only that it comes to. -/
theorem boundedWithin_congr {enter other : Node → Bool} {around : List Node} {node : Node}
    (agree : ∀ place ∈ boundedWithin enter around node, other place.node = enter place.node) :
    boundedWithin other around node = boundedWithin enter around node := by
  induction node using inductionOnChildren generalizing around with
  | step description children inductionHypothesis =>
      rw [boundedWithin] at agree
      rw [boundedWithin, boundedWithin]
      exact boundedAmong_congr (fun child membership around => inductionHypothesis child membership)
        agree

/-! ### No stops -/

theorem placesWithin_eq_cons {enter : Node → Bool} (entersAll : ∀ node, enter node = true)
    (around : List Node) (node : Node) :
    placesWithin around node = ⟨node, around⟩ :: boundedWithin enter around node := by
  induction node using inductionOnChildren generalizing around with
  | step description children inductionHypothesis =>
      rw [placesWithin, boundedWithin]
      congr 1
      -- What stands around the children does not change on the way through them.
      generalize node description children :: around = aroundChildren
      induction children with
      | nil => rfl
      | cons head rest besides =>
          rw [placesAmong, boundedAmong, if_pos (entersAll head),
            inductionHypothesis head List.mem_cons_self, List.cons_append,
            besides fun child membership =>
              inductionHypothesis child (List.mem_cons_of_mem head membership)]

/-! ### Stops -/

/-- Of the stops above an address the outermost one is reached. -/
theorem exists_outermost_stop {enter : Node → Bool} {root : Node} {outer inner between : Address}
    (below : outer.Above between) (above : between.Above inner) (stopped : StopAt enter root between) :
    ∃ stop, Reached enter root outer stop ∧ StopAt enter root stop ∧ stop.Above inner := by
  -- The outermost stop is the one with the shortest address.
  obtain ⟨stop, ⟨stopBelow, stopAbove, stopStopped⟩, outermost⟩ :=
    (measure fun stop : Address => stop.length).wf.has_min
      {stop : Address | outer.Above stop ∧ stop.Above inner ∧ StopAt enter root stop}
      ⟨between, below, above, stopped⟩
  have present : (root.at? stop).isSome := by
    obtain ⟨node, found, _⟩ := stopStopped
    rw [found]
    rfl
  refine ⟨stop, ⟨present, stopBelow, ?_⟩, stopStopped, stopAbove⟩
  intro other otherBelow otherAbove otherStopped
  exact outermost other ⟨otherBelow, otherAbove.trans stopAbove, otherStopped⟩ otherAbove.length_lt

/-- Of two stops above an address a walk gets to one only. -/
theorem Reached.stop_unique {enter : Node → Bool} {root : Node} {outer inner first second : Address}
    (reachedFirst : Reached enter root outer first) (stopFirst : StopAt enter root first)
    (aboveFirst : first.Above inner) (reachedSecond : Reached enter root outer second)
    (stopSecond : StopAt enter root second) (aboveSecond : second.Above inner) : first = second := by
  by_contra different
  rcases List.prefix_or_prefix_of_prefix aboveFirst.1 aboveSecond.1 with outward | inward
  · exact reachedSecond.noStop first reachedFirst.below ⟨outward, different⟩ stopFirst
  · exact reachedFirst.noStop second reachedSecond.below ⟨inward, Ne.symm different⟩ stopSecond

theorem not_reached_iff {enter : Node → Bool} {root : Node} {outer inner : Address}
    (present : (root.at? inner).isSome) (below : outer.Above inner) :
    ¬ Reached enter root outer inner ↔
      ∃! stop, Reached enter root outer stop ∧ StopAt enter root stop ∧ stop.Above inner := by
  constructor
  · intro unreached
    obtain ⟨between, betweenBelow, betweenAbove, stopped⟩ : ∃ between, outer.Above between ∧
        between.Above inner ∧ StopAt enter root between := by
      by_contra none
      exact unreached ⟨present, below, fun between betweenBelow betweenAbove stopped =>
        none ⟨between, betweenBelow, betweenAbove, stopped⟩⟩
    obtain ⟨stop, reached, stopStopped, above⟩ :=
      exists_outermost_stop betweenBelow betweenAbove stopped
    refine ⟨stop, ⟨reached, stopStopped, above⟩, ?_⟩
    rintro other ⟨otherReached, otherStopped, otherAbove⟩
    exact otherReached.stop_unique otherStopped otherAbove reached stopStopped above
  · rintro ⟨stop, ⟨reached, stopped, above⟩, _⟩ reachedToo
    exact reachedToo.noStop stop reached.below above stopped

/-! ### What a walk goes through -/

theorem mem_map_append_addresses {root : Node} {outer inner : Address} {start : Place}
    (found : root.place? outer = some start) :
    inner ∈ start.node.addresses.map (outer ++ ·) ↔ (root.at? inner).isSome ∧ outer <+: inner := by
  have seen : ∀ way, root.at? (outer ++ way) = start.node.at? way :=
    at?_below (at?_of_place? found)
  rw [List.mem_map]
  constructor
  · rintro ⟨way, listed, rfl⟩
    exact ⟨(seen way).symm ▸ mem_addresses.mp listed, List.prefix_append outer way⟩
  · rintro ⟨present, way, rfl⟩
    exact ⟨way, mem_addresses.mpr (seen way ▸ present), rfl⟩

theorem mem_map_append_boundedAddresses {enter : Node → Bool} {root : Node} {outer inner : Address}
    {start : Place} (found : root.place? outer = some start) :
    inner ∈ (start.node.boundedAddresses enter).map (outer ++ ·) ↔
      Reached enter root outer inner := by
  rw [List.mem_map]
  constructor
  · rintro ⟨way, listed, rfl⟩
    exact (reached_append_iff found).mpr (List.mem_filter.mp listed).2
  · intro reached
    obtain ⟨way, _, rfl⟩ := reached.below.exists_append
    have reaches := (reached_append_iff found).mp reached
    have present : way ∈ start.node.addresses := mem_addresses.mpr (reaches_iff.mp reaches).1
    exact ⟨way, List.mem_filter.mpr ⟨present, reaches⟩, rfl⟩

/-- From any place of a tree the bounded walk goes up to the stops, whatever it enters. -/
theorem walksToStops_of_place? {root : Node} {outer : Address} {start : Place}
    (found : root.place? outer = some start) (enter : Node → Bool) :
    WalksToStops enter root outer start where
  full := by
    refine ⟨start.node.addresses.map (outer ++ ·),
      ascending_map_append outer start.node.addresses_ascending,
      fun _ => mem_map_append_addresses found, ?_⟩
    rw [map_place?_append found fun _ listed => listed, placesWithin_eq_filterMap]
  bounded := by
    have listed : ∀ inner ∈ start.node.boundedAddresses enter, inner ∈ start.node.addresses :=
      fun _ reached => List.mem_of_mem_filter reached
    refine ⟨(start.node.boundedAddresses enter).map (outer ++ ·),
      ascending_map_append outer (start.node.addresses_ascending.filter _),
      fun _ => mem_map_append_boundedAddresses found, ?_⟩
    rw [map_place?_append found listed, boundedWithin_eq_filterMap]
  startUntested other agree :=
    boundedWithin_congr fun place visited => agree place.node (node_ne_of_mem_boundedWithin visited)
  unbounded entersAll := placesWithin_eq_cons entersAll start.around start.node
  covered _ := not_reached_iff

def classWithMethods : Node :=
  written "class_declaration" [] 1 1 "" [
    written "method_declaration" [] 1 1 "" [written "block" [] 1 1 "" [
      written "local_function_statement" [] 1 1 "" []]],
    written "field_declaration" [] 1 1 "" [sign 1 ";"],
    written "method_declaration" [] 1 1 "" [sign 1 ";"]]

def fileWithMethods : Node := written "compilation_unit" [] 1 1 "" [classWithMethods]

/-- A walk through the class that stops at methods. -/
theorem fileWithMethods_walk :
    fileWithMethods.place? [0] = some ⟨classWithMethods, [fileWithMethods]⟩ ∧
      WalksToStops (·.kind != "method_declaration") fileWithMethods [0]
        ⟨classWithMethods, [fileWithMethods]⟩ ∧
      (boundedWithin (·.kind != "method_declaration") [fileWithMethods] classWithMethods).map
        (·.node.kind) = ["method_declaration", "field_declaration", ";", "method_declaration"] :=
  ⟨rfl, walksToStops_of_place? rfl (·.kind != "method_declaration"), by decide +kernel⟩

end SolutionSurvey.Node

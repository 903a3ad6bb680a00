import SolutionSurvey.Proofs.Collection.Table
import SolutionSurvey.Proofs.Dependency.Aliases
import SolutionSurvey.Proofs.Node.Refilling

/-!
# The imports that count at a place

Only the directives among the children of the nodes around a place count there, those further out
first.  Of the directives that import the same namespace the first one counts, of those that give the
same alias the last one.
-/

namespace SolutionSurvey

open Node (Refilled written sign)

namespace Directive

/-- The namespace that a directive imports. -/
def opened? : Directive → Option String
  | opens name => some name
  | _ => none

/-- The target that a directive gives to a name. -/
def targetOf? (name : String) : Directive → Option String
  | .alias other target => if other = name then some target else none
  | _ => none

end Directive

open Directive (opened? targetOf?)

namespace Imports

/-- The texts of the directives among the children of a node. -/
def usingsOf (node : Node) : List String :=
  (node.children.filter fun child => child.kind == "using_directive").map (·.text)

/-- The texts of the directives of all nodes around an address, outermost first. -/
def usingsAround (tree : Node) (address : Address) : List String :=
  (tree.enclosing address).flatMap usingsOf

/-- The directives of all nodes around an address, so far as they can be read. -/
def directivesAround (tree : Node) (address : Address) : List Directive :=
  (usingsAround tree address).filterMap Directive.parse?

/-- How imports are put together from directives. -/
structure CollectedFrom (directives : List Directive) (imports : Imports) : Prop where
  mem_iff : ∀ name, name ∈ imports.namespaces ↔ name ∈ directives.filterMap opened?
  /-- Namespaces stand in the order in which they are first imported, each of them once. -/
  firstFirst : imports.namespaces.Pairwise fun one other =>
    (directives.filterMap opened?).idxOf one < (directives.filterMap opened?).idxOf other
  inOrder : Ascending Table.entryOrder imports.aliases
  last : ∀ name, imports.aliases.get? name = (directives.filterMap (targetOf? name)).getLast?

/-! ### One more directive -/

namespace CollectedFrom

variable {directives : List Directive} {imports : Imports}
  (collected : CollectedFrom directives imports)
include collected

theorem add_opens (name : String) :
    CollectedFrom (directives ++ [.opens name]) (imports.add (.opens name)) := by
  have isOpened : (directives ++ [Directive.opens name]).filterMap opened? =
      directives.filterMap opened? ++ [name] := List.filterMap_append
  have noTarget : ∀ other, (directives ++ [Directive.opens name]).filterMap (targetOf? other) =
      directives.filterMap (targetOf? other) := fun _ =>
    List.filterMap_append.trans (List.append_nil _)
  obtain ⟨mem_iff, firstFirst, inOrder, last⟩ := collected
  have earlier : ∀ one ∈ imports.namespaces,
      (directives.filterMap opened? ++ [name]).idxOf one =
        (directives.filterMap opened?).idxOf one :=
    fun one known => List.idxOf_append_of_mem ((mem_iff one).mp known)
  have still : imports.namespaces.Pairwise fun one other =>
      (directives.filterMap opened? ++ [name]).idxOf one <
        (directives.filterMap opened? ++ [name]).idxOf other := by
    refine firstFirst.imp_of_mem fun known knownToo before => ?_
    rwa [earlier _ known, earlier _ knownToo]
  rw [add]
  -- A name that is known keeps its first position; a new one comes behind all others.
  split
  case isTrue known =>
    rw [List.contains_iff_mem] at known
    refine ⟨fun other => ?_, isOpened ▸ still, inOrder, fun other => ?_⟩
    · rw [isOpened, mem_iff, List.mem_append, List.mem_singleton, or_iff_left_of_imp]
      rintro rfl
      exact (mem_iff other).mp known
    · rw [noTarget, last]
  case isFalse unknown =>
    rw [List.contains_iff_mem] at unknown
    refine ⟨fun other => ?_, ?_, inOrder, fun other => ?_⟩
    · rw [isOpened, List.mem_append, List.mem_append, mem_iff]
    · rw [isOpened]
      refine List.pairwise_append.mpr ⟨still, List.pairwise_singleton _ _, ?_⟩
      intro one known other isLast
      obtain rfl := List.mem_singleton.mp isLast
      have before := List.idxOf_lt_length_of_mem ((mem_iff one).mp known)
      rw [earlier one known, List.idxOf_append_of_notMem (mt (mem_iff other).mpr unknown)]
      exact Nat.lt_add_right _ before
    · rw [noTarget, last]

theorem add_alias (name target : String) :
    CollectedFrom (directives ++ [.alias name target]) (imports.add (.alias name target)) := by
  have notOpened : (directives ++ [Directive.alias name target]).filterMap opened? =
      directives.filterMap opened? := List.filterMap_append.trans (List.append_nil _)
  obtain ⟨mem_iff, firstFirst, inOrder, last⟩ := collected
  refine ⟨notOpened ▸ mem_iff, notOpened ▸ firstFirst, Table.ascending_insert inOrder,
    fun other => ?_⟩
  rw [add, Table.get?_insert, List.filterMap_append]
  by_cases same : other = name
  · have given : [Directive.alias name target].filterMap (targetOf? other) = [target] := by
      simp [targetOf?, same]
    rw [if_pos same, given, List.getLast?_concat]
  · have foreign : [Directive.alias name target].filterMap (targetOf? other) = [] := by
      simp [targetOf?, Ne.symm same]
    rw [if_neg same, foreign, List.append_nil, last]

theorem add_members : CollectedFrom (directives ++ [.members]) (imports.add .members) := by
  have nothing : ∀ read : Directive → Option String, read .members = none →
      (directives ++ [Directive.members]).filterMap read = directives.filterMap read := by
    intro read silent
    rw [List.filterMap_append, List.filterMap_cons_none silent]
    exact List.append_nil _
  obtain ⟨mem_iff, firstFirst, inOrder, last⟩ := collected
  refine ⟨?_, ?_, inOrder, fun name => ?_⟩
  · rwa [nothing opened? rfl]
  · rwa [nothing opened? rfl]
  · rw [nothing (targetOf? name) rfl]
    exact last name

end CollectedFrom

theorem ofDirectives_concat (directives : List Directive) (directive : Directive) :
    ofDirectives (directives ++ [directive]) = (ofDirectives directives).add directive := by
  rw [ofDirectives, List.foldl_append]
  rfl

theorem collectedFrom_ofDirectives (directives : List Directive) :
    CollectedFrom directives (ofDirectives directives) := by
  induction directives using List.reverseRecOn with
  | nil => exact ⟨fun _ => Iff.rfl, .nil, .nil, fun _ => rfl⟩
  | append_singleton directives directive collected =>
      rw [ofDirectives_concat]
      rcases directive with name | ⟨name, target⟩ | _
      · exact collected.add_opens name
      · exact collected.add_alias name target
      · exact collected.add_members

theorem ofDirectives_filter_ne_members (directives : List Directive) :
    ofDirectives (directives.filter (· ≠ .members)) = ofDirectives directives := by
  induction directives using List.reverseRecOn with
  | nil => rfl
  | append_singleton directives directive inductionHypothesis =>
      rw [List.filter_append, ofDirectives_concat, ← inductionHypothesis]
      rcases directive with name | ⟨name, target⟩ | _
      · exact ofDirectives_concat _ _
      · exact ofDirectives_concat _ _
      · exact congrArg ofDirectives (List.append_nil _)

/-! ### The directives around a place -/

theorem directivesOf_eq_usingsOf (node : Node) :
    directivesOf node = (usingsOf node).filterMap Directive.parse? := by
  rw [directivesOf, usingsOf, List.filterMap_map, Function.comp_def]

theorem visibleAt_eq_ofDirectives {tree : Node} {address : Address} {place : Place}
    (found : tree.place? address = some place) :
    visibleAt place = ofDirectives (directivesAround tree address) := by
  rw [visibleAt, Node.around_of_place? found, directivesAround, usingsAround,
    List.filterMap_flatMap]
  exact congrArg (fun read => ofDirectives (List.flatMap read _)) (funext directivesOf_eq_usingsOf)

/-! ### Contents that do not count -/

/-- The address lies in a directive that counts at another one. -/
def InUsing (tree : Node) (scope address : Address) : Prop :=
  ∃ way index node, Address.Above way address ∧ way ++ [index] <+: scope ∧
    tree.at? (way ++ [index]) = some node ∧ node.kind = "using_directive"

theorem usingsOf_withoutLines (node : Node) : usingsOf node.withoutLines = usingsOf node := by
  simp [usingsOf, Node.children_withoutLines, List.filter_map, Function.comp_def]

theorem usingsOf_of_withoutLines {node nodeToo : Node}
    (same : node.withoutLines = nodeToo.withoutLines) : usingsOf node = usingsOf nodeToo := by
  rw [← usingsOf_withoutLines, same, usingsOf_withoutLines]

/-- A node has the same directives when something in it that is not a directive gets other
contents. -/
theorem usingsOf_of_refilled {way : Address} {index : Nat} {node nodeToo : Node}
    (refilled : Refilled (index :: way) node nodeToo)
    (noUsing : ∀ child, node.at? [index] = some child → child.kind ≠ "using_directive") :
    usingsOf node = usingsOf nodeToo := by
  cases refilled with
  | @within before child childToo after afterToo _ one other role refilled moved =>
      have isChild : (Node.node one (before ++ child :: after)).at? [before.length] = some child := by
        simp [Node.at?_cons, Node.children]
      have other : child.kind ≠ "using_directive" := noUsing child isChild
      have sameKind : child.kind = childToo.kind := refilled.role.kind
      have otherToo : childToo.kind ≠ "using_directive" := sameKind ▸ other
      have usings : ∀ nodes : List Node,
          (nodes.filter fun child => child.kind == "using_directive").map (·.text) =
            ((nodes.map Node.withoutLines).filter fun child =>
              child.kind == "using_directive").map (·.text) := by
        intro nodes
        simp [List.filter_map, Function.comp_def]
      simp [usingsOf, Node.children, other, otherToo, usings after, usings afterToo, moved]

/-- Contents outside of all directives that count at an address make no difference there. -/
theorem usingsAround_of_refilled {scope address : Address} {tree treeToo : Node}
    (refilled : Refilled scope tree treeToo) (outside : ¬ scope.Above address)
    (noUsing : ¬ InUsing tree scope address) :
    usingsAround treeToo address = usingsAround tree address := by
  have usings : ∀ tree : Node, usingsAround tree address = (address.inits.dropLast.filterMap
      fun part => (tree.at? part).map usingsOf).flatten := by
    intro tree
    rw [usingsAround, Node.enclosing, List.flatMap_def, List.map_filterMap]
  rw [usings, usings]
  refine congrArg List.flatten (List.filterMap_congr fun part isPart => ?_)
  have above := Node.above_of_mem_inits isPart
  have outsidePart : ¬ scope.Above part := fun scopeAbove =>
    outside ⟨scopeAbove.1.trans above.1, fun same =>
      scopeAbove.2 (scopeAbove.1.eq_of_length_le (same ▸ above.1.length_le))⟩
  cases found : tree.at? part with
  | none =>
      cases foundToo : treeToo.at? part with
      | none => rfl
      | some nodeToo =>
          obtain ⟨node, isNode, _⟩ := refilled.symm.exists_at? outsidePart foundToo
          rw [found] at isNode
          cases isNode
  | some node =>
      obtain ⟨nodeToo, foundToo, alike⟩ := refilled.exists_at? outsidePart found
      rw [foundToo, Option.map_some, Option.map_some, Option.some.injEq, eq_comm]
      rcases alike with same | ⟨way, rfl, inNode⟩
      · exact usingsOf_of_withoutLines same
      · cases way with
        | nil => exact absurd (by rwa [List.append_nil]) outside
        | cons index way =>
            refine usingsOf_of_refilled inNode fun child isChild isUsing => noUsing ?_
            refine ⟨part, index, child, above, ⟨way, by simp⟩, ?_, isUsing⟩
            rw [Node.at?_below found, isChild]

theorem visibleAt_eq_of_filter_eq {tree treeToo : Node} {address addressToo : Address}
    {place placeToo : Place} (found : tree.place? address = some place)
    (foundToo : treeToo.place? addressToo = some placeToo)
    (same : (directivesAround treeToo addressToo).filter (· ≠ .members) =
      (directivesAround tree address).filter (· ≠ .members)) :
    visibleAt placeToo = visibleAt place := by
  rw [visibleAt_eq_ofDirectives found, visibleAt_eq_ofDirectives foundToo,
    ← ofDirectives_filter_ne_members, same, ofDirectives_filter_ne_members]

/-- The imports at a place are collected from the directives of the nodes around it.  Nothing else in
the tree makes a difference, neither directives that import members or cannot be read, nor anything
that is put into a node that is not around the place. -/
theorem visibleAt_of_place? {tree : Node} {address : Address} {place : Place}
    (found : tree.place? address = some place) :
    CollectedFrom (directivesAround tree address) (visibleAt place) ∧
      (∀ treeToo addressToo placeToo, treeToo.place? addressToo = some placeToo →
        (directivesAround treeToo addressToo).filter (· ≠ .members) =
          (directivesAround tree address).filter (· ≠ .members) →
        visibleAt placeToo = visibleAt place) ∧
      ∀ scope treeToo, Refilled scope tree treeToo → ¬ scope.Above address →
        ¬ InUsing tree scope address →
        ∃ placeToo, treeToo.place? address = some placeToo ∧ visibleAt placeToo = visibleAt place := by
  refine ⟨?_, fun _ _ _ foundToo same => visibleAt_eq_of_filter_eq found foundToo same, ?_⟩
  · rw [visibleAt_eq_ofDirectives found]
    exact collectedFrom_ofDirectives _
  · intro scope treeToo refilled outside noUsing
    obtain ⟨nodeToo, isNodeToo, _⟩ := refilled.exists_at? outside (Node.at?_of_place? found)
    rw [← Node.map_node_place?] at isNodeToo
    obtain ⟨placeToo, foundToo, _⟩ := Option.map_eq_some_iff.mp isNodeToo
    refine ⟨placeToo, foundToo, visibleAt_eq_of_filter_eq found foundToo ?_⟩
    rw [directivesAround, usingsAround_of_refilled refilled outside noUsing, directivesAround]

/-! ### Namespaces side by side -/

def usingNode (text : String) : Node := written "using_directive" [] 1 1 text []

def block (members : List Node) : Node :=
  written "namespace_declaration" [] 1 9 "" [written "declaration_list" ["body"] 1 9 "" members]

def shape : Node := written "class_declaration" [] 5 5 "class Shape;" []

/-- Two namespaces, the first of which declares a type. -/
def twoBlocks (others : List Node) : Node :=
  written "compilation_unit" [] 1 9 ""
    ([usingNode "using A;", usingNode "using X = P;",
      block [usingNode "using B;", usingNode "using A;", usingNode "using static M;",
        usingNode "using X = Q;", shape]] ++ block others :: [])

def shapePlace : Place := ((twoBlocks []).place? [2, 0, 4]).getD default

theorem visibleAt_shapePlace :
    (twoBlocks []).place? [2, 0, 4] = some shapePlace ∧
      visibleAt shapePlace = ⟨["A", "B"], [("X", "Q")]⟩ ∧
      CollectedFrom [.opens "A", .alias "X" "P", .opens "B", .opens "A", .members, .alias "X" "Q"]
        (visibleAt shapePlace) ∧
      ∃ placeToo, (twoBlocks [usingNode "using C;"]).place? [2, 0, 4] = some placeToo ∧
        visibleAt placeToo = visibleAt shapePlace := by
  have found : (twoBlocks []).place? [2, 0, 4] = some shapePlace := rfl
  have written : directivesAround (twoBlocks []) [2, 0, 4] =
      [.opens "A", .alias "X" "P", .opens "B", .opens "A", .members, .alias "X" "Q"] := by
    decide +kernel
  obtain ⟨collected, _, elsewhere⟩ := visibleAt_of_place? found
  have refilled : Refilled [3] (twoBlocks []) (twoBlocks [usingNode "using C;"]) :=
    .within [_, _, _] ⟨rfl, rfl, rfl⟩ (.here ⟨rfl, rfl, rfl⟩ _ _) rfl
  have outside : ¬ Address.Above [3] [2, 0, 4] := fun above => absurd above.1 (by decide)
  have noUsing : ¬ InUsing (twoBlocks []) [3] [2, 0, 4] := by
    rintro ⟨way, index, node, _, onWay, isNode, isUsing⟩
    obtain rfl : way = [] := by
      have short := onWay.length_le
      rw [List.length_append, List.length_singleton, List.length_singleton] at short
      exact List.length_eq_zero_iff.mp (by omega)
    obtain ⟨rfl, _⟩ := List.cons_prefix_cons.mp onWay
    obtain rfl : block [] = node := Option.some.inj isNode
    exact absurd isUsing (by decide)
  exact ⟨found, by decide +kernel, written ▸ collected,
    elsewhere [3] _ refilled outside noUsing⟩

end Imports

end SolutionSurvey

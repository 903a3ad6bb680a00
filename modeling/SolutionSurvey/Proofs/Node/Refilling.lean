import Mathlib.Data.List.Infix
import SolutionSurvey.Proofs.Node.Address
import SolutionSurvey.Proofs.Node.Lines

/-!
# Nodes with other contents

When a node gets other contents, the nodes around it cover another text, and what follows may move to
other lines.  All else stays as it is, and it keeps its address.
-/

namespace SolutionSurvey.Node

/-- Two nodes are of the same kind and are referred to alike by their parents. -/
structure SameRole (one other : Description) : Prop where
  kind : one.kind = other.kind
  named : one.named = other.named
  fields : one.fields = other.fields

/-- A tree and what becomes of it when the node at an address gets other contents. -/
inductive Refilled : Address → Node → Node → Prop
  | here {one other : Description} (role : SameRole one other) (children others : List Node) :
      Refilled [] (.node one children) (.node other others)
  | within (before : List Node) {child childToo : Node} {after afterToo : List Node}
      {way : Address} {one other : Description} (role : SameRole one other)
      (refilled : Refilled way child childToo)
      (moved : after.map withoutLines = afterToo.map withoutLines) :
      Refilled (before.length :: way) (.node one (before ++ child :: after))
        (.node other (before ++ childToo :: afterToo))

theorem Refilled.role {way : Address} {one other : Node} (refilled : Refilled way one other) :
    SameRole one.description other.description := by
  cases refilled with
  | here role => exact role
  | within before role => exact role

theorem Refilled.symm {way : Address} {one other : Node} (refilled : Refilled way one other) :
    Refilled way other one := by
  induction refilled with
  | here role children others => exact .here ⟨role.kind.symm, role.named.symm, role.fields.symm⟩ _ _
  | within before role _ moved inductionHypothesis =>
      exact .within before ⟨role.kind.symm, role.named.symm, role.fields.symm⟩ inductionHypothesis
        moved.symm

/-! ### What stays as it is -/

theorem at?_withoutLines (node : Node) (address : Address) :
    node.withoutLines.at? address = (node.at? address).map withoutLines := by
  induction address generalizing node with
  | nil => simp
  | cons index rest inductionHypothesis =>
      rw [at?_cons, at?_cons, children_withoutLines, List.getElem?_map, Option.bind_map,
        Option.map_bind]
      exact congrArg (Option.bind _) (funext inductionHypothesis)

section Row

variable (before : List Node) {child childToo : Node} {after afterToo : List Node}
  (moved : after.map withoutLines = afterToo.map withoutLines)
include moved

theorem getElem?_of_moved {index : Nat} (other : index ≠ before.length) :
    (before ++ child :: after)[index]?.map withoutLines =
      (before ++ childToo :: afterToo)[index]?.map withoutLines := by
  rcases Nat.lt_or_gt_of_ne other with earlier | later
  · rw [List.getElem?_append_left earlier, List.getElem?_append_left earlier]
  · obtain ⟨further, rfl⟩ := Nat.exists_eq_add_of_lt later
    have behind : ∀ item : Node, ∀ rest : List Node,
        (before ++ item :: rest)[before.length + further + 1]? = rest[further]? := by
      intro item rest
      rw [List.getElem?_append_right (by omega), Nat.add_assoc, Nat.add_sub_cancel_left,
        List.getElem?_cons_succ]
    rw [behind, behind, ← List.getElem?_map, moved, List.getElem?_map]

/-- What looks for the kind, the fields or the text of a child finds the child with other contents,
or the same as before. -/
theorem find?_of_moved {looksFor : Node → Bool} (same : looksFor child = looksFor childToo)
    (overlooks : ∀ node : Node, looksFor node.withoutLines = looksFor node) :
    (before ++ child :: after).find? looksFor = some child ∧
        (before ++ childToo :: afterToo).find? looksFor = some childToo ∨
      ((before ++ child :: after).find? looksFor).map withoutLines =
        ((before ++ childToo :: afterToo).find? looksFor).map withoutLines := by
  rw [List.find?_append, List.find?_append]
  cases before.find? looksFor with
  | some found => exact .inr rfl
  | none =>
      rw [Option.none_or, Option.none_or]
      by_cases found : looksFor child = true
      · exact .inl ⟨List.find?_cons_of_pos found, List.find?_cons_of_pos (same ▸ found)⟩
      · have foundToo : ¬ looksFor childToo = true := same ▸ found
        rw [List.find?_cons_of_neg found, List.find?_cons_of_neg foundToo,
          ← find?_map_withoutLines overlooks, moved, find?_map_withoutLines overlooks]
        exact .inr rfl

end Row

/-- What does not lie in the new contents is found again, with the new contents in it or as it was. -/
theorem Refilled.exists_at? {way inner : Address} {one other node : Node}
    (refilled : Refilled way one other) (outside : ¬ way.Above inner)
    (found : one.at? inner = some node) :
    ∃ nodeToo, other.at? inner = some nodeToo ∧
      (node.withoutLines = nodeToo.withoutLines ∨
        ∃ rest, way = inner ++ rest ∧ Refilled rest node nodeToo) := by
  induction refilled generalizing inner with
  | @here one other role children others =>
      cases inner with
      | nil =>
          obtain rfl := Option.some.inj found
          exact ⟨_, rfl, .inr ⟨[], rfl, .here role children others⟩⟩
      | cons index rest => exact absurd ⟨List.nil_prefix, (List.cons_ne_nil index rest).symm⟩ outside
  | @within before child childToo after afterToo way one other role refilled moved
      inductionHypothesis =>
      cases inner with
      | nil =>
          obtain rfl := Option.some.inj found
          exact ⟨_, rfl, .inr ⟨_, rfl, .within before role refilled moved⟩⟩
      | cons index rest =>
          rw [at?_cons, Node.children] at found
          rw [at?_cons, Node.children]
          by_cases onWay : index = before.length
          · subst onWay
            have here : ∀ item : Node, ∀ rest : List Node,
                (before ++ item :: rest)[before.length]? = some item := by simp
            rw [here, Option.bind_some] at found ⊢
            obtain ⟨nodeToo, foundToo, alike⟩ :=
              inductionHypothesis (mt Address.cons_above_cons_iff.mpr outside) found
            refine ⟨nodeToo, foundToo, alike.imp_right ?_⟩
            rintro ⟨further, rfl, inNode⟩
            exact ⟨further, rfl, inNode⟩
          · obtain ⟨item, atIndex, found⟩ := Option.bind_eq_some_iff.mp found
            have same : (before ++ child :: after)[index]?.map withoutLines =
                (before ++ childToo :: afterToo)[index]?.map withoutLines :=
              getElem?_of_moved before moved onWay
            rw [atIndex, Option.map_some, eq_comm, Option.map_eq_some_iff] at same
            obtain ⟨itemToo, atIndexToo, sameItem⟩ := same
            have sameNode := at?_withoutLines itemToo rest
            rw [sameItem, at?_withoutLines, found, Option.map_some, eq_comm,
              Option.map_eq_some_iff] at sameNode
            obtain ⟨nodeToo, foundToo, sameNode⟩ := sameNode
            exact ⟨nodeToo, by rw [atIndexToo, Option.bind_some, foundToo], .inl sameNode.symm⟩

section Alike

variable {way inner : Address} {node nodeToo : Node}
  (alike : node.withoutLines = nodeToo.withoutLines ∨
    ∃ rest, way = inner ++ rest ∧ Refilled rest node nodeToo)
include alike

theorem kind_of_alike : node.kind = nodeToo.kind := by
  rcases alike with same | ⟨_, _, refilled⟩
  · rw [← kind_withoutLines, same, kind_withoutLines]
  · exact refilled.role.kind

theorem fields_of_alike (different : inner ≠ way) :
    node.children.map (·.description.fields) = nodeToo.children.map (·.description.fields) := by
  have fields : ∀ nodes : List Node, nodes.map (·.description.fields) =
      (nodes.map withoutLines).map (·.description.fields) := by
    intro nodes
    simp [Function.comp_def]
  rcases alike with same | ⟨_, rfl, refilled⟩
  · rw [fields, ← children_withoutLines, same, children_withoutLines, ← fields]
  · cases refilled with
    | here => exact absurd (List.append_nil inner).symm different
    | @within before child childToo after afterToo way one other role refilled moved =>
        rw [children, children, List.map_append, List.map_append, List.map_cons, List.map_cons,
          refilled.role.fields, fields after, moved, ← fields]

end Alike

/-! ### What is around an address -/

/-- The nodes around an address, outermost first. -/
def enclosing (tree : Node) (address : Address) : List Node :=
  address.inits.dropLast.filterMap tree.at?

theorem dropLast_inits_cons (index : Nat) (rest : Address) :
    (index :: rest).inits.dropLast = [] :: rest.inits.dropLast.map (index :: ·) := by
  have started : rest.inits ≠ [] :=
    List.ne_nil_of_mem ((List.mem_inits [] rest).mpr List.nil_prefix)
  rw [List.inits_cons, List.dropLast_cons_of_ne_nil (by simpa using started), ← List.map_dropLast]

theorem above_of_mem_inits {part address : Address} (membership : part ∈ address.inits.dropLast) :
    part.Above address := by
  induction address generalizing part with
  | nil => cases membership
  | cons index rest inductionHypothesis =>
      rw [dropLast_inits_cons] at membership
      rcases List.mem_cons.mp membership with rfl | below
      · exact ⟨List.nil_prefix, (List.cons_ne_nil index rest).symm⟩
      · obtain ⟨way, inRest, rfl⟩ := List.mem_map.mp below
        exact Address.cons_above_cons_iff.mpr (inductionHypothesis inRest)

@[simp]
theorem enclosing_nil (tree : Node) : tree.enclosing [] = [] := rfl

theorem enclosing_cons {tree child : Node} {index : Nat} (atIndex : tree.children[index]? = some child)
    (rest : Address) : tree.enclosing (index :: rest) = tree :: child.enclosing rest := by
  have below : (tree.at? ∘ fun way => index :: way) = child.at? := by
    funext way
    rw [Function.comp_apply, at?_cons, atIndex, Option.bind_some]
  rw [enclosing, dropLast_inits_cons, List.filterMap_cons_some (at?_nil tree), List.filterMap_map,
    below, enclosing]

theorem around_of_placeWithin? {tree : Node} {around : List Node} {address : Address}
    {place : Place} (found : tree.placeWithin? around address = some place) :
    place.around = (tree.enclosing address).reverse ++ around := by
  induction address generalizing tree around with
  | nil =>
      rw [placeWithin?_nil] at found
      rw [← Option.some.inj found, enclosing_nil]
      rfl
  | cons index rest inductionHypothesis =>
      rw [placeWithin?_cons] at found
      obtain ⟨child, atIndex, found⟩ := Option.bind_eq_some_iff.mp found
      rw [inductionHypothesis found, enclosing_cons atIndex, List.reverse_cons, List.append_assoc]
      rfl

theorem around_of_place? {tree : Node} {address : Address} {place : Place}
    (found : tree.place? address = some place) :
    place.around.reverse = tree.enclosing address := by
  rw [around_of_placeWithin? found, List.append_nil, List.reverse_reverse]

end SolutionSurvey.Node

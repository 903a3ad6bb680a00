import Mathlib.Data.List.Forall2
import SolutionSurvey.Node.Walk

/-!
# Reworded trees

Some leaves of a tree, such as comments, may be given other texts or be left out.  The nodes around
such a leaf then cover another text, and what follows may move to other lines; all else stays as it
is.  The relation here says so of a tree and the tree that it becomes, and the lemmas say what walks
and searches find in the two.
-/

namespace SolutionSurvey.Node

/-- What may be done to the leaves of a tree. -/
structure Leeway where
  /-- The kinds of nodes that may be given another text. -/
  reworded : List String
  /-- Comments may be left out. -/
  omitsComments : Bool

/-- Two nodes differ at most in their texts and lines. -/
structure SameForm (one other : Description) : Prop where
  kind : one.kind = other.kind
  named : one.named = other.named
  faulty : one.faulty = other.faulty
  damaged : one.damaged = other.damaged
  fields : one.fields = other.fields

/-- A row of nodes within a text becomes another row within another text.  Of every node that stays
and the node it becomes, something more is required; it says which texts must not change. -/
inductive Reworded (leeway : Leeway) (keeps : Node → Node → Prop) :
    List Node → String → List Node → String → Prop
  | nothing (text : String) : Reworded leeway keeps [] text [] text
  | kept (gap : String) {one other : Description} {children others rest further : List Node}
      {inner innerToo text textToo whole wholeToo : String} (form : SameForm one other)
      (within : Reworded leeway keeps children inner others innerToo)
      (covers : one.kind ∈ leeway.reworded ∨ inner = one.text ∧ innerToo = other.text)
      (kept : keeps (node one children) (node other others))
      (after : Reworded leeway keeps rest text further textToo)
      (split : whole = gap ++ one.text ++ text)
      (splitToo : wholeToo = gap ++ other.text ++ textToo) :
      Reworded leeway keeps (node one children :: rest) whole (node other others :: further)
        wholeToo
  | omitted (gap : String) {one : Description} {rest further : List Node}
      {text textToo whole wholeToo : String} (allowed : leeway.omitsComments = true)
      (comment : one.kind = "comment") (plain : one.fields = [])
      (after : Reworded leeway keeps rest text further textToo)
      (split : whole = gap ++ one.text ++ text) (splitToo : wholeToo = gap ++ textToo) :
      Reworded leeway keeps (node one [] :: rest) whole further wholeToo

variable {leeway : Leeway} {keeps keepsToo : Node → Node → Prop}

/-- A node and the node that it becomes. -/
structure Counterpart (leeway : Leeway) (keeps : Node → Node → Prop) (one other : Node) : Prop where
  form : SameForm one.description other.description
  within : ∃ text textToo, Reworded leeway keeps one.children text other.children textToo
  kept : keeps one other

theorem Counterpart.kind_eq {one other : Node} (counterpart : Counterpart leeway keeps one other) :
    one.kind = other.kind := counterpart.form.kind

theorem counterpart_of_within {one other : Description} {children others : List Node}
    {text textToo : String} (form : SameForm one other)
    (within : Reworded leeway keeps children text others textToo)
    (kept : keeps (node one children) (node other others)) :
    Counterpart leeway keeps (node one children) (node other others) :=
  ⟨form, ⟨text, textToo, within⟩, kept⟩

/-- A place and the place that it becomes. -/
structure PlaceCounterpart (leeway : Leeway) (keeps : Node → Node → Prop) (one other : Place) :
    Prop where
  node : Counterpart leeway keeps one.node other.node
  around : List.Forall₂ (Counterpart leeway keeps) one.around other.around

/-- Whatever stays the same in all nodes and is nothing in comments. -/
structure Overlooks {α : Type} (leeway : Leeway) (keeps : Node → Node → Prop) (view : Node → α)
    (nothing : α) : Prop where
  comment : ∀ description : Description, description.kind = "comment" → description.fields = [] →
    view (node description []) = nothing
  same : ∀ one other, Counterpart leeway keeps one other → view one = view other

namespace Reworded

variable {children others : List Node} {text textToo : String}

theorem mono (weaker : ∀ one other, keeps one other → keepsToo one other)
    (reworded : Reworded leeway keeps children text others textToo) :
    Reworded leeway keepsToo children text others textToo := by
  induction reworded with
  | nothing text => exact .nothing text
  | kept gap form _ covers kept _ split splitToo within after =>
      exact .kept gap form within covers (weaker _ _ kept) after split splitToo
  | omitted gap allowed comment plain _ split splitToo after =>
      exact .omitted gap allowed comment plain after split splitToo

theorem gap_append (gap : String) (reworded : Reworded leeway keeps children text others textToo) :
    Reworded leeway keeps children (gap ++ text) others (gap ++ textToo) := by
  cases reworded with
  | nothing text => exact .nothing _
  | kept inner form within covers kept after split splitToo =>
      refine .kept (gap ++ inner) form within covers kept after ?_ ?_
      · simp only [split, String.append_assoc]
      · simp only [splitToo, String.append_assoc]
  | omitted inner allowed comment plain after split splitToo =>
      refine .omitted (gap ++ inner) allowed comment plain after ?_ ?_
      · simp only [split, String.append_assoc]
      · simp only [splitToo, String.append_assoc]

theorem append {rest further : List Node} {back backToo : String}
    (reworded : Reworded leeway keeps children text others textToo)
    (rewordedRest : Reworded leeway keeps rest back further backToo) :
    Reworded leeway keeps (children ++ rest) (text ++ back) (others ++ further)
      (textToo ++ backToo) := by
  induction reworded with
  | nothing text => exact rewordedRest.gap_append text
  | kept gap form within covers kept _ split splitToo _ after =>
      refine .kept gap form within covers kept after ?_ ?_
      · rw [split, String.append_assoc]
      · rw [splitToo, String.append_assoc]
  | omitted gap allowed comment plain _ split splitToo after =>
      refine .omitted gap allowed comment plain after ?_ ?_
      · rw [split, String.append_assoc]
      · rw [splitToo, String.append_assoc]

/-! ### What is found in a row of nodes -/

theorem filterMap_eq {α : Type} {view : Node → Option α}
    (overlooks : Overlooks leeway keeps view none)
    (reworded : Reworded leeway keeps children text others textToo) :
    children.filterMap view = others.filterMap view := by
  induction reworded with
  | nothing => rfl
  | kept _ form within covers kept _ _ _ _ after =>
      rw [List.filterMap_cons, List.filterMap_cons, after,
        overlooks.same _ _ (counterpart_of_within form within kept)]
  | omitted _ _ comment plain _ _ _ after =>
      rw [List.filterMap_cons, overlooks.comment _ comment plain]
      exact after

theorem find?_related {looksFor : Node → Bool} (overlooks : Overlooks leeway keeps looksFor false)
    (reworded : Reworded leeway keeps children text others textToo) :
    Option.Rel (Counterpart leeway keeps) (children.find? looksFor) (others.find? looksFor) := by
  induction reworded with
  | nothing => exact .none
  | kept _ form within covers kept _ _ _ _ after =>
      have counterpart := counterpart_of_within form within kept
      rw [List.find?_cons, List.find?_cons, ← overlooks.same _ _ counterpart]
      split
      · exact .some counterpart
      · exact after
  | omitted _ _ comment plain _ _ _ after =>
      rw [List.find?_cons, overlooks.comment _ comment plain]
      exact after

/-! ### What walks go through -/

theorem placesAmong_related {listed : Node → Bool} (overlooks : Overlooks leeway keeps listed false)
    (reworded : Reworded leeway keeps children text others textToo) {around aroundToo : List Node}
    (outer : List.Forall₂ (Counterpart leeway keeps) around aroundToo) :
    List.Forall₂ (PlaceCounterpart leeway keeps)
      ((placesAmong around children).filter fun place => listed place.node)
      ((placesAmong aroundToo others).filter fun place => listed place.node) := by
  induction reworded generalizing around aroundToo with
  | nothing => exact .nil
  | kept _ form within covers kept _ _ _ below after =>
      have counterpart := counterpart_of_within form within kept
      simp only [placesAmong, placesWithin, List.filter_append, List.filter_cons,
        ← overlooks.same _ _ counterpart]
      refine List.rel_append ?_ (after outer)
      split
      · exact .cons ⟨counterpart, outer⟩ (below (.cons counterpart outer))
      · exact below (.cons counterpart outer)
  | omitted _ _ comment plain _ _ _ after =>
      simp only [placesAmong, placesWithin, List.cons_append, List.nil_append, List.filter_cons,
        overlooks.comment _ comment plain, Bool.false_eq_true, if_false]
      exact after outer

theorem boundedAmong_flatMap_eq {α : Type} {enter : Node → Bool} {view : Node → List α}
    (entered : Overlooks leeway keeps enter true) (overlooks : Overlooks leeway keeps view [])
    (reworded : Reworded leeway keeps children text others textToo) (around aroundToo : List Node) :
    ((boundedAmong enter around children).map (·.node)).flatMap view =
      ((boundedAmong enter aroundToo others).map (·.node)).flatMap view := by
  induction reworded generalizing around aroundToo with
  | nothing => rfl
  | kept _ form within covers kept _ _ _ below after =>
      have counterpart := counterpart_of_within form within kept
      simp only [boundedAmong, boundedWithin, List.map_cons, List.map_append, List.flatMap_cons,
        List.flatMap_append, overlooks.same _ _ counterpart, entered.same _ _ counterpart,
        after around aroundToo]
      congr 2
      split
      · exact below _ _
      · rfl
  | omitted _ _ comment plain _ _ _ after =>
      simp only [boundedAmong, boundedWithin, List.map_cons, List.flatMap_cons,
        overlooks.comment _ comment plain, entered.comment _ comment plain, if_true,
        List.nil_append, after around aroundToo]

end Reworded

end SolutionSurvey.Node

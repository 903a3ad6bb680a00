import SolutionSurvey.Path
import SolutionSurvey.Proofs.Collection.Order

/-!
# The order of paths

Paths are ordered component by component, and components by their rank and then by their text.
-/

namespace SolutionSurvey

namespace Component

/-- The text of a name; the other components have none. -/
def nameText : Component → String
  | name text => text
  | _ => ""

theorem order_eq_then (left right : Component) :
    left.order right =
      (compare left.rank right.rank).then (compare left.nameText right.nameText) := by
  cases left <;> cases right <;> simp [order, rank, nameText, Nat.compare_eq_ite_lt]

instance : Std.TransCmp order := by
  have lexicographic : order = compareLex (compareOn rank) (compareOn nameText) := by
    funext left right
    exact order_eq_then left right
  rw [lexicographic]
  infer_instance

instance : Std.LawfulEqCmp order where
  compare_self := order_self _
  eq_of_compare {left right} tie := by
    cases left <;> cases right <;> simp_all [order, rank]

end Component

namespace Path

theorem orderAll_eq_compareLex (left right : List Component) :
    orderAll left right = List.compareLex Component.order left right := by
  induction left generalizing right with
  | nil => cases right <;> rfl
  | cons head rest inductionHypothesis =>
      cases right with
      | nil => rfl
      | cons other others =>
          rw [orderAll, List.compareLex_cons_cons, inductionHypothesis]

instance : Std.TransCmp orderAll := by
  have lexicographic : orderAll = List.compareLex Component.order := by
    funext left right
    exact orderAll_eq_compareLex left right
  rw [lexicographic]
  infer_instance

instance : Std.TransCmp order := transCmp_comap components

/-- The order tells all paths apart that differ in a component. -/
theorem components_eq_of_order_eq {left right : Path} (tie : left.order right = .eq) :
    left.components = right.components := by
  rw [order, orderAll_eq_compareLex] at tie
  exact Std.LawfulEqCmp.eq_of_compare tie

/-- Components that paths start with alike do not count. -/
theorem orderAll_append_left (base left right : List Component) :
    orderAll (base ++ left) (base ++ right) = orderAll left right := by
  induction base with
  | nil => rfl
  | cons first base inductionHypothesis =>
      have tied : first.order first = .eq := order_self first
      rw [List.cons_append, List.cons_append, orderAll, tied, inductionHypothesis]
      rfl

end Path

end SolutionSurvey

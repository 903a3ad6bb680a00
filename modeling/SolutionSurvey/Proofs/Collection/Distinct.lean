import SolutionSurvey.Proofs.Collection.Order

/-!
# The elements of a list, each once and in order

What `Distinct.ofList` returns depends on nothing but the members of the list, so neither their order
nor their repetitions matter.
-/

namespace SolutionSurvey.Distinct

variable {α : Type} {order : α → α → Ordering}

theorem mem_insert [Std.LawfulEqCmp order] {item other : α} {known : List α} :
    other ∈ insert order item known ↔ other = item ∨ other ∈ known := by
  induction known with
  | nil => simp [insert]
  | cons head rest inductionHypothesis =>
      simp only [insert]
      cases compared : order item head with
      | lt => simp
      | eq =>
          have same := Std.LawfulEqCmp.eq_of_compare compared
          simp [same]
      | gt =>
          rw [List.mem_cons, List.mem_cons, inductionHypothesis]
          exact or_left_comm

theorem ascending_insert [Std.TransCmp order] [Std.LawfulEqCmp order] {item : α} {known : List α}
    (ascending : Ascending order known) :
    Ascending order (insert order item known) := by
  induction known with
  | nil => simp [insert, Ascending]
  | cons head rest inductionHypothesis =>
      have parts := List.pairwise_cons.mp ascending
      simp only [insert]
      cases compared : order item head with
      | lt =>
          refine List.pairwise_cons.mpr ⟨?_, ascending⟩
          intro later membership
          rcases List.mem_cons.mp membership with rfl | inRest
          · exact compared
          · exact Std.TransCmp.lt_trans compared (parts.1 later inRest)
      | eq => exact ascending
      | gt =>
          refine List.pairwise_cons.mpr ⟨?_, inductionHypothesis parts.2⟩
          intro later membership
          rcases mem_insert.mp membership with rfl | inRest
          · exact Std.OrientedCmp.gt_iff_lt.mp compared
          · exact parts.1 later inRest

theorem mem_foldl_insert [Std.LawfulEqCmp order] {items known : List α} {other : α} :
    other ∈ items.foldl (fun known item => insert order item known) known ↔
      other ∈ items ∨ other ∈ known := by
  induction items generalizing known with
  | nil => simp
  | cons head rest inductionHypothesis =>
      rw [List.foldl_cons, inductionHypothesis, mem_insert, List.mem_cons, or_left_comm, or_assoc]

theorem ascending_foldl_insert [Std.TransCmp order] [Std.LawfulEqCmp order] {items known : List α}
    (ascending : Ascending order known) :
    Ascending order (items.foldl (fun known item => insert order item known) known) := by
  induction items generalizing known with
  | nil => exact ascending
  | cons head rest inductionHypothesis => exact inductionHypothesis (ascending_insert ascending)

@[simp]
theorem mem_ofList [Std.LawfulEqCmp order] {items : List α} {other : α} :
    other ∈ ofList order items ↔ other ∈ items := by
  simp [ofList, mem_foldl_insert]

theorem ascending_ofList [Std.TransCmp order] [Std.LawfulEqCmp order] (items : List α) :
    Ascending order (ofList order items) :=
  ascending_foldl_insert List.Pairwise.nil

/-- Only the members of a list matter. -/
theorem ofList_eq_of_mem_iff [Std.TransCmp order] [Std.LawfulEqCmp order] {first second : List α}
    (same : ∀ item, item ∈ first ↔ item ∈ second) :
    ofList order first = ofList order second := by
  refine (ascending_ofList first).eq_of_mem_iff (ascending_ofList second) ?_
  intro item
  simp [same item]

end SolutionSurvey.Distinct

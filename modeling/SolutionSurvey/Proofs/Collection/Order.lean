import SolutionSurvey.Collection.Distinct

/-!
# Lists in order

A list in strictly ascending order is determined by its members.  A list in weakly ascending order
is determined by the stretches of members that the order does not tell apart, and sorting keeps each
of these stretches as it is.
-/

namespace SolutionSurvey

variable {α : Type} {order : α → α → Ordering}

/-- Every element comes before all later ones, and the order tells them apart. -/
def Ascending (order : α → α → Ordering) (items : List α) : Prop :=
  items.Pairwise fun earlier later => order earlier later = .lt

def Sorted (order : α → α → Ordering) (items : List α) : Prop :=
  items.Pairwise fun earlier later => (order earlier later).isLE

/-- The elements that the order does not tell apart from a given one. -/
def tiedWith (order : α → α → Ordering) (item : α) (items : List α) : List α :=
  items.filter fun other => order item other == .eq

/-- The comparison by which lists are sorted. -/
abbrev weakly (order : α → α → Ordering) (left right : α) : Bool := (order left right).isLE

@[simp]
theorem mem_tiedWith {item other : α} {items : List α} :
    other ∈ tiedWith order item items ↔ other ∈ items ∧ order item other = .eq := by
  simp [tiedWith]

theorem tiedWith_cons (item head : α) (rest : List α) :
    tiedWith order item (head :: rest) =
      if order item head = .eq then head :: tiedWith order item rest
      else tiedWith order item rest := by
  simp [tiedWith, List.filter_cons]

theorem order_self [Std.ReflCmp order] (item : α) : order item item = .eq :=
  Std.ReflCmp.compare_self

/-- Elements may be compared by what they are taken to. -/
theorem transCmp_comap {β : Type} [Std.TransCmp order] (image : β → α) :
    Std.TransCmp fun left right => order (image left) (image right) where
  eq_swap := Std.OrientedCmp.eq_swap
  isLE_trans := Std.TransCmp.isLE_trans

theorem Ascending.nodup [Std.ReflCmp order] {items : List α} (ascending : Ascending order items) :
    items.Nodup := by
  refine ascending.imp ?_
  rintro earlier later before rfl
  simp [order_self] at before

theorem Ascending.eq_of_mem_iff [Std.TransCmp order] {first second : List α}
    (ascendingFirst : Ascending order first) (ascendingSecond : Ascending order second)
    (same : ∀ item, item ∈ first ↔ item ∈ second) :
    first = second := by
  have permutation : first.Perm second :=
    (List.perm_ext_iff_of_nodup ascendingFirst.nodup ascendingSecond.nodup).mpr same
  refine permutation.eq_of_pairwise ?_ ascendingFirst ascendingSecond
  intro left right _ _ before after
  exact absurd after (Std.OrientedCmp.not_lt_of_lt before)

section Sorting

variable [Std.TransCmp order]

theorem weakly_trans (first second third : α) :
    weakly order first second → weakly order second third → weakly order first third :=
  Std.TransCmp.isLE_trans

theorem weakly_total (left right : α) : weakly order left right || weakly order right left := by
  cases compared : order left right with
  | lt => simp [weakly, compared]
  | eq => simp [weakly, compared]
  | gt => simp [weakly, compared, Std.OrientedCmp.gt_iff_lt.mp compared]

theorem sorted_mergeSort (items : List α) : Sorted order (items.mergeSort (weakly order)) :=
  List.pairwise_mergeSort weakly_trans weakly_total items

/-- Sorting is stable: elements that the order does not tell apart keep their places among each
other. -/
theorem tiedWith_mergeSort (item : α) (items : List α) :
    tiedWith order item (items.mergeSort (weakly order)) = tiedWith order item items := by
  have tied : (tiedWith order item items).Pairwise fun left right => weakly order left right := by
    refine List.pairwise_of_forall_mem_list ?_
    intro left inLeft right inRight
    have leftTied := (mem_tiedWith.mp inLeft).2
    have rightTied := (mem_tiedWith.mp inRight).2
    simp [weakly, Std.TransCmp.eq_trans (Std.OrientedCmp.eq_symm leftTied) rightTied]
  have kept : (tiedWith order item items).Sublist (items.mergeSort (weakly order)) :=
    List.sublist_mergeSort weakly_trans weakly_total tied List.filter_sublist
  have keptTied : (tiedWith order item items).Sublist
      (tiedWith order item (items.mergeSort (weakly order))) := by
    have filtered := kept.filter fun other => order item other == .eq
    rwa [show (tiedWith order item items).filter (fun other => order item other == .eq) =
      tiedWith order item items by simp [tiedWith]] at filtered
  refine (keptTied.eq_of_length ?_).symm
  exact ((List.mergeSort_perm items (weakly order)).filter _).length_eq.symm

theorem Sorted.head_isLE {head : α} {rest : List α} (sorted : Sorted order (head :: rest)) {item : α}
    (membership : item ∈ head :: rest) : (order head item).isLE := by
  rcases List.mem_cons.mp membership with rfl | inRest
  · simp [order_self]
  · exact (List.pairwise_cons.mp sorted).1 item inRest

theorem Sorted.eq_of_tiedWith_eq {first second : List α} (sortedFirst : Sorted order first)
    (sortedSecond : Sorted order second)
    (agree : ∀ item, tiedWith order item first = tiedWith order item second) :
    first = second := by
  induction first generalizing second with
  | nil =>
      cases second with
      | nil => rfl
      | cons head rest =>
          have agreed := agree head
          simp [tiedWith_cons, order_self] at agreed
          simp [tiedWith] at agreed
  | cons head rest inductionHypothesis =>
      have headInSecond : head ∈ tiedWith order head second := by
        rw [← agree head]
        simp [order_self]
      cases second with
      | nil => simp at headInSecond
      | cons other others =>
          have otherInFirst : other ∈ tiedWith order other (head :: rest) := by
            rw [agree other]
            simp [order_self]
          have tie : order head other = .eq :=
            Std.OrientedCmp.isLE_antisymm
              (sortedFirst.head_isLE (mem_tiedWith.mp otherInFirst).1)
              (sortedSecond.head_isLE (mem_tiedWith.mp headInSecond).1)
          have heads : head = other := by
            have agreed := agree head
            simp only [tiedWith_cons, order_self, tie, if_true, List.cons.injEq] at agreed
            exact agreed.1
          subst heads
          congr 1
          refine inductionHypothesis (List.pairwise_cons.mp sortedFirst).2
            (List.pairwise_cons.mp sortedSecond).2 ?_
          intro item
          have agreed := agree item
          simp only [tiedWith_cons] at agreed
          by_cases tied : order item head = .eq
          · simpa [tied] using agreed
          · simpa [tied] using agreed

theorem mergeSort_perm_mergeSort {first second : List α} (perm : first.Perm second)
    (before : α → α → Bool) : (first.mergeSort before).Perm (second.mergeSort before) :=
  ((List.mergeSort_perm _ _).trans perm).trans (List.mergeSort_perm _ _).symm

/-- If the order tells all elements apart, it does not matter to sorting how they came. -/
theorem mergeSort_eq_of_perm [Std.LawfulEqCmp order] {first second : List α}
    (perm : first.Perm second) :
    first.mergeSort (weakly order) = second.mergeSort (weakly order) := by
  have sorted : (first.mergeSort (weakly order)).Perm (second.mergeSort (weakly order)) :=
    mergeSort_perm_mergeSort perm _
  apply sorted.eq_of_pairwise _ (sorted_mergeSort first) (sorted_mergeSort second)
  intro left right _ _ before after
  exact Std.LawfulEqCmp.eq_of_compare (Std.OrientedCmp.isLE_antisymm before after)

/-- What is left out does not matter to the order of the rest. -/
theorem filter_mergeSort (keep : α → Bool) (items : List α) :
    (items.mergeSort (weakly order)).filter keep = (items.filter keep).mergeSort (weakly order) := by
  have sorted : Sorted order ((items.mergeSort (weakly order)).filter keep) :=
    (sorted_mergeSort items).sublist List.filter_sublist
  refine sorted.eq_of_tiedWith_eq (sorted_mergeSort _) fun item => ?_
  have tiedFirst : ∀ others : List α,
      tiedWith order item (others.filter keep) = (tiedWith order item others).filter keep := by
    intro others
    rw [tiedWith, tiedWith, List.filter_filter, List.filter_filter]
    simp only [Bool.and_comm]
  rw [tiedWith_mergeSort, tiedFirst, tiedWith_mergeSort, tiedFirst]

end Sorting

end SolutionSurvey

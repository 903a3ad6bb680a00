import Mathlib.Algebra.Order.BigOperators.Group.List
import SolutionSurvey.Proofs.Collection.Counting

/-!
# Lists in parts

A list is cut into parts by a key of its elements.  Nothing is lost when the parts of all keys are
put together, and in a list that is ordered by the key each part is a stretch.
-/

namespace SolutionSurvey

variable {α κ : Type}

theorem sumOf_map_flatMap {β : Type} (amount : α → Nat) (items : List β) (parts : β → List α) :
    sumOf ((items.flatMap parts).map amount) =
      sumOf (items.map fun item => sumOf ((parts item).map amount)) := by
  simp only [sumOf_eq_sum]
  induction items with
  | nil => rfl
  | cons item rest inductionHypothesis =>
      rw [List.flatMap_cons, List.map_append, List.sum_append, inductionHypothesis, List.map_cons,
        List.sum_cons]

theorem sumOf_filter_concat (keep : α → Bool) (amount : α → Nat) (items : List α) (last : α) :
    sumOf (((items ++ [last]).filter keep).map amount) =
      sumOf ((items.filter keep).map amount) + if keep last then amount last else 0 := by
  by_cases kept : keep last
  · simp [kept, sumOf_eq_sum]
  · simp [kept]

theorem flatMap_filter {β : Type} (keep : β → Bool) (items : List β) (parts : β → List α) :
    (items.filter keep).flatMap parts =
      items.flatMap fun item => if keep item then parts item else [] := by
  induction items with
  | nil => rfl
  | cons item rest inductionHypothesis =>
      rw [List.flatMap_cons, ← inductionHypothesis, List.filter_cons]
      split
      · rw [List.flatMap_cons]
      · rw [List.nil_append]

/-- Elements that bring nothing may be left out. -/
theorem filterMap_filter_of_none {β : Type} {keep : α → Bool} {bring : α → Option β}
    {items : List α} (nothing : ∀ item ∈ items, keep item = false → bring item = none) :
    (items.filter keep).filterMap bring = items.filterMap bring := by
  induction items with
  | nil => rfl
  | cons item rest inductionHypothesis =>
      obtain ⟨nothingHead, nothingRest⟩ := List.forall_mem_cons.mp nothing
      by_cases kept : keep item
      · rw [List.filter_cons_of_pos kept, List.filterMap_cons, List.filterMap_cons,
          inductionHypothesis nothingRest]
      · rw [List.filter_cons_of_neg kept, List.filterMap_cons,
          nothingHead (by simpa using kept), inductionHypothesis nothingRest]

theorem filterMap_of_filter {β : Type} {keep : α → Bool} {convert : α → β} {bring : α → Option β}
    {items : List α}
    (brings : ∀ item ∈ items, bring item = if keep item then some (convert item) else none) :
    items.filterMap bring = (items.filter keep).map convert := by
  induction items with
  | nil => rfl
  | cons item rest inductionHypothesis =>
      obtain ⟨bringsHead, bringsRest⟩ := List.forall_mem_cons.mp brings
      rw [List.filterMap_cons, bringsHead, List.filter_cons, inductionHypothesis bringsRest]
      by_cases kept : keep item <;> simp [kept]

/-- Each element goes to one of two parts. -/
theorem perm_of_split {β : Type} {items : List α} {first second : α → Option β} {whole : α → β}
    (split : ∀ item ∈ items, (first item = some (whole item) ∧ second item = none) ∨
      (first item = none ∧ second item = some (whole item))) :
    (items.filterMap first ++ items.filterMap second).Perm (items.map whole) := by
  induction items with
  | nil => exact .nil
  | cons item rest inductionHypothesis =>
      obtain ⟨splitHead, splitRest⟩ := List.forall_mem_cons.mp split
      have further := inductionHypothesis splitRest
      rw [List.filterMap_cons, List.filterMap_cons, List.map_cons]
      rcases splitHead with ⟨here, notThere⟩ | ⟨notHere, there⟩
      · rw [here, notThere]
        exact further.cons _
      · rw [notHere, there]
        exact List.perm_middle.trans (further.cons _)

section Sums

variable [BEq κ] [LawfulBEq κ] {key : α → κ} {keys : List κ}

omit [LawfulBEq κ] in
theorem sum_part_eq (chosen : κ) (amount : α → Nat) (items : List α) :
    ((items.filter fun item => key item == chosen).map amount).sum =
      (items.map fun item => if key item == chosen then amount item else 0).sum := by
  induction items with
  | nil => rfl
  | cons head rest inductionHypothesis =>
      by_cases same : key head == chosen
      · simp [same, inductionHypothesis]
      · simp [same, inductionHypothesis]

/-- The parts of some keys amount to every item as often as its key is among them. -/
theorem sumOf_parts_eq_count (keys : List κ) (amount : α → Nat) (items : List α) :
    sumOf (keys.map fun part => sumOf ((items.filter fun item => key item == part).map amount)) =
      sumOf (items.map fun item => keys.count (key item) * amount item) := by
  simp only [sumOf_eq_sum]
  induction keys with
  | nil => simp
  | cons part rest inductionHypothesis =>
      rw [List.map_cons, List.sum_cons, inductionHypothesis, sum_part_eq, ← List.sum_map_add]
      congr 1
      refine List.map_congr_left fun item _ => ?_
      rw [List.count_cons]
      by_cases same : key item = part
      · subst same
        simp [Nat.add_mul, Nat.add_comm]
      · simp [same, Ne.symm same]

/-- What the parts of all keys amount to is what the whole list amounts to. -/
theorem sumOf_parts (distinct : keys.Nodup) (amount : α → Nat) {items : List α}
    (covered : ∀ item ∈ items, key item ∈ keys) :
    sumOf (keys.map fun part => sumOf ((items.filter fun item => key item == part).map amount)) =
      sumOf (items.map amount) := by
  rw [sumOf_parts_eq_count]
  congr 1
  refine List.map_congr_left fun item membership => ?_
  rw [List.count_eq_one_of_mem distinct (covered item membership), Nat.one_mul]

theorem sum_map_eq_iff_of_le {amount bigger : α → Nat} {items : List α}
    (below : ∀ item ∈ items, amount item ≤ bigger item) :
    (items.map bigger).sum = (items.map amount).sum ↔
      ∀ item ∈ items, bigger item = amount item := by
  induction items with
  | nil => simp
  | cons head rest inductionHypothesis =>
      obtain ⟨belowHead, belowRest⟩ := List.forall_mem_cons.mp below
      have restBelow : (rest.map amount).sum ≤ (rest.map bigger).sum :=
        List.sum_le_sum belowRest
      rw [List.map_cons, List.map_cons, List.sum_cons, List.sum_cons, List.forall_mem_cons,
        ← inductionHypothesis belowRest]
      omega

/-- The parts of some keys amount to no more than the whole list just if no key of an item is among
them twice. -/
theorem sumOf_parts_eq_iff (amount : α → Nat) {items : List α}
    (covered : ∀ item ∈ items, key item ∈ keys) (positive : ∀ item ∈ items, 0 < amount item) :
    sumOf (keys.map fun part => sumOf ((items.filter fun item => key item == part).map amount)) =
      sumOf (items.map amount) ↔ ∀ item ∈ items, keys.count (key item) = 1 := by
  have counted : ∀ item ∈ items, amount item ≤ keys.count (key item) * amount item :=
    fun item membership =>
      Nat.le_mul_of_pos_left _ (List.count_pos_iff.mpr (covered item membership))
  rw [sumOf_parts_eq_count, sumOf_eq_sum, sumOf_eq_sum, sum_map_eq_iff_of_le counted]
  refine forall₂_congr fun item membership => ?_
  rw [Nat.mul_eq_right (positive item membership).ne']

theorem sum_part_eq_zero_iff (amount : α → Nat) {items : List α} {chosen : κ} :
    ((items.filter fun item => key item == chosen).map amount).sum = 0 ↔
      ∀ item ∈ items, key item = chosen → amount item = 0 := by
  rw [List.sum_eq_zero_iff_forall_eq_nat, List.forall_mem_map]
  simp

/-- Each item is alone in having an amount among those of its key, if every part amounts to what any
of its items does. -/
theorem sumOf_part_eq_iff_alone [DecidableEq κ] (amount : α → Nat) {items : List α} :
    (∀ item ∈ items,
      sumOf ((items.filter fun other => key other == key item).map amount) = amount item) ↔
      items.Pairwise fun first second =>
        key first = key second → amount first = 0 ∧ amount second = 0 := by
  simp only [sumOf_eq_sum]
  induction items with
  | nil => simp
  | cons head rest inductionHypothesis =>
      have split : ∀ item,
          (((head :: rest).filter fun other => key other == key item).map amount).sum =
            (if key head = key item then amount head else 0) +
              ((rest.filter fun other => key other == key item).map amount).sum := by
        intro item
        by_cases same : key head = key item <;> simp [same]
      simp only [split, List.forall_mem_cons, List.pairwise_cons, ← inductionHypothesis]
      constructor
      · rintro ⟨ownHead, ownRest⟩
        have nothing := (sum_part_eq_zero_iff amount).mp (by simpa using ownHead)
        -- The head leaves nothing to the others of its key, so their sums leave nothing to it.
        have noAmount : ∀ other ∈ rest, key head = key other →
            amount head = 0 ∧ amount other = 0 := by
          intro other membership same
          have otherAmount := nothing other membership same.symm
          have own := ownRest other membership
          rw [if_pos same] at own
          exact ⟨by omega, otherAmount⟩
        refine ⟨noAmount, fun item membership => ?_⟩
        have own := ownRest item membership
        by_cases same : key head = key item
        · rwa [if_pos same, (noAmount item membership same).1, Nat.zero_add] at own
        · rwa [if_neg same, Nat.zero_add] at own
      · rintro ⟨noAmount, ownRest⟩
        refine ⟨?_, fun item membership => ?_⟩
        · have nothing := (sum_part_eq_zero_iff amount).mpr fun other membership same =>
            (noAmount other membership same.symm).2
          rw [if_pos trivial, nothing, Nat.add_zero]
        · rw [ownRest item membership]
          by_cases same : key head = key item
          · rw [if_pos same, (noAmount item membership same).1, Nat.zero_add]
          · rw [if_neg same, Nat.zero_add]

end Sums

section Stretches

variable {key : α → Nat} {items : List α}

theorem filter_lt_eq_nil {part : Nat} (least : ∀ item ∈ items, part ≤ key item) :
    (items.filter fun item => key item < part) = [] :=
  List.filter_eq_nil_iff.mpr fun item membership => by simpa using least item membership

theorem parts_of_ordered (ordered : items.Pairwise fun left right => key left ≤ key right)
    (part : Nat) :
    (items.filter fun item => key item < part) ++ ((items.filter fun item => key item == part) ++
      items.filter fun item => part < key item) = items := by
  induction items with
  | nil => rfl
  | cons head rest inductionHypothesis =>
      obtain ⟨least, orderedRest⟩ := List.pairwise_cons.mp ordered
      have further := inductionHypothesis orderedRest
      rcases Nat.lt_trichotomy (key head) part with below | same | above
      · have notSame : ¬key head = part := by omega
        have notAbove : ¬part < key head := by omega
        simp [below, notSame, notAbove, further]
      · have noneBelow := filter_lt_eq_nil (same ▸ least)
        rw [noneBelow, List.nil_append] at further
        simp [same, noneBelow, further]
      · have noneBelow := filter_lt_eq_nil fun item membership =>
          above.le.trans (least item membership)
        have noneSame : (rest.filter fun item => key item == part) = [] := by
          refine List.filter_eq_nil_iff.mpr fun item membership => ?_
          have order := least item membership
          simp only [beq_iff_eq]
          omega
        rw [noneBelow, noneSame, List.nil_append, List.nil_append] at further
        have notBelow : ¬key head < part := by omega
        have notSame : ¬key head = part := by omega
        simp [notBelow, notSame, above, noneBelow, noneSame, further]

/-- In an ordered list the part of a key starts after all smaller keys. -/
theorem take_drop_of_ordered (ordered : items.Pairwise fun left right => key left ≤ key right)
    (part : Nat) :
    (items.drop (items.filter fun item => key item < part).length).take
      (items.filter fun item => key item == part).length =
        items.filter fun item => key item == part := by
  conv_lhs => enter [2, 2]; rw [← parts_of_ordered ordered part]
  rw [List.drop_left, List.take_left]

/-- The parts of an ordered list, one after the other, are the list. -/
theorem flatMap_parts_of_ordered
    (ordered : items.Pairwise fun left right => key left ≤ key right) {count : Nat}
    (bounded : ∀ item ∈ items, key item < count) :
    ((List.range count).flatMap fun part => items.filter fun item => key item == part) = items := by
  induction count generalizing items with
  | zero =>
      cases items with
      | nil => rfl
      | cons head rest => exact absurd (bounded head List.mem_cons_self) (Nat.not_lt_zero _)
  | succ count inductionHypothesis =>
      have smaller := inductionHypothesis (ordered.filter fun item => decide (key item < count))
        fun item membership => by simpa using (List.mem_filter.mp membership).2
      have noneAbove : (items.filter fun item => count < key item) = [] := by
        refine List.filter_eq_nil_iff.mpr fun item membership => ?_
        have bound := bounded item membership
        simp only [decide_eq_true_eq]
        omega
      have kept : ∀ part ∈ List.range count,
          (items.filter fun item => key item == part) =
            (items.filter fun item => decide (key item < count)).filter
              fun item => key item == part := by
        intro part membership
        rw [List.filter_filter]
        refine List.filter_congr fun item _ => ?_
        have bound := List.mem_range.mp membership
        by_cases same : key item = part <;> simp [same, bound]
      rw [List.range_succ, List.flatMap_append, List.flatMap_congr kept, smaller,
        List.flatMap_singleton]
      have parts := parts_of_ordered ordered count
      rwa [noneAbove, List.append_nil] at parts

end Stretches

end SolutionSurvey

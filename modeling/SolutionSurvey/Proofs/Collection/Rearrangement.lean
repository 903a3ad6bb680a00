import SolutionSurvey.Proofs.Collection.Parts

/-!
# Lists in another order

A sum does not show the order of the items, nor does anything that comes from one item alone.
-/

namespace SolutionSurvey

variable {α β κ : Type} {first second : List α}

theorem sumOf_map_eq_of_perm (perm : first.Perm second) (amount : α → Nat) :
    sumOf (first.map amount) = sumOf (second.map amount) :=
  (perm.map amount).sum_eq

theorem eq_of_perm_of_few (perm : first.Perm second) (few : first.length < 2) : first = second := by
  match first with
  | [] => exact perm.nil_eq
  | [_] => exact perm.singleton_eq
  | _ :: _ :: _ => simp at few

section Key

variable [BEq κ] [LawfulBEq κ] {key : α → κ}

/-- If keys tell the items apart, no two of them have the same key. -/
theorem length_filter_key_lt_two (distinct : (first.map key).Nodup) (chosen : κ) :
    (first.filter fun item => key item == chosen).length < 2 := by
  have once := List.nodup_iff_count_le_one.mp distinct chosen
  rw [List.count, List.countP_map, List.countP_eq_length_filter] at once
  exact Nat.lt_succ_of_le once

variable (distinct : (first.map key).Nodup) (perm : first.Perm second)

include distinct perm

theorem filter_key_eq_of_perm (chosen : κ) :
    (first.filter fun item => key item == chosen) = second.filter fun item => key item == chosen :=
  eq_of_perm_of_few (perm.filter _) (length_filter_key_lt_two distinct chosen)

theorem flatMap_eq_of_perm {part : α → List β} (chosen : κ)
    (alone : ∀ item, part item ≠ [] → key item = chosen) :
    first.flatMap part = second.flatMap part := by
  have whole : ∀ items : List α,
      items.flatMap part = (items.filter fun item => key item == chosen).flatMap part := by
    intro items
    rw [flatMap_filter]
    apply List.flatMap_congr
    intro item _
    by_cases nothing : part item = []
    · rw [nothing, ite_self]
    · rw [if_pos (beq_iff_eq.mpr (alone item nothing))]
  rw [whole first, whole second, filter_key_eq_of_perm distinct perm]

end Key

end SolutionSurvey

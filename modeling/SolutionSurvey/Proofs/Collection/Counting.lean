import Mathlib.Data.Set.Card
import Mathlib.Data.Set.Finite.Lattice
import SolutionSurvey.Collection.Tally

/-!
# Counting by lists

A set is counted by listing its elements, each once, and by counting disjoint parts of it.
-/

namespace SolutionSurvey

variable {α β : Type}

theorem sumOf_eq_sum (numbers : List Nat) : sumOf numbers = numbers.sum := rfl

/-- A list without repetitions counts its members. -/
theorem ncard_setOf_mem {items : List α} (distinct : items.Nodup) :
    {item | item ∈ items}.ncard = items.length := by
  classical
  rw [← List.coe_toFinset, Set.ncard_coe_finset, List.toFinset_card_of_nodup distinct]

/-- What a list has to say about its items is counted by the items of which it is said. -/
theorem ncard_setOf_exists {items : List α} (distinct : items.Nodup) {say : α → Option β}
    (covers : ∀ item value, say item = some value → item ∈ items) (accept : β → Bool) :
    {item | ∃ value, say item = some value ∧ accept value}.ncard =
      (items.filterMap say).countP accept := by
  have listed : {item | ∃ value, say item = some value ∧ accept value} =
      {item | item ∈ items.filter fun item => ((say item).map accept).getD false} := by
    ext item
    rw [Set.mem_ofPred_eq, Set.mem_ofPred_eq, List.mem_filter]
    constructor
    · rintro ⟨value, said, accepted⟩
      exact ⟨covers item value said, by simp [said, accepted]⟩
    · rintro ⟨_, accepted⟩
      cases said : say item with
      | none => simp [said] at accepted
      | some value => exact ⟨value, rfl, by simpa [said] using accepted⟩
  rw [listed, ncard_setOf_mem (distinct.filter _), List.countP_filterMap, List.countP_eq_length_filter]

/-- Disjoint parts together hold as many elements as there are in all of them. -/
theorem sum_map_ncard {keys : List β} (distinct : keys.Nodup) {part : β → Set α}
    (finite : ∀ key ∈ keys, (part key).Finite)
    (disjoint : ∀ first ∈ keys, ∀ second ∈ keys, ∀ item,
      item ∈ part first → item ∈ part second → first = second) :
    (keys.map fun key => (part key).ncard).sum = {item | ∃ key ∈ keys, item ∈ part key}.ncard := by
  induction keys with
  | nil => simp
  | cons head rest inductionHypothesis =>
      obtain ⟨fresh, distinctRest⟩ := List.nodup_cons.mp distinct
      have finiteRest : {item | ∃ key ∈ rest, item ∈ part key}.Finite := by
        have listed : {key | key ∈ rest}.Finite := rest.finite_toSet
        refine (listed.biUnion fun key membership =>
          finite key (List.mem_cons_of_mem head membership)).subset ?_
        rintro item ⟨key, membership, inPart⟩
        exact Set.mem_biUnion membership inPart
      have split : {item | ∃ key ∈ head :: rest, item ∈ part key} =
          part head ∪ {item | ∃ key ∈ rest, item ∈ part key} := by
        ext item
        simp
      have apart : Disjoint (part head) {item | ∃ key ∈ rest, item ∈ part key} := by
        refine Set.disjoint_left.mpr ?_
        rintro item inHead ⟨key, membership, inPart⟩
        have same := disjoint head List.mem_cons_self key (List.mem_cons_of_mem head membership)
          item inHead inPart
        exact fresh (same ▸ membership)
      rw [List.map_cons, List.sum_cons, split,
        Set.ncard_union_eq apart (finite head List.mem_cons_self) finiteRest,
        inductionHypothesis distinctRest
          (fun key membership => finite key (List.mem_cons_of_mem head membership))
          (fun first inFirst second inSecond => disjoint first (List.mem_cons_of_mem head inFirst)
            second (List.mem_cons_of_mem head inSecond))]

end SolutionSurvey

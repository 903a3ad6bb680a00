import SolutionSurvey.Collection.Table
import SolutionSurvey.Collection.Tally
import SolutionSurvey.Proofs.Collection.Order

/-!
# What a table holds

Giving a key a value changes the value of no other key, and keeps the entries in order.
-/

namespace SolutionSurvey.Table

variable {α : Type}

def entryOrder (left right : String × α) : Ordering := compare left.1 right.1

instance : Std.TransCmp (entryOrder (α := α)) :=
  inferInstanceAs (Std.TransCmp (compareOn (Prod.fst : String × α → String)))

@[simp]
theorem get?_nil (key : String) : get? key ([] : Table α) = none := rfl

theorem get?_cons (key known : String) (value : α) (rest : Table α) :
    get? key ((known, value) :: rest) = if key = known then some value else get? key rest := rfl

theorem get?_insert (key other : String) (value : α) (table : Table α) :
    get? other (insert key value table) = if other = key then some value else get? other table := by
  induction table with
  | nil => simp [insert, get?_cons]
  | cons entry rest inductionHypothesis =>
      obtain ⟨known, old⟩ := entry
      simp only [insert]
      cases compared : compare key known with
      | lt => simp [get?_cons]
      | eq =>
          have same : key = known := Std.LawfulEqOrd.eq_of_compare compared
          simp only [get?_cons, same]
          split <;> simp_all
      | gt =>
          have different : key ≠ known := by
            rintro rfl
            simp at compared
          simp only [get?_cons, inductionHypothesis]
          by_cases known_other : other = known
          · simp [known_other, different.symm]
          · simp [known_other]

theorem mem_insert_key {key : String} {value : α} {table : Table α} {entry : String × α}
    (membership : entry ∈ insert key value table) : entry.1 = key ∨ entry ∈ table := by
  induction table with
  | nil => simp_all [insert]
  | cons head rest inductionHypothesis =>
      obtain ⟨known, old⟩ := head
      simp only [insert] at membership
      cases compared : compare key known with
      | lt =>
          simp only [compared, List.mem_cons] at membership ⊢
          rcases membership with rfl | kept
          · exact .inl rfl
          · exact .inr kept
      | eq =>
          simp only [compared, List.mem_cons] at membership ⊢
          rcases membership with rfl | kept
          · exact .inl rfl
          · exact .inr (.inr kept)
      | gt =>
          simp only [compared, List.mem_cons] at membership ⊢
          rcases membership with rfl | below
          · exact .inr (.inl rfl)
          · exact (inductionHypothesis below).imp id .inr

theorem ascending_insert {key : String} {value : α} {table : Table α}
    (ascending : Ascending entryOrder table) : Ascending entryOrder (insert key value table) := by
  induction table with
  | nil => simp [insert, Ascending]
  | cons head rest inductionHypothesis =>
      obtain ⟨known, old⟩ := head
      have parts := List.pairwise_cons.mp ascending
      simp only [insert]
      cases compared : compare key known with
      | lt =>
          refine List.pairwise_cons.mpr ⟨?_, ascending⟩
          intro later membership
          rcases List.mem_cons.mp membership with rfl | inRest
          · exact compared
          · have below : entryOrder (key, value) (known, old) = .lt := compared
            exact Std.TransCmp.lt_trans below (parts.1 later inRest)
      | eq =>
          have same : key = known := Std.LawfulEqOrd.eq_of_compare compared
          subst same
          exact List.pairwise_cons.mpr ⟨parts.1, parts.2⟩
      | gt =>
          refine List.pairwise_cons.mpr ⟨?_, inductionHypothesis parts.2⟩
          intro later membership
          rcases mem_insert_key membership with same | inRest
          · change compare known later.1 = .lt
            rw [same]
            exact Std.OrientedCmp.gt_iff_lt.mp compared
          · exact parts.1 later inRest

/-- In a table whose entries are in order, a key has the value that stands beside it. -/
theorem mem_iff_get?_eq_some {table : Table α} (ascending : Ascending entryOrder table)
    {key : String} {value : α} : (key, value) ∈ table ↔ table.get? key = some value := by
  induction table with
  | nil => simp
  | cons head rest inductionHypothesis =>
      obtain ⟨known, old⟩ := head
      have parts := List.pairwise_cons.mp ascending
      rw [get?_cons, List.mem_cons, inductionHypothesis parts.2]
      by_cases same : key = known
      · subst same
        have absent : get? key rest ≠ some value := by
          intro found
          have before := parts.1 _ ((inductionHypothesis parts.2).mpr found)
          simp [entryOrder] at before
        simp [absent, eq_comm]
      · simp [same]

/-- Tables in order that give the same values are the same. -/
theorem eq_of_get?_eq {first second : Table α} (ascending : Ascending entryOrder first)
    (ascendingToo : Ascending entryOrder second)
    (same : ∀ key, first.get? key = second.get? key) : first = second := by
  apply ascending.eq_of_mem_iff ascendingToo
  rintro ⟨key, value⟩
  rw [mem_iff_get?_eq_some ascending, mem_iff_get?_eq_some ascendingToo, same]

/-- A key before all others has no value. -/
theorem get?_eq_none_of_before {table : Table α} (ascending : Ascending entryOrder table)
    {key : String} (before : ∀ entry ∈ table, compare key entry.1 = .lt) :
    table.get? key = none := by
  refine Option.eq_none_iff_forall_ne_some.mpr fun value found => ?_
  have itself := before _ ((mem_iff_get?_eq_some ascending).mpr found)
  simp at itself

/-! ### Tables of numbers -/

def total (table : Table Nat) : Nat := sumOf (table.map (·.2))

@[simp]
theorem total_nil : total [] = 0 := rfl

@[simp]
theorem total_cons (key : String) (value : Nat) (rest : Table Nat) :
    total ((key, value) :: rest) = value + total rest := rfl

/-- A new value adds to the total what it has more than the old one. -/
theorem total_insert {key : String} {value : Nat} {table : Table Nat}
    (ascending : Ascending entryOrder table) :
    total (insert key value table) + (table.get? key).getD 0 = total table + value := by
  induction table with
  | nil => simp [insert]
  | cons head rest inductionHypothesis =>
      obtain ⟨known, old⟩ := head
      have parts := List.pairwise_cons.mp ascending
      cases compared : compare key known with
      | lt =>
          have before : ∀ entry ∈ (known, old) :: rest, compare key entry.1 = .lt := by
            intro entry membership
            rcases List.mem_cons.mp membership with rfl | inRest
            · exact compared
            · exact Std.TransCmp.lt_trans compared (parts.1 entry inRest)
          rw [get?_eq_none_of_before ascending before]
          simp [insert, compared, Nat.add_comm]
      | eq =>
          have same : key = known := Std.LawfulEqOrd.eq_of_compare compared
          simp only [insert, compared, get?_cons, if_pos same, Option.getD_some, total_cons]
          omega
      | gt =>
          have different : key ≠ known := by
            rintro rfl
            simp at compared
          have further := inductionHypothesis parts.2
          simp only [insert, compared, get?_cons, if_neg different, total_cons]
          omega

theorem total_add {key : String} {amount : Nat} {table : Table Nat}
    (ascending : Ascending entryOrder table) :
    total (add key amount table) = total table + amount := by
  have inserted : total (add key amount table) + (table.get? key).getD 0 =
      total table + ((table.get? key).getD 0 + amount) := total_insert ascending
  omega

end SolutionSurvey.Table

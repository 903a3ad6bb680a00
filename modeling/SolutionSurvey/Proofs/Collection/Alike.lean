import Mathlib.Data.List.Forall2

/-!
# Lists and outcomes that agree

What is done to two lists in the same way keeps the relation between their items.  Two attempts end
alike if both fail or both succeed with results that are related.
-/

namespace SolutionSurvey

variable {α β γ : Type} {relation : α → β → Prop}

theorem forall₂_flatMap_of_mem {items : List γ} {first : γ → List α} {second : γ → List β}
    (related : ∀ item ∈ items, List.Forall₂ relation (first item) (second item)) :
    List.Forall₂ relation (items.flatMap first) (items.flatMap second) := by
  induction items with
  | nil => exact .nil
  | cons item rest inductionHypothesis =>
      obtain ⟨relatedItem, relatedRest⟩ := List.forall_mem_cons.mp related
      rw [List.flatMap_cons, List.flatMap_cons]
      exact List.rel_append relatedItem (inductionHypothesis relatedRest)

theorem forall₂_zipIdx {left : List α} {right : List β} (related : List.Forall₂ relation left right)
    (start : Nat) :
    List.Forall₂ (fun item other => relation item.1 other.1 ∧ item.2 = other.2)
      (left.zipIdx start) (right.zipIdx start) := by
  induction related generalizing start with
  | nil => exact .nil
  | cons head _ inductionHypothesis =>
      rw [List.zipIdx_cons, List.zipIdx_cons]
      exact .cons ⟨head, rfl⟩ (inductionHypothesis (start + 1))

/-- Sorting moves related items to the same places if they are compared alike. -/
theorem forall₂_mergeSort {left : List α} {right : List β} {before : α → α → Bool}
    {beforeToo : β → β → Bool} (related : List.Forall₂ relation left right)
    (alike : ∀ first other, relation first other → ∀ second another, relation second another →
      before first second = beforeToo other another) :
    List.Forall₂ relation (left.mergeSort before) (right.mergeSort beforeToo) := by
  -- Sort the pairs of related items; either side of the result is the sorted list of that side.
  obtain ⟨sameLength, inPairs⟩ := List.forall₂_iff_zip.mp related
  let pairs := left.zip right
  let beforePairs (pair other : α × β) : Bool := before pair.1 other.1
  have leftSorted : (pairs.mergeSort beforePairs).map Prod.fst =
      (pairs.map Prod.fst).mergeSort before :=
    List.map_mergeSort fun _ _ _ _ => rfl
  have rightSorted : (pairs.mergeSort beforePairs).map Prod.snd =
      (pairs.map Prod.snd).mergeSort beforeToo :=
    List.map_mergeSort fun _ membership _ otherMembership =>
      alike _ _ (inPairs membership) _ _ (inPairs otherMembership)
  rw [List.map_fst_zip (Nat.le_of_eq sameLength)] at leftSorted
  rw [List.map_snd_zip (Nat.le_of_eq sameLength.symm)] at rightSorted
  rw [← leftSorted, ← rightSorted, List.forall₂_map_left_iff, List.forall₂_map_right_iff,
    List.forall₂_same]
  intro pair membership
  exact inPairs (List.mem_mergeSort.mp membership)

theorem map_eq_map_of_forall₂ {left : List α} {right : List β} {first : α → γ} {second : β → γ}
    (related : List.Forall₂ relation left right)
    (agree : ∀ item other, relation item other → first item = second other) :
    left.map first = right.map second := by
  induction related with
  | nil => rfl
  | cons head _ inductionHypothesis =>
      rw [List.map_cons, List.map_cons, agree _ _ head, inductionHypothesis]

theorem find?_related_of_forall₂ {left : List α} {right : List β} {looksFor : α → Bool}
    {looksForToo : β → Bool} (related : List.Forall₂ relation left right)
    (agree : ∀ item other, relation item other → looksFor item = looksForToo other) :
    Option.Rel relation (left.find? looksFor) (right.find? looksForToo) := by
  induction related with
  | nil => exact .none
  | cons head _ inductionHypothesis =>
      rw [List.find?_cons, List.find?_cons, ← agree _ _ head]
      split
      · exact .some head
      · exact inductionHypothesis

theorem head?_related_of_forall₂ {left : List α} {right : List β}
    (related : List.Forall₂ relation left right) : Option.Rel relation left.head? right.head? := by
  cases related with
  | nil => exact .none
  | cons head _ => exact .some head

theorem exists_related_of_mem {left : List α} {right : List β}
    (related : List.Forall₂ relation left right) {item : α} (membership : item ∈ left) :
    ∃ other ∈ right, relation item other := by
  induction related with
  | nil => cases membership
  | cons head _ inductionHypothesis =>
      rcases List.mem_cons.mp membership with rfl | inRest
      · exact ⟨_, List.mem_cons_self, head⟩
      · obtain ⟨other, found, holds⟩ := inductionHypothesis inRest
        exact ⟨other, List.mem_cons_of_mem _ found, holds⟩

/-! ### Attempts with a changed result -/

section Map

variable {ε : Type} {attempt : Except ε α} {change : α → β}

theorem map_eq_ok_iff {result : β} :
    attempt.map change = .ok result ↔ ∃ value, attempt = .ok value ∧ change value = result := by
  cases attempt with
  | error cause => simp [Except.map]
  | ok value => simp [Except.map]

theorem map_eq_error_iff {cause : ε} :
    attempt.map change = .error cause ↔ attempt = .error cause := by
  cases attempt with
  | error known => simp [Except.map]
  | ok value => simp [Except.map]

end Map

/-! ### Attempts that end alike -/

section EndAlike

variable {ε : Type}

inductive EndAlike (relation : α → β → Prop) : Except ε α → Except ε β → Prop
  | succeeded {result other} : relation result other → EndAlike relation (.ok result) (.ok other)
  | failed (cause reason) : EndAlike relation (.error cause) (.error reason)

@[simp]
theorem endAlike_ok_iff {result : α} {other : β} :
    EndAlike relation (.ok result : Except ε α) (.ok other) ↔ relation result other := by
  constructor
  · intro alike
    cases alike with
    | succeeded related => exact related
  · exact .succeeded

theorem EndAlike.related {first : Except ε α} {second : Except ε β} {result : α} {other : β}
    (alike : EndAlike relation first second) (done : first.toOption = some result)
    (doneToo : second.toOption = some other) : relation result other := by
  cases alike with
  | succeeded related =>
      obtain rfl := Option.some.inj done
      obtain rfl := Option.some.inj doneToo
      exact related
  | failed => cases done

theorem EndAlike.exists_related {first : Except ε α} {second : Except ε β} {result : α}
    (alike : EndAlike relation first second) (done : first = .ok result) :
    ∃ other, second = .ok other ∧ relation result other := by
  cases alike with
  | succeeded related =>
      obtain rfl := Except.ok.inj done
      exact ⟨_, rfl, related⟩
  | failed => cases done

theorem EndAlike.bind {δ η : Type} {further : δ → η → Prop} {first : Except ε α}
    {second : Except ε β} {next : α → Except ε δ} {nextToo : β → Except ε η}
    (alike : EndAlike relation first second)
    (goOn : ∀ result other, relation result other → EndAlike further (next result) (nextToo other)) :
    EndAlike further (first >>= next) (second >>= nextToo) := by
  cases alike with
  | succeeded related => exact goOn _ _ related
  | failed cause reason => exact .failed cause reason

theorem endAlike_mapM {δ η : Type} {further : δ → η → Prop} {left : List α} {right : List β}
    {attempt : α → Except ε δ} {attemptToo : β → Except ε η}
    (related : List.Forall₂ relation left right)
    (alike : ∀ item other, relation item other →
      EndAlike further (attempt item) (attemptToo other)) :
    EndAlike (List.Forall₂ further) (left.mapM attempt) (right.mapM attemptToo) := by
  induction related with
  | nil => exact .succeeded .nil
  | cons head _ inductionHypothesis =>
      rw [List.mapM_cons, List.mapM_cons]
      apply (alike _ _ head).bind
      intro result other first
      apply inductionHypothesis.bind
      intro results others rest
      exact .succeeded (.cons first rest)

end EndAlike

end SolutionSurvey

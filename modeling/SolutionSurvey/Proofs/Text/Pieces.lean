import Mathlib.Data.List.TakeWhile
import SolutionSurvey.Text.Affix
import SolutionSurvey.Text.Blank

/-!
# Stretches between separators

A text falls into stretches that hold no separator, and no operation that cuts, trims or leaves out
parts brings in a character that was not in the text, or changes the order of those that stay.
-/

namespace SolutionSurvey.Text

variable {α : Type} {separates : α → Bool}

theorem pieces_ne_nil (items : List α) : pieces separates items ≠ [] := by
  cases items with
  | nil => simp [pieces]
  | cons item rest =>
      rw [pieces]
      split
      · simp
      · split <;> simp

theorem pieces_append_cons {separator : α} (separating : separates separator) (front back : List α) :
    pieces separates (front ++ separator :: back) =
      pieces separates front ++ pieces separates back := by
  induction front with
  | nil => simp [pieces, separating]
  | cons item front inductionHypothesis =>
      rw [List.cons_append, pieces, pieces, inductionHypothesis]
      by_cases separated : separates item
      · rw [if_pos separated, if_pos separated, List.cons_append]
      · rw [if_neg separated, if_neg separated]
        cases cut : pieces separates front with
        | nil => exact absurd cut (pieces_ne_nil front)
        | cons first others => rfl

theorem pieces_of_none {items : List α} (whole : ∀ item ∈ items, separates item = false) :
    pieces separates items = [items] := by
  induction items with
  | nil => rfl
  | cons item rest inductionHypothesis =>
      obtain ⟨wholeItem, wholeRest⟩ := List.forall_mem_cons.mp whole
      rw [pieces, if_neg (by simp [wholeItem]), inductionHypothesis wholeRest]

/-- A stretch without a sign ends before the first one. -/
theorem takeWhile_and_dropWhile {sign : Char} {stretch : List Char} (absent : sign ∉ stretch)
    (rest : List Char) :
    (stretch ++ sign :: rest).takeWhile (· != sign) = stretch ∧
      (stretch ++ sign :: rest).dropWhile (· != sign) = sign :: rest := by
  have plain : ∀ c ∈ stretch, (c != sign) = true := by
    intro c membership
    exact bne_iff_ne.mpr fun same => absent (same ▸ membership)
  constructor
  · rw [List.takeWhile_append_of_pos plain, List.takeWhile_cons_of_neg (by simp), List.append_nil]
  · rw [List.dropWhile_append_of_pos plain, List.dropWhile_cons_of_neg (by simp)]

theorem not_mem_takeWhile_ne (sign : Char) (text : List Char) :
    sign ∉ text.takeWhile (· != sign) := by
  intro membership
  simpa using List.mem_takeWhile_imp membership

/-- The first stretch ends before the first separator, and the others follow it. -/
theorem mem_pieces_cons {item : α} {rest stretch : List α}
    (membership : stretch ∈ pieces separates (item :: rest)) :
    stretch = [] ∨ stretch ∈ pieces separates rest ∨
      separates item = false ∧ ∃ first ∈ pieces separates rest, stretch = item :: first := by
  rw [pieces] at membership
  by_cases separated : separates item
  · rw [if_pos separated] at membership
    rcases List.mem_cons.mp membership with isEmpty | inRest
    · exact .inl isEmpty
    · exact .inr (.inl inRest)
  · rw [if_neg separated] at membership
    cases cut : pieces separates rest with
    | nil => exact absurd cut (pieces_ne_nil rest)
    | cons first others =>
        rw [cut] at membership
        rcases List.mem_cons.mp membership with isFirst | inOthers
        · exact .inr (.inr ⟨by simpa using separated, first, List.mem_cons_self, isFirst⟩)
        · exact .inr (.inl (List.mem_cons_of_mem first inOthers))

theorem not_separates_of_mem_pieces {items stretch : List α}
    (membership : stretch ∈ pieces separates items) : ∀ item ∈ stretch, separates item = false := by
  induction items generalizing stretch with
  | nil => simp_all [pieces]
  | cons item rest inductionHypothesis =>
      rcases mem_pieces_cons membership with rfl | inRest | ⟨plain, first, isFirst, rfl⟩
      · simp
      · exact inductionHypothesis inRest
      · exact List.forall_mem_cons.mpr ⟨plain, inductionHypothesis isFirst⟩

theorem sublist_of_mem_pieces {items stretch : List α}
    (membership : stretch ∈ pieces separates items) : stretch.Sublist items := by
  induction items generalizing stretch with
  | nil => simp_all [pieces]
  | cons item rest inductionHypothesis =>
      rcases mem_pieces_cons membership with rfl | inRest | ⟨_, first, isFirst, rfl⟩
      · exact List.nil_sublist _
      · exact (inductionHypothesis inRest).cons item
      · exact (inductionHypothesis isFirst).cons_cons item

theorem trimList_sublist (kind : α → Bool) (items : List α) : (trimList kind items).Sublist items := by
  have atEnd : (((items.dropWhile kind).reverse).dropWhile kind).Sublist
      (items.dropWhile kind).reverse := List.dropWhile_sublist kind
  have trimmed := atEnd.reverse
  rw [List.reverse_reverse] at trimmed
  exact trimmed.trans (List.dropWhile_sublist kind)

theorem withoutList_sublist (part : List Char) (skip : Nat) (text : List Char) :
    (withoutList part skip text).Sublist text := by
  induction text generalizing skip with
  | nil => simp [withoutList]
  | cons c rest inductionHypothesis =>
      cases skip with
      | succ skip => exact (inductionHypothesis skip).cons c
      | zero =>
          rw [withoutList]
          split
          · exact (inductionHypothesis _).cons c
          · exact (inductionHypothesis 0).cons_cons c

/-- A part does not occur where one of its characters does not. -/
theorem withoutList_of_not_mem {c : Char} {part text : List Char} (inPart : c ∈ part)
    (absent : c ∉ text) : withoutList part 0 text = text := by
  induction text with
  | nil => rfl
  | cons first rest inductionHypothesis =>
      have elsewhere : ¬ part.isPrefixOf (first :: rest) := fun occurs =>
        absent ((List.isPrefixOf_iff_prefix.mp occurs).subset inPart)
      rw [withoutList, if_neg elsewhere,
        inductionHypothesis fun later => absent (List.mem_cons_of_mem first later)]

theorem splitAtFirst?_eq_none_iff {c : Char} {text : String} :
    splitAtFirst? c text = none ↔ c ∉ text.toList := by
  unfold splitAtFirst?
  split
  case h_1 nothing =>
    have none := List.dropWhile_eq_nil_iff.mp nothing
    simp only [bne_iff_ne] at none
    exact iff_of_true rfl fun membership => none c membership rfl
  case h_2 found rest left =>
    refine iff_of_false (by simp) fun none => ?_
    have kept : text.toList.dropWhile (· != c) = [] := by
      apply List.dropWhile_eq_nil_iff.mpr
      intro other membership
      exact bne_iff_ne.mpr fun same => none (same ▸ membership)
    rw [kept] at left
    cases left

end SolutionSurvey.Text

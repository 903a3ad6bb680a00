import SolutionSurvey.Proofs.Text.Pieces

/-!
# The words of a text

White space ends a word and is no part of any.  So a text that is put together at white space has the
words of both parts.
-/

namespace SolutionSurvey.Text

theorem solid_of_mem_words {text word : String} (membership : word ∈ words text) :
    ∀ c ∈ word.toList, isBlank c = false := by
  obtain ⟨stretch, inText, rfl⟩ := List.mem_map.mp membership
  rw [String.toList_ofList]
  exact not_separates_of_mem_pieces (List.mem_filter.mp inText).1

theorem mem_of_mem_trimEndOf {kind : Char → Bool} {text : String} {c : Char}
    (membership : c ∈ (trimEndOf kind text).toList) : c ∈ text.toList := by
  rw [trimEndOf, String.toList_ofList, List.mem_reverse] at membership
  exact List.mem_reverse.mp ((List.dropWhile_sublist kind).subset membership)

theorem words_append_cons {c : Char} (blank : isBlank c) (front back : List Char) :
    words (String.ofList (front ++ c :: back)) =
      words (String.ofList front) ++ words (String.ofList back) := by
  simp only [words, String.toList_ofList, pieces_append_cons blank, List.filter_append,
    List.map_append]

theorem words_blanks_append {blanks : List Char} (blank : ∀ c ∈ blanks, isBlank c)
    (back : List Char) : words (String.ofList (blanks ++ back)) = words (String.ofList back) := by
  induction blanks with
  | nil => rfl
  | cons c blanks inductionHypothesis =>
      obtain ⟨blankFirst, blankRest⟩ := List.forall_mem_cons.mp blank
      have apart := words_append_cons blankFirst [] (blanks ++ back)
      rw [inductionHypothesis blankRest] at apart
      exact apart

section Word

variable {word : List Char} (solid : ∀ c ∈ word, isBlank c = false) (written : word ≠ [])
include solid written

theorem words_of_solid : words (String.ofList word) = [String.ofList word] := by
  rw [words, String.toList_ofList, pieces_of_none solid, List.filter_cons_of_pos (by simpa)]
  rfl

/-- A stretch without white space that ends at white space is a word. -/
theorem words_solid_append {back : List Char} (apart : ∀ c ∈ back.head?, isBlank c) :
    words (String.ofList (word ++ back)) = String.ofList word :: words (String.ofList back) := by
  cases back with
  | nil =>
      rw [List.append_nil, words_of_solid solid written]
      rfl
  | cons c back =>
      have blank := apart c rfl
      have skipped := words_append_cons blank [] back
      rw [words_append_cons blank, words_of_solid solid written]
      exact congrArg (String.ofList word :: ·) skipped.symm

end Word

end SolutionSurvey.Text

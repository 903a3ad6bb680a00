import SolutionSurvey.Proofs.Text.Pieces
import SolutionSurvey.Text.Lines

/-!
# Lines of texts that are put together

Texts that are put together at the end of a line have the lines of both.  So a text is read line by
line, whichever way its lines are ended.
-/

namespace SolutionSurvey.Text

/-- A text that is cut off at the end of a line. -/
def EndsLine (text : String) : Prop := text = "" ∨ ∃ front, text = front ++ "\n"

theorem endLines_append {front back : List (List Char)} (more : back ≠ []) :
    endLines (front ++ back) = front.map dropReturn ++ endLines back := by
  induction front with
  | nil => rfl
  | cons line front inductionHypothesis =>
      obtain ⟨next, others, isNext⟩ :=
        List.exists_cons_of_ne_nil (List.append_ne_nil_of_right_ne_nil front more)
      rw [List.cons_append, isNext, endLines, ← isNext, inductionHypothesis]
      · rfl
      · simp

theorem pieces_append_feed (front back : String) :
    pieces (· == '\n') (front ++ "\n" ++ back).toList =
      pieces (· == '\n') front.toList ++ pieces (· == '\n') back.toList := by
  have feed : "\n".toList = ['\n'] := rfl
  rw [String.toList_append, String.toList_append, feed, List.append_assoc, List.singleton_append]
  exact pieces_append_cons rfl front.toList back.toList

theorem lines_append_feed (front back : String) :
    lines (front ++ "\n" ++ back) =
      (pieces (· == '\n') front.toList).map (fun line => String.ofList (dropReturn line)) ++
        lines back := by
  rw [lines, pieces_append_feed, endLines_append (pieces_ne_nil _), List.map_append, List.map_map]
  rfl

/-- What follows the end of a line does not change the lines before it. -/
theorem lines_append {front : String} (ends : EndsLine front) (back : String) :
    lines (front ++ back) = lines front ++ lines back := by
  obtain rfl | ⟨front, rfl⟩ := ends
  · simp [lines, pieces, endLines]
  · have alone := lines_append_feed front ""
    rw [String.append_empty] at alone
    have nothing : lines "" = [] := rfl
    rw [lines_append_feed, alone, nothing, List.append_nil]

theorem pieces_of_no_feed {line : String} (whole : '\n' ∉ line.toList) :
    pieces (· == '\n') line.toList = [line.toList] := by
  apply pieces_of_none
  intro c membership
  exact beq_eq_false_iff_ne.mpr fun same => whole (same ▸ membership)

/-- A line that is ended is read without the carriage return that belongs to its end. -/
theorem lines_line {line : String} (whole : '\n' ∉ line.toList) (rest : String) :
    lines (line ++ "\n" ++ rest) = String.ofList (dropReturn line.toList) :: lines rest := by
  rw [lines_append_feed, pieces_of_no_feed whole]
  rfl

/-- The last line need not be ended. -/
theorem lines_of_no_feed {line : String} (whole : '\n' ∉ line.toList) :
    lines line = if line = "" then [] else [line] := by
  rw [lines, pieces_of_no_feed whole, endLines]
  by_cases empty : line = ""
  · simp [empty]
  · simp [empty]

/-- Either nothing is dropped from a line, or a carriage return at its end. -/
theorem eq_dropReturn_or (line : List Char) :
    line = dropReturn line ∨ line = dropReturn line ++ ['\r'] := by
  unfold dropReturn
  split
  · next isLast =>
    obtain ⟨front, rfl⟩ := List.getLast?_eq_some_iff.mp isLast
    exact .inr (by simp)
  · exact .inl rfl

theorem exists_of_mem_endLines {stretches : List (List Char)} {line : List Char}
    (membership : line ∈ endLines stretches) : ∃ stretch ∈ stretches, line ⊆ stretch := by
  fun_induction endLines stretches with
  | case1 => cases membership
  | case2 last empty => cases membership
  | case3 last written => exact ⟨line, membership, List.Subset.refl line⟩
  | case4 first rest more inductionHypothesis =>
      rcases List.mem_cons.mp membership with rfl | inRest
      · refine ⟨first, List.mem_cons_self, ?_⟩
        rcases eq_dropReturn_or first with same | same
        · exact same ▸ List.Subset.refl first
        · exact fun c inLine => same ▸ List.mem_append_left _ inLine
      · obtain ⟨stretch, isStretch, within⟩ := inductionHypothesis inRest
        exact ⟨stretch, List.mem_cons_of_mem first isStretch, within⟩

theorem subset_of_mem_lines {text line : String} (membership : line ∈ lines text) :
    line.toList ⊆ text.toList := by
  obtain ⟨chars, isLine, rfl⟩ := List.mem_map.mp membership
  obtain ⟨stretch, isStretch, within⟩ := exists_of_mem_endLines isLine
  rw [String.toList_ofList]
  exact List.Subset.trans within (sublist_of_mem_pieces isStretch).subset

end SolutionSurvey.Text

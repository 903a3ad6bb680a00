import SolutionSurvey.Path
import SolutionSurvey.Proofs.Text.Pieces

/-!
# The names in a path

A path has the components of its start and of its names, and they are all that tells it from others.
A name that is joined to a directory comes after the names of the directory and leaves its start as
it is.
-/

namespace SolutionSurvey

namespace Path

/-- The stretches of a path that are components. -/
def names (path : Path) : List String := path.pieces.filter (!isIdle ·)

theorem start_cases (path : Path) :
    path.start = none ∨ path.start = some .here ∨ path.start = some .root := by
  unfold start
  split <;> simp

theorem filter_body (path : Path) : path.body.filter (!isIdle ·) = path.names := by
  unfold body names start
  split
  case h_1 rest found => rw [found]; rfl
  case h_2 rest found => rw [found]; rfl
  case h_3 => rfl

theorem components_eq (path : Path) :
    path.components = path.start.toList ++ path.names.map componentOf := by
  rw [components, filter_body]

theorem componentOf_injective (left right : String)
    (same : componentOf left = componentOf right) : left = right := by
  unfold componentOf at same
  split at same <;> split at same <;> simp_all

theorem start_eq (path : Path) :
    path.start = path.components.head?.filter fun first => first == .here || first == .root := by
  rw [components_eq]
  rcases path.start_cases with starts | starts | starts
  · rw [starts]
    cases path.names with
    | nil => rfl
    | cons name names =>
        rw [Option.toList_none, List.nil_append, List.map_cons, List.head?_cons]
        unfold componentOf
        split <;> rfl
  · rw [starts]
    rfl
  · rw [starts]
    rfl

/-- The components of a path are its start and its names. -/
theorem components_eq_iff {left right : Path} :
    left.components = right.components ↔ left.start = right.start ∧ left.names = right.names := by
  constructor
  · intro same
    have starts : left.start = right.start := by rw [start_eq, start_eq, same]
    rw [components_eq, components_eq, starts] at same
    exact ⟨starts, (List.map_inj_right componentOf_injective).mp (List.append_cancel_left same)⟩
  · rintro ⟨starts, names⟩
    rw [components_eq, components_eq, starts, names]

theorem pieces_ne_nil (path : Path) : path.pieces ≠ [] := by
  simp [pieces, Text.pieces_ne_nil]

theorem text_eq_of_pieces {path : Path} (empty : path.pieces = [""]) : path.text = "" := by
  unfold pieces at empty
  cases spelled : path.text.toList with
  | nil => exact String.toList_eq_nil_iff.mp spelled
  | cons c rest =>
      rw [spelled, Text.pieces] at empty
      split at empty
      · simp [Text.pieces_ne_nil] at empty
      · split at empty <;> simp at empty

theorem start_of_pieces {path : Path} {first : String} {rest : List String}
    (cut : path.pieces = first :: rest) :
    path.start =
      if first = "." then some .here else if first = "" ∧ rest ≠ [] then some .root else none := by
  unfold start
  rw [cut]
  split
  case h_1 same =>
    obtain ⟨rfl, rfl⟩ := List.cons.inj same
    rfl
  case h_2 same =>
    obtain ⟨rfl, rfl⟩ := List.cons.inj same
    rfl
  case h_3 notHere notRoot =>
    rw [if_neg fun here => notHere _ (by rw [here]), if_neg]
    rintro ⟨rfl, more⟩
    obtain ⟨second, others, rfl⟩ := List.exists_cons_of_ne_nil more
    exact notRoot _ _ rfl

theorem pieces_slash (front back : List Char) :
    Text.pieces (fun c => c == '/') (front ++ '/' :: back) =
      Text.pieces (fun c => c == '/') front ++ Text.pieces (fun c => c == '/') back :=
  Text.pieces_append_cons rfl front back

section Join

variable {name : String} (proper : properName name)

include proper

theorem not_isIdle_of_proper : isIdle name = false := by
  simp [properName] at proper
  simp [isIdle, proper]

theorem pieces_of_proper : (⟨name⟩ : Path).pieces = [name] := by
  have whole : ∀ c ∈ name.toList, (c == '/') = false := by
    intro c membership
    simp only [properName, Bool.and_eq_true, Bool.not_eq_true', List.contains_eq_mem,
      decide_eq_false_iff_not] at proper
    exact beq_eq_false_iff_ne.mpr fun same => proper.2 (same ▸ membership)
  rw [pieces, Text.pieces_of_none whole]
  simp

theorem not_isAbsolute_of_proper : (⟨name⟩ : Path).isAbsolute = false := by
  unfold isAbsolute start
  rw [pieces_of_proper proper]
  split <;> simp_all

/-- A name is put after the stretches of a directory, in place of an empty one at the end. -/
theorem pieces_join (directory : Path) :
    ∃ front, (directory.pieces = front ∨ directory.pieces = front ++ [""]) ∧
      (directory.join ⟨name⟩).pieces = front ++ [name] := by
  have own := pieces_of_proper proper
  unfold pieces at own
  unfold join
  rw [not_isAbsolute_of_proper proper, if_neg (by decide)]
  split
  case h_1 nothing =>
    refine ⟨[], .inr ?_, ?_⟩
    · simp [pieces, List.getLast?_eq_none_iff.mp nothing, Text.pieces]
    · simp [pieces, List.getLast?_eq_none_iff.mp nothing, own]
  case h_2 separated =>
    obtain ⟨front, written⟩ := List.getLast?_eq_some_iff.mp separated
    refine ⟨(Text.pieces (· == '/') front).map String.ofList, .inr ?_, ?_⟩
    · rw [pieces, written, pieces_slash, List.map_append]
      rfl
    · rw [pieces, String.toList_append, written, List.append_assoc, List.singleton_append,
        pieces_slash, List.map_append, own]
  case h_3 =>
    refine ⟨directory.pieces, .inl rfl, ?_⟩
    rw [pieces, String.toList_append, String.toList_append, List.append_assoc]
    have separator : "/".toList = ['/'] := rfl
    rw [separator, List.singleton_append, pieces_slash, List.map_append, own,
      pieces]

theorem names_join (directory : Path) :
    (directory.join ⟨name⟩).names = directory.names ++ [name] := by
  obtain ⟨front, before, joined⟩ := pieces_join proper directory
  have kept : [name].filter (!isIdle ·) = [name] := by simp [not_isIdle_of_proper proper]
  rw [names, names, joined, List.filter_append, kept]
  rcases before with same | same
  · rw [same]
  · have dropped : [""].filter (!isIdle ·) = [] := rfl
    rw [same, List.filter_append, dropped, List.append_nil]

theorem start_join {directory : Path} (written : directory.text ≠ "") :
    (directory.join ⟨name⟩).start = directory.start := by
  obtain ⟨front, before, joined⟩ := pieces_join proper directory
  cases front with
  | nil =>
      rcases before with nothing | empty
      · exact absurd nothing directory.pieces_ne_nil
      · exact absurd (text_eq_of_pieces empty) written
  | cons first rest =>
      rw [start_of_pieces joined]
      rcases before with same | same
      · have more : first = "" → rest ≠ [] := by
          rintro rfl rfl
          exact written (text_eq_of_pieces same)
        rw [start_of_pieces same]
        by_cases empty : first = "" <;> simp [empty, more]
      · rw [List.cons_append] at same
        rw [start_of_pieces same]
        simp

theorem getLast?_pieces_join (directory : Path) :
    (directory.join ⟨name⟩).pieces.getLast? = some name := by
  obtain ⟨front, _, joined⟩ := pieces_join proper directory
  rw [joined, List.getLast?_concat]

end Join

/-! ### Extensions -/

/-- A name is split at its last dot, unless that is how it starts. -/
theorem splitName_eq_some_iff {name extension : String} :
    (splitName name).2 = some extension ↔
      '.' ∉ extension.toList ∧ ∃ stem, stem ≠ "" ∧ name = stem ++ "." ++ extension := by
  constructor
  · intro split
    unfold splitName at split
    dsimp only at split
    split at split
    case h_1 => cases split
    case h_2 stem more =>
      obtain rfl := Option.some.inj split
      have whole := List.takeWhile_append_dropWhile (l := name.toList.reverse) (p := (· != '.'))
      have kept := List.head?_dropWhile_not (· != '.') name.toList.reverse
      cases left : name.toList.reverse.dropWhile (· != '.') with
      | nil => exact absurd (by rw [left]; rfl) more
      | cons dot stem =>
          rw [left] at whole kept more
          obtain rfl : dot = '.' := by simpa using kept
          refine ⟨?_, String.ofList stem.reverse, ?_, ?_⟩
          · rw [String.toList_ofList, List.mem_reverse]
            exact Text.not_mem_takeWhile_ne '.' _
          · simpa using more
          · apply String.toList_injective
            have spelled := congrArg List.reverse whole.symm
            rw [List.reverse_reverse] at spelled
            apply spelled.trans
            simp
  · rintro ⟨absent, stem, written, rfl⟩
    have absentToo : '.' ∉ extension.toList.reverse := by simpa using absent
    obtain ⟨taken, left⟩ := Text.takeWhile_and_dropWhile absentToo stem.toList.reverse
    have reversed : (stem ++ "." ++ extension).toList.reverse =
        extension.toList.reverse ++ '.' :: stem.toList.reverse := by
      simp
    unfold splitName
    simp only [reversed, taken, left, List.tail_cons]
    split
    · next empty => exact absurd (by simpa using empty) written
    · simp

end Path

end SolutionSurvey

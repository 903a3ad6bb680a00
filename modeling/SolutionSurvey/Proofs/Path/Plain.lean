import SolutionSurvey.Proofs.Path.Parent

/-!
# Plain paths

A plain path is written with nothing but its start and its names: without doubled or trailing
separators and without the component `.` inside it.  It is determined by its components, and a name
that is joined to it is written behind them.
-/

namespace SolutionSurvey.Path

def IsPlain (path : Path) : Prop := path = ofBody path.start path.names

instance (path : Path) : Decidable path.IsPlain := decEq _ _

theorem IsPlain.eq_of_components_eq {left right : Path} (plain : left.IsPlain)
    (plainToo : right.IsPlain) (same : left.components = right.components) : left = right := by
  obtain ⟨starts, names⟩ := components_eq_iff.mp same
  calc
    left = ofBody left.start left.names := plain
    _ = ofBody right.start right.names := by rw [starts, names]
    _ = right := plainToo.symm

theorem ofBody_concat {start : Option Component} {body : List String} (more : body ≠ [])
    (name : String) :
    ofBody start (body ++ [name]) = ⟨(ofBody start body).text ++ "/" ++ name⟩ := by
  have joined : "/".intercalate (body ++ [name]) = "/".intercalate body ++ "/" ++ name := by
    rw [String.intercalate_append_of_ne_nil more (List.cons_ne_nil name []),
      String.intercalate_singleton]
  have written : body.isEmpty = false := by simpa using more
  rcases start with _ | (_ | _ | _ | _)
  all_goals simp [ofBody, joined, written, String.append_assoc]

/-- A separator at the end leaves an idle stretch behind. -/
theorem pieces_of_separator {path : Path} (separated : path.text.toList.getLast? = some '/') :
    path.pieces.getLast? = some "" := by
  obtain ⟨front, written⟩ := List.getLast?_eq_some_iff.mp separated
  rw [pieces, written, pieces_slash, List.map_append]
  exact List.getLast?_concat

/-- A plain path with names does not end in a separator. -/
theorem IsPlain.not_separated {path : Path} (plain : path.IsPlain) (more : path.names ≠ []) :
    path.text.toList.getLast? ≠ some '/' := by
  intro separated
  have noSlash : ∀ name ∈ path.names, '/' ∉ name.toList := fun name membership =>
    no_slash_of_mem_pieces (List.mem_of_mem_filter membership)
  have cut : path.pieces = startPieces path.start ++ path.names :=
    (congrArg pieces plain).trans (pieces_ofBody noSlash more)
  have idle := pieces_of_separator separated
  rw [cut, List.getLast?_append_of_ne_nil _ more] at idle
  have inNames : "" ∈ path.names := List.mem_of_getLast? idle
  cases (List.mem_filter.mp inNames).2

section Join

variable {name : String} (proper : properName name) {directory : Path} (plain : directory.IsPlain)

include proper plain

theorem join_of_names (more : directory.names ≠ []) :
    directory.join ⟨name⟩ = ⟨directory.text ++ "/" ++ name⟩ := by
  have written : directory.text ≠ "" := fun empty => more (text_eq_empty_iff.mp empty).2
  unfold join
  rw [not_isAbsolute_of_proper proper, if_neg (by decide)]
  split
  case h_1 nothing =>
    exact absurd (String.toList_eq_nil_iff.mp (List.getLast?_eq_none_iff.mp nothing)) written
  case h_2 separated => exact absurd separated (plain.not_separated more)
  case h_3 => rfl

theorem join_of_no_names (none : directory.names = []) :
    directory.join ⟨name⟩ = ofBody directory.start [name] := by
  have whole : directory = ofBody directory.start [] := none ▸ plain
  have relative := not_isAbsolute_of_proper proper
  rcases directory.start_cases with starts | starts | starts
  all_goals
    rw [starts] at whole ⊢
    rw [whole]
    simp [join, relative, ofBody]

/-- A name that is joined to a plain directory makes a plain path. -/
theorem IsPlain.join : (directory.join ⟨name⟩).IsPlain := by
  rw [IsPlain, start_join_eq proper, names_join proper]
  by_cases none : directory.names = []
  · rw [none, List.nil_append]
    exact join_of_no_names proper plain none
  · rw [ofBody_concat none, ← plain]
    exact join_of_names proper plain none

end Join

end SolutionSurvey.Path

import Mathlib.Data.List.DropRight
import SolutionSurvey.Proofs.Path.Names

/-!
# The directory that a path names

The directory of a path is what is left when its last name is cut off, with the idle stretches before
the name.  Where the name was joined to a directory, the components of that directory are left.
-/

namespace SolutionSurvey

namespace Path

/-! ### Idle stretches at the end -/

theorem dropIdle_eq_rdropWhile (body : List String) : dropIdle body = body.rdropWhile isIdle := rfl

/-- Dropping idle stretches from the end of a body takes nothing else away. -/
theorem exists_idle_end (body : List String) :
    ∃ idles, body = dropIdle body ++ idles ∧ ∀ piece ∈ idles, isIdle piece := by
  refine ⟨body.rtakeWhile isIdle, ?_, fun piece => List.mem_rtakeWhile_imp⟩
  rw [dropIdle_eq_rdropWhile, List.rdropWhile_append_rtakeWhile]

theorem dropIdle_concat {name : String} (notIdle : isIdle name = false) (inner : List String) :
    dropIdle (inner ++ [name]) = inner ++ [name] := by
  rw [dropIdle_eq_rdropWhile, List.rdropWhile_concat_neg]
  simp [notIdle]

theorem filter_dropIdle (body : List String) :
    (dropIdle body).filter (!isIdle ·) = body.filter (!isIdle ·) := by
  obtain ⟨idles, whole, idle⟩ := exists_idle_end body
  have nothing : idles.filter (!isIdle ·) = [] := by
    apply List.filter_eq_nil_iff.mpr
    intro piece membership
    simp [idle piece membership]
  conv_rhs => rw [whole, List.filter_append, nothing, List.append_nil]

/-! ### Stretches and texts -/

/-- The stretches before the body of a path. -/
def startPieces : Option Component → List String
  | none => []
  | some .root => [""]
  | some _ => ["."]

theorem pieces_eq_append_body (path : Path) : path.pieces = startPieces path.start ++ path.body := by
  unfold body start
  split
  case h_1 rest found => simp [found, startPieces]
  case h_2 rest found => simp [found, startPieces]
  case h_3 => simp [startPieces]

theorem filter_startPieces (start : Option Component) :
    (startPieces start).filter (!isIdle ·) = [] := by
  cases start with
  | none => rfl
  | some first => cases first <;> rfl

theorem no_slash_of_mem_pieces {path : Path} {piece : String} (membership : piece ∈ path.pieces) :
    '/' ∉ piece.toList := by
  obtain ⟨stretch, inStretches, rfl⟩ := List.mem_map.mp membership
  intro slash
  have separates := Text.not_separates_of_mem_pieces inStretches '/' (by simpa using slash)
  simp at separates

theorem pieces_append_slash (front back : String) :
    (⟨front ++ "/" ++ back⟩ : Path).pieces = (⟨front⟩ : Path).pieces ++ (⟨back⟩ : Path).pieces := by
  have separator : "/".toList = ['/'] := rfl
  simp only [pieces, String.toList_append, separator, List.append_assoc, List.singleton_append,
    pieces_slash, List.map_append]

theorem pieces_of_no_slash {piece : String} (noSlash : '/' ∉ piece.toList) :
    (⟨piece⟩ : Path).pieces = [piece] := by
  have whole : ∀ c ∈ piece.toList, (c == '/') = false := by
    intro c membership
    exact beq_eq_false_iff_ne.mpr fun same => noSlash (same ▸ membership)
  simp [pieces, Text.pieces_of_none whole]

theorem pieces_intercalate {body : List String} (whole : ∀ piece ∈ body, '/' ∉ piece.toList)
    (more : body ≠ []) : (⟨"/".intercalate body⟩ : Path).pieces = body := by
  induction body with
  | nil => exact absurd rfl more
  | cons piece rest inductionHypothesis =>
      obtain ⟨wholePiece, wholeRest⟩ := List.forall_mem_cons.mp whole
      cases rest with
      | nil => simp [pieces_of_no_slash wholePiece]
      | cons next others =>
          rw [String.intercalate_cons_cons, pieces_append_slash, pieces_of_no_slash wholePiece,
            inductionHypothesis wholeRest (by simp), List.singleton_append]

/-- A path that is written from its start and a body has these as its stretches. -/
theorem pieces_ofBody {start : Option Component} {body : List String}
    (whole : ∀ piece ∈ body, '/' ∉ piece.toList) (more : body ≠ []) :
    (ofBody start body).pieces = startPieces start ++ body := by
  have joined := pieces_intercalate whole more
  have rooted : (⟨"" ++ "/" ++ "/".intercalate body⟩ : Path).pieces = "" :: body := by
    rw [pieces_append_slash, joined]
    rfl
  have dotted : (⟨"." ++ "/" ++ "/".intercalate body⟩ : Path).pieces = "." :: body := by
    rw [pieces_append_slash, joined]
    rfl
  have written : body.isEmpty = false := by simpa using more
  cases start with
  | none => exact joined
  | some first =>
      cases first with
      | root => exact rooted
      | here => simpa [ofBody, written, startPieces] using dotted
      | up => simpa [ofBody, written, startPieces] using dotted
      | name text => simpa [ofBody, written, startPieces] using dotted

/-- Nothing but the empty path is without components. -/
theorem text_eq_empty_iff {path : Path} : path.text = "" ↔ path.start = none ∧ path.names = [] := by
  constructor
  · intro empty
    have single : path.pieces = [""] := by
      rw [pieces, empty]
      rfl
    simp [start, names, single, isIdle]
  · rintro ⟨noStart, noNames⟩
    apply text_eq_of_pieces
    obtain ⟨first, rest, cut⟩ := List.exists_cons_of_ne_nil path.pieces_ne_nil
    have idle : isIdle first := by
      by_contra notIdle
      simp [names, cut, notIdle] at noNames
    have started := start_of_pieces cut
    rw [noStart] at started
    by_cases dot : first = "."
    · simp [dot] at started
    · have empty : first = "" := by simpa [isIdle, dot] using idle
      cases rest with
      | nil => rw [cut, empty]
      | cons second others => simp [empty] at started

theorem components_eq_nil_iff {path : Path} : path.components = [] ↔ path.text = "" := by
  rw [text_eq_empty_iff, components_eq, List.append_eq_nil_iff, List.map_eq_nil_iff,
    Option.toList_eq_nil_iff]

/-! ### The directory of a joined name -/

theorem exists_body_of_getLast? {path : Path} {name : String} (notIdle : isIdle name = false)
    (isLast : path.pieces.getLast? = some name) :
    ∃ inner, path.body = inner ++ [name] := by
  rw [pieces_eq_append_body] at isLast
  rcases List.eq_nil_or_concat path.body with none | ⟨inner, last, whole⟩
  · rw [none, List.append_nil] at isLast
    have kept : name ∈ (startPieces path.start).filter (!isIdle ·) :=
      List.mem_filter.mpr ⟨List.mem_of_getLast? isLast, by rw [notIdle]; rfl⟩
    rw [filter_startPieces] at kept
    cases kept
  · rw [List.concat_eq_append] at whole
    rw [whole, ← List.append_assoc, List.getLast?_concat] at isLast
    obtain rfl := Option.some.inj isLast
    exact ⟨inner, whole⟩

/-- What is cut off a path is its last name. -/
theorem start_and_names_ofBody {path : Path} {name : String} {inner : List String}
    (cut : path.body = inner ++ [name]) :
    (ofBody path.start (dropIdle inner)).start = path.start ∧
      (ofBody path.start (dropIdle inner)).names = inner.filter (!isIdle ·) := by
  have stretches := pieces_eq_append_body path
  rw [cut] at stretches
  obtain ⟨idles, whole, _⟩ := exists_idle_end inner
  by_cases nothing : dropIdle inner = []
  · have noNames : inner.filter (!isIdle ·) = [] := by
      rw [← filter_dropIdle, nothing]
      rfl
    rw [nothing, noNames]
    rcases path.start_cases with starts | starts | starts <;> rw [starts] <;> decide
  · have noSlash : ∀ piece ∈ dropIdle inner, '/' ∉ piece.toList := by
      intro piece membership
      have among : piece ∈ path.pieces := by
        rw [stretches, whole]
        simp [membership]
      exact no_slash_of_mem_pieces among
    have written : (ofBody path.start (dropIdle inner)).pieces =
        startPieces path.start ++ dropIdle inner := pieces_ofBody noSlash nothing
    constructor
    · obtain ⟨first, rest, head⟩ := List.exists_cons_of_ne_nil nothing
      rw [head] at whole written
      rcases path.start_cases with starts | starts | starts
      · -- The path has the same first stretch, and more of them.
        simp only [starts, startPieces, List.nil_append] at stretches written ⊢
        rw [whole, List.cons_append, List.cons_append] at stretches
        have started := start_of_pieces stretches
        rw [starts] at started
        rw [head, start_of_pieces written]
        by_cases dot : first = "."
        · simp [dot] at started
        · by_cases empty : first = ""
          · simp [empty] at started
          · simp [dot, empty]
      · rw [starts] at written ⊢
        rw [head, start_of_pieces written]
        simp
      · rw [starts] at written ⊢
        rw [head, start_of_pieces written]
        simp
    · rw [names, written, List.filter_append, filter_startPieces, List.nil_append, filter_dropIdle]

section Join

variable {name : String} (proper : properName name) (directory : Path)

include proper

theorem start_join_eq : (directory.join ⟨name⟩).start = directory.start := by
  by_cases empty : directory.text = ""
  · obtain ⟨text⟩ := directory
    obtain rfl : text = "" := empty
    have bare : (⟨""⟩ : Path).join ⟨name⟩ = ⟨name⟩ := by
      rw [join, not_isAbsolute_of_proper proper, if_neg (by decide)]
      simp
    rw [bare, start_of_pieces (pieces_of_proper proper)]
    have notHere : name ≠ "." := by
      rintro rfl
      cases proper
    simp [notHere]
    rfl
  · exact start_join proper empty

theorem components_join :
    (directory.join ⟨name⟩).components = directory.components ++ [.name name] := by
  have notUp : name ≠ ".." := by
    rintro rfl
    cases proper
  rw [components_eq, components_eq, start_join_eq proper, names_join proper, List.map_append,
    List.append_assoc]
  simp [componentOf, notUp]

theorem getLast?_components_join :
    (directory.join ⟨name⟩).components.getLast? = some (.name name) := by
  rw [components_join proper, List.getLast?_concat]

theorem fileName?_join : (directory.join ⟨name⟩).fileName? = some name := by
  rw [fileName?, getLast?_components_join proper]

/-- The directory of a name that is joined to a directory has the components of that directory. -/
theorem exists_parent?_join : ∃ parent, (directory.join ⟨name⟩).parent? = some parent ∧
    parent.components = directory.components := by
  have notIdle := not_isIdle_of_proper proper
  obtain ⟨inner, cut⟩ := exists_body_of_getLast? notIdle (getLast?_pieces_join proper directory)
  obtain ⟨starts, names⟩ := start_and_names_ofBody cut
  refine ⟨ofBody (directory.join ⟨name⟩).start (dropIdle inner), ?_, components_eq_iff.mpr ⟨?_, ?_⟩⟩
  · rw [parent?, getLast?_components_join proper, cut, dropIdle_concat notIdle, List.dropLast_concat]
  · rw [starts, start_join_eq proper]
  · have joined := names_join proper directory
    rw [Path.names, pieces_eq_append_body, List.filter_append, filter_startPieces, List.nil_append,
      cut, List.filter_append] at joined
    have kept : [name].filter (!isIdle ·) = [name] := by simp [notIdle]
    rw [kept] at joined
    rw [names, List.append_cancel_right joined]

end Join

end Path

end SolutionSurvey

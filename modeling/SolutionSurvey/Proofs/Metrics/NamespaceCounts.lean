import SolutionSurvey.Proofs.Metrics.NamespaceLines
import SolutionSurvey.Proofs.Text.Pieces

/-!
# What a project counts for a namespace

The files of a project are counted one after the other, and each code line overwrites the count of
the key that it belongs to.  So a key has the count of the last file in which a code line belongs to
it, reached at the last such line.
-/

namespace SolutionSurvey

section Definitions

variable (isCode : String → Bool) (lines : List String) (key : String)

/-- The line with a number is a code line, and it belongs to a key: the one that holds there. -/
def BelongsTo (number : Nat) : Prop :=
  (lines[number]?).any isCode ∧ key = namespaceKey (lines.take (number + 1))

/-- There are so many code lines up to the last one that belongs to a key. -/
def CountsTo (count : Nat) : Prop :=
  ∃ number, BelongsTo isCode lines key number ∧
    (∀ later, number < later → ¬BelongsTo isCode lines key later) ∧
      count = (lines.take (number + 1)).countP isCode

end Definitions

namespace SourceFile

variable (read : TreeReader) (file : SourceFile) (key : String)

def BelongsTo (number : Nat) : Prop :=
  SolutionSurvey.BelongsTo (CodeLine.isCode read) (Text.lines file.text) key number

def CountsTo (count : Nat) : Prop :=
  SolutionSurvey.CountsTo (CodeLine.isCode read) (Text.lines file.text) key count

end SourceFile

/-! ### The lines of a file -/

section Lines

variable {isCode : String → Bool} {lines : List String} {key last : String} {number count : Nat}

theorem BelongsTo.lt_length (belongs : BelongsTo isCode lines key number) :
    number < lines.length := by
  by_contra beyond
  rw [Nat.not_lt] at beyond
  simp [BelongsTo, List.getElem?_eq_none beyond] at belongs

theorem writesKey_iff_exists_belongsTo :
    WritesKey isCode lines key ↔ ∃ number, BelongsTo isCode lines key number := by
  constructor
  · rintro ⟨before, line, after, rfl, code, same⟩
    refine ⟨before.length, ?_, ?_⟩
    · simpa using code
    · rw [same, List.take_append, List.take_of_length_le (Nat.le_succ _), Nat.add_sub_cancel_left,
        List.take_succ_cons, List.take_zero]
  · rintro ⟨number, belongs⟩
    have inLines := belongs.lt_length
    obtain ⟨code, same⟩ := belongs
    rw [List.getElem?_eq_getElem inLines, Option.any_some] at code
    refine ⟨lines.take number, lines[number], lines.drop (number + 1), ?_, code, ?_⟩
    · rw [List.getElem_cons_drop, List.take_append_drop]
    · rw [same, List.take_succ_eq_append_getElem inLines]

/-- One more line changes nothing for the lines before it. -/
theorem belongsTo_append : BelongsTo isCode (lines ++ [last]) key number ↔
    BelongsTo isCode lines key number ∨
      (number = lines.length ∧ isCode last ∧ key = namespaceKey (lines ++ [last])) := by
  rcases Nat.lt_trichotomy number lines.length with before | rfl | beyond
  · have whole : (lines ++ [last]).take (number + 1) = lines.take (number + 1) :=
      List.take_append_of_le_length before
    simp [BelongsTo, List.getElem?_append_left before, whole, Nat.ne_of_lt before]
  · have whole : (lines ++ [last]).take (lines.length + 1) = lines ++ [last] :=
      List.take_of_length_le (by simp)
    simp [BelongsTo, whole]
  · have none : ∀ others : List String, others.length ≤ number →
        ¬BelongsTo isCode others key number := fun others short belongs =>
      Nat.not_lt_of_le short belongs.lt_length
    have noLine := none (lines ++ [last]) (by rw [List.length_append]; exact beyond)
    have noLineBefore := none lines (Nat.le_of_lt beyond)
    simp [noLine, noLineBefore, Nat.ne_of_gt beyond]

theorem countsTo_append_of_writes
    (writes : isCode last ∧ key = namespaceKey (lines ++ [last])) :
    CountsTo isCode (lines ++ [last]) key count ↔ count = (lines ++ [last]).countP isCode := by
  have whole : (lines ++ [last]).take (lines.length + 1) = lines ++ [last] :=
    List.take_of_length_le (by simp)
  have belongs : BelongsTo isCode (lines ++ [last]) key lines.length :=
    belongsTo_append.mpr (.inr ⟨rfl, writes⟩)
  constructor
  · rintro ⟨number, numbered, isLast, rfl⟩
    have inLines := numbered.lt_length
    rw [List.length_append, List.length_singleton] at inLines
    have notBefore : ¬number < lines.length := fun before => isLast lines.length before belongs
    obtain rfl : number = lines.length := by omega
    rw [whole]
  · rintro rfl
    refine ⟨lines.length, belongs, fun later after isLater => ?_, by rw [whole]⟩
    have inLines := isLater.lt_length
    rw [List.length_append, List.length_singleton] at inLines
    omega

section Silent

variable (silent : ¬(isCode last ∧ key = namespaceKey (lines ++ [last])))
include silent

theorem belongsTo_append_of_silent : BelongsTo isCode (lines ++ [last]) key number ↔
    BelongsTo isCode lines key number := by
  rw [belongsTo_append, or_iff_left fun isLast => silent isLast.2]

theorem countsTo_append_of_silent :
    CountsTo isCode (lines ++ [last]) key count ↔ CountsTo isCode lines key count := by
  unfold CountsTo
  simp only [belongsTo_append_of_silent silent]
  refine exists_congr fun number => and_congr_right fun belongs => and_congr_right fun _ => ?_
  rw [List.take_append_of_le_length belongs.lt_length]

end Silent

namespace LineTally

/-- A key keeps its count from before just if no code line belongs to it. -/
theorem get?_after_eq_some_iff {table : Table Nat} :
    (after isCode table lines).namespaceLines.get? key = some count ↔
      CountsTo isCode lines key count ∨
        (∀ number, ¬BelongsTo isCode lines key number) ∧ table.get? key = some count := by
  induction lines using List.reverseRecOn with
  | nil =>
      have nothing : ∀ number, ¬BelongsTo isCode [] key number := fun number belongs =>
        Nat.not_lt_zero number belongs.lt_length
      simp [nothing, CountsTo, after, start]
  | append_singleton lines last inductionHypothesis =>
      rw [get?_after_append]
      split
      case isTrue writes =>
        have belongs : BelongsTo isCode (lines ++ [last]) key lines.length :=
          belongsTo_append.mpr (.inr ⟨rfl, writes⟩)
        have written : ¬∀ number, ¬BelongsTo isCode (lines ++ [last]) key number := fun none =>
          none lines.length belongs
        rw [countsTo_append_of_writes writes, Option.some.injEq, eq_comm, or_iff_left]
        exact fun unwritten => written unwritten.1
      case isFalse silent =>
        rw [inductionHypothesis, countsTo_append_of_silent silent]
        simp only [belongsTo_append_of_silent silent]

/-! ### Lines behind the first declaration -/

/-- Once a declaration is known, all that counts of a line is whether it is code. -/
theorem addLine_of_declared {tally : LineTally} (declared : tally.declared.isSome)
    (line : String) : addLine isCode tally line =
      if isCode line then
        { tally with
          lineCount := tally.lineCount + 1
          namespaceLines := tally.namespaceLines.insert
            (tally.namespaceName.getD Row.noNamespace) (tally.lineCount + 1) }
      else tally := by
  obtain ⟨name, known⟩ := Option.isSome_iff_exists.mp declared
  have first : tally.declared.or (CodeLine.declaredNamespace? line) = tally.declared := by
    rw [known, Option.some_or]
  simp only [addLine, first, namespaceName]

theorem foldl_addLine_of_declared {rest others : List String}
    (alike : rest.map isCode = others.map isCode) {tally : LineTally}
    (declared : tally.declared.isSome) :
    rest.foldl (addLine isCode) tally = others.foldl (addLine isCode) tally := by
  induction rest generalizing others tally with
  | nil =>
      rw [List.map_eq_nil_iff.mp alike.symm]
  | cons line rest inductionHypothesis =>
      obtain ⟨other, others, rfl, same, alike⟩ := List.map_eq_cons_iff.mp alike.symm
      have steps : addLine isCode tally other = addLine isCode tally line := by
        rw [addLine_of_declared declared, addLine_of_declared declared, same]
      have stillDeclared : (addLine isCode tally line).declared.isSome := by
        rw [addLine_of_declared declared]
        split <;> exact declared
      rw [List.foldl_cons, List.foldl_cons, steps, inductionHypothesis alike.symm stillDeclared]

theorem after_of_declaration {first : String}
    (declares : (CodeLine.declaredNamespace? first).isSome) {rest others : List String}
    (alike : rest.map isCode = others.map isCode) (table : Table Nat) (before : List String) :
    after isCode table (before ++ first :: rest) =
      after isCode table (before ++ first :: others) := by
  have declared : (after isCode table (before ++ [first])).declared.isSome := by
    rw [declared_after, firstDeclared, List.findSome?_append, Option.isSome_or]
    simp [declares]
  have split : ∀ behind, after isCode table (before ++ first :: behind) =
      behind.foldl (addLine isCode) (after isCode table (before ++ [first])) := by
    intro behind
    rw [List.append_cons, after, List.foldl_append]
    rfl
  rw [split rest, split others, foldl_addLine_of_declared alike declared]

end LineTally

end Lines

/-! ### The files of a project -/

section Files

variable (read : TreeReader) (files : List SourceFile) (key : String)

/-- A key has the count of the last file in which a code line belongs to it. -/
def LastCounts (count : Nat) : Prop :=
  ∃ earlier file later, files = earlier ++ file :: later ∧ file.CountsTo read key count ∧
    ∀ other ∈ later, ∀ number, ¬other.BelongsTo read key number

variable {read files key}

theorem lastCounts_cons {file : SourceFile} {count : Nat} :
    LastCounts read (file :: files) key count ↔ LastCounts read files key count ∨
      (file.CountsTo read key count ∧
        ∀ other ∈ files, ∀ number, ¬other.BelongsTo read key number) := by
  constructor
  · rintro ⟨earlier, last, later, split, counts, none⟩
    cases earlier with
    | nil =>
        obtain ⟨rfl, rfl⟩ := List.cons.inj split
        exact .inr ⟨counts, none⟩
    | cons head earlier =>
        obtain ⟨rfl, rfl⟩ := List.cons.inj split
        exact .inl ⟨earlier, last, later, rfl, counts, none⟩
  · rintro (⟨earlier, last, later, rfl, counts, none⟩ | ⟨counts, none⟩)
    · exact ⟨file :: earlier, last, later, rfl, counts, none⟩
    · exact ⟨[], file, files, rfl, counts, none⟩

namespace ProjectMetrics

variable {name path : String} {count : Nat}

theorem get?_measureFiles_eq_some_iff {table : Table Nat} :
    (measureFiles read name path table files).2.get? key = some count ↔
      LastCounts read files key count ∨
        (∀ file ∈ files, ∀ number, ¬file.BelongsTo read key number) ∧
          table.get? key = some count := by
  induction files generalizing table with
  | nil => simp [measureFiles, LastCounts]
  | cons file rest inductionHypothesis =>
      have measured : (FileMetrics.measure read table file).2.get? key = some count ↔
          file.CountsTo read key count ∨
            (∀ number, ¬file.BelongsTo read key number) ∧ table.get? key = some count :=
        LineTally.get?_after_eq_some_iff
      rw [measureFiles, inductionHypothesis, measured, lastCounts_cons, List.forall_mem_cons]
      constructor
      · rintro (inRest | ⟨noneInRest, counts | ⟨noneInFile, kept⟩⟩)
        · exact .inl (.inl inRest)
        · exact .inl (.inr ⟨counts, noneInRest⟩)
        · exact .inr ⟨⟨noneInFile, noneInRest⟩, kept⟩
      · rintro ((inRest | ⟨counts, noneInRest⟩) | ⟨⟨noneInFile, noneInRest⟩, kept⟩)
        · exact .inl inRest
        · exact .inr ⟨noneInRest, .inl counts⟩
        · exact .inr ⟨noneInRest, .inr ⟨noneInFile, kept⟩⟩

theorem get?_measure_eq_some_iff :
    (measure read name path files).namespaceLines.get? key = some count ↔
      LastCounts read files key count := by
  have counted : (measureFiles read name path [] files).2.get? key = some count ↔ _ :=
    get?_measureFiles_eq_some_iff
  rw [Table.get?_nil, or_iff_left (by simp)] at counted
  exact counted

end ProjectMetrics

end Files

/-! ### Names and keys -/

theorem namespaceKey_of_undeclared {lines : List String}
    (none : ∀ line ∈ lines, CodeLine.declaredNamespace? line = none) :
    namespaceKey lines = Row.noNamespace := by
  rw [namespaceKey, firstDeclared, List.findSome?_eq_none_iff.mpr none]
  rfl

theorem namespaceKey_of_declared {before : List String} {line : String} {name : Option String}
    (none : ∀ earlier ∈ before, CodeLine.declaredNamespace? earlier = none)
    (declares : CodeLine.declaredNamespace? line = some name) (after : List String) :
    namespaceKey (before ++ line :: after) = name.getD Row.noNamespace := by
  rw [namespaceKey, firstDeclared_append_cons none declares]
  rfl

/-- How the files of a project are counted, and to which keys their lines belong. -/
structure CountsByNamespace (read : TreeReader) (name path : String) (files : List SourceFile) :
    Prop where
  keys : ∀ key, ((ProjectMetrics.measure read name path files).namespaceLines.get? key).isSome ↔
    ∃ file ∈ files, ∃ number, file.BelongsTo read key number
  counts : ∀ key count,
    (ProjectMetrics.measure read name path files).namespaceLines.get? key = some count ↔
      LastCounts read files key count
  lineCount : ∀ file table, (FileMetrics.measure read table file).1.lineCount =
    (Text.lines file.text).countP (CodeLine.isCode read)
  undeclared : ∀ lines, (∀ line ∈ lines, CodeLine.declaredNamespace? line = none) →
    namespaceKey lines = Row.noNamespace
  declared : ∀ before line found after,
    (∀ earlier ∈ before, CodeLine.declaredNamespace? earlier = none) →
      CodeLine.declaredNamespace? line = some found →
        namespaceKey (before ++ line :: after) = found.getD Row.noNamespace
  behind : ∀ (file other : SourceFile) before first rest others,
    Text.lines file.text = before ++ first :: rest →
    Text.lines other.text = before ++ first :: others →
    (CodeLine.declaredNamespace? first).isSome →
    rest.map (CodeLine.isCode read) = others.map (CodeLine.isCode read) → ∀ table,
      (FileMetrics.measure read table file).2 = (FileMetrics.measure read table other).2 ∧
        (FileMetrics.measure read table file).1.namespaceName =
          (FileMetrics.measure read table other).1.namespaceName ∧
        (FileMetrics.measure read table file).1.lineCount =
          (FileMetrics.measure read table other).1.lineCount
  apart : ∀ line found, CodeLine.declaredNamespace? line = some (some found) →
    found ≠ Row.noNamespace

/-- A project counts, for every key that a code line of its files belongs to, the code lines up to the
last such line of the last such file. -/
theorem countsByNamespace (read : TreeReader) (name path : String) (files : List SourceFile) :
    CountsByNamespace read name path files where
  keys key := by
    rw [ProjectMetrics.isSome_get?_measure]
    simp only [SourceFile.WritesKey, writesKey_iff_exists_belongsTo]
    rfl
  counts _ _ := ProjectMetrics.get?_measure_eq_some_iff
  lineCount file table := LineTally.lineCount_after (CodeLine.isCode read) table _
  undeclared _ := namespaceKey_of_undeclared
  declared _ _ _ after none declares := namespaceKey_of_declared none declares after
  behind file other before first rest others lines otherLines declares alike table := by
    have same : (Text.lines file.text).foldl (LineTally.addLine (CodeLine.isCode read))
        (.start table) = (Text.lines other.text).foldl
          (LineTally.addLine (CodeLine.isCode read)) (.start table) := by
      rw [lines, otherLines]
      exact LineTally.after_of_declaration declares alike table before
    simp only [FileMetrics.measure, same, and_self]
  apart line found declares same := by
    have solid := CodeLine.solid_of_declaredNamespace? declares ' ' (by rw [same]; decide)
    exact absurd solid (by decide)

end SolutionSurvey

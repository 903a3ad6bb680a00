import Mathlib.Data.List.Induction
import SolutionSurvey.Metrics.ProjectMetrics
import SolutionSurvey.Proofs.Collection.Table
import SolutionSurvey.Proofs.Text.Words

/-!
# Which namespaces a project counts

Every code line writes the count reached there under the namespace that the file has declared first
up to that line.  No key that is written is ever removed, so in the end a project has just the keys
that the code lines of its files write.
-/

namespace SolutionSurvey

/-! ### Lines that declare a namespace -/

namespace CodeLine

/-- A sign that opens or closes a declaration. -/
def isClosing (c : Char) : Bool := c == ';' || c == '{'

section Declaration

variable {line word name : String} {rest : List String}

/-- A line declares a namespace just if `namespace` is its first word. -/
theorem declaredNamespace?_eq_none_iff :
    declaredNamespace? line = none ↔ (Text.words line).head? ≠ some "namespace" := by
  unfold declaredNamespace?
  split
  case h_1 rest words => simp [words]
  case h_2 other =>
    refine iff_of_true rfl fun isFirst => ?_
    obtain ⟨rest, words⟩ := List.head?_eq_some_iff.mp isFirst
    exact other rest words

/-- The name is the second word, without the signs at its end that open or close a declaration. -/
theorem declaredNamespace?_of_words (words : Text.words line = "namespace" :: word :: rest) :
    declaredNamespace? line = some (if Text.trimEndOf isClosing word == "" then none
      else some (Text.trimEndOf isClosing word)) := by
  rw [declaredNamespace?, words]
  rfl

/-- There is no white space in a name. -/
theorem solid_of_declaredNamespace? (declares : declaredNamespace? line = some (some name)) :
    ∀ c ∈ name.toList, Text.isBlank c = false := by
  have isFirst : (Text.words line).head? = some "namespace" := by
    by_contra other
    rw [declaredNamespace?_eq_none_iff.mpr other] at declares
    cases declares
  obtain ⟨rest, words⟩ := List.head?_eq_some_iff.mp isFirst
  cases rest with
  | nil =>
      rw [declaredNamespace?, words] at declares
      cases declares
  | cons word rest =>
      have inLine : word ∈ Text.words line := by simp [words]
      rw [declaredNamespace?_of_words words, Option.some.injEq] at declares
      split at declares
      case isTrue => cases declares
      case isFalse =>
        obtain rfl := Option.some.inj declares
        exact fun c membership =>
          Text.solid_of_mem_words inLine c (Text.mem_of_mem_trimEndOf membership)

end Declaration

end CodeLine

/-- The first declaration of a namespace among some lines. -/
def firstDeclared (lines : List String) : Option (Option String) :=
  lines.findSome? CodeLine.declaredNamespace?

/-- The key under which lines are counted after some lines of a file. -/
def namespaceKey (lines : List String) : String :=
  ((firstDeclared lines).bind id).getD Row.noNamespace

/-- A key is written at a code line if it is the one that holds there. -/
def WritesKey (isCode : String → Bool) (lines : List String) (key : String) : Prop :=
  ∃ before line after, lines = before ++ line :: after ∧ isCode line ∧
    key = namespaceKey (before ++ [line])

def SourceFile.WritesKey (read : TreeReader) (file : SourceFile) (key : String) : Prop :=
  SolutionSurvey.WritesKey (CodeLine.isCode read) (Text.lines file.text) key

/-- What follows the first declaration does not count. -/
theorem firstDeclared_append_cons {before : List String} {line : String} {name : Option String}
    (none : ∀ earlier ∈ before, CodeLine.declaredNamespace? earlier = none)
    (declares : CodeLine.declaredNamespace? line = some name) (after : List String) :
    firstDeclared (before ++ line :: after) = some name := by
  rw [firstDeclared, List.findSome?_append, List.findSome?_eq_none_iff.mpr none, Option.none_or,
    List.findSome?_cons, declares]

theorem writesKey_append {isCode : String → Bool} {lines : List String} {last key : String} :
    WritesKey isCode (lines ++ [last]) key ↔
      WritesKey isCode lines key ∨ (isCode last ∧ key = namespaceKey (lines ++ [last])) := by
  constructor
  · rintro ⟨before, line, after, split, code, same⟩
    rcases List.eq_nil_or_concat after with rfl | ⟨after, final, rfl⟩
    · obtain ⟨rfl, rfl⟩ := List.append_singleton_inj.mp split
      exact .inr ⟨code, same⟩
    · rw [List.concat_eq_append, ← List.cons_append, ← List.append_assoc] at split
      obtain ⟨rfl, rfl⟩ := List.append_singleton_inj.mp split
      exact .inl ⟨before, line, after, rfl, code, same⟩
  · rintro (⟨before, line, after, rfl, code, same⟩ | ⟨code, same⟩)
    · exact ⟨before, line, after ++ [last], by simp, code, same⟩
    · exact ⟨lines, last, [], rfl, code, same⟩

namespace LineTally

section Lines

variable (isCode : String → Bool) (table : Table Nat)

/-- The tally after some lines of a file. -/
def after (lines : List String) : LineTally := lines.foldl (addLine isCode) (start table)

theorem after_append (lines : List String) (last : String) :
    after isCode table (lines ++ [last]) = addLine isCode (after isCode table lines) last := by
  rw [after, List.foldl_append]
  rfl

theorem declared_after (lines : List String) :
    (after isCode table lines).declared = firstDeclared lines := by
  induction lines using List.reverseRecOn with
  | nil => rfl
  | append_singleton lines last inductionHypothesis =>
      have declared : (addLine isCode (after isCode table lines) last).declared =
          (after isCode table lines).declared.or (CodeLine.declaredNamespace? last) := by
        unfold addLine
        split <;> rfl
      rw [after_append, declared, inductionHypothesis]
      simp [firstDeclared]

theorem lineCount_after (lines : List String) :
    (after isCode table lines).lineCount = lines.countP isCode := by
  induction lines using List.reverseRecOn with
  | nil => rfl
  | append_singleton lines last inductionHypothesis =>
      rw [after_append, addLine, List.countP_append, List.countP_singleton, ← inductionHypothesis]
      split <;> rfl

/-- A code line gives the key that holds there the number of code lines up to it. -/
theorem get?_after_append (lines : List String) (last key : String) :
    (after isCode table (lines ++ [last])).namespaceLines.get? key =
      if isCode last ∧ key = namespaceKey (lines ++ [last]) then
        some ((lines ++ [last]).countP isCode)
      else (after isCode table lines).namespaceLines.get? key := by
  have declared := declared_after isCode table (lines ++ [last])
  have counted := lineCount_after isCode table (lines ++ [last])
  rw [after_append] at declared counted ⊢
  by_cases code : isCode last
  · simp only [addLine, code, if_true, true_and] at declared counted ⊢
    rw [Table.get?_insert, declared, counted, ← namespaceKey]
  · simp [addLine, code]

/-- A later file replaces the count of an earlier one, also by a smaller one. -/
example : (after (fun _ => true) [("A", 4)] ["namespace A", "\x7b", "\x7d"]).namespaceLines =
    [("A", 3)] := by decide +kernel

variable {isCode table}

theorem isSome_get?_after {lines : List String} {key : String} :
    ((after isCode table lines).namespaceLines.get? key).isSome ↔
      WritesKey isCode lines key ∨ (table.get? key).isSome := by
  induction lines using List.reverseRecOn with
  | nil =>
      have nothing : ¬WritesKey isCode [] key := by
        rintro ⟨before, line, rest, split, _⟩
        simp at split
      simp [nothing, after, start]
  | append_singleton lines last inductionHypothesis =>
      rw [get?_after_append, writesKey_append]
      split
      case isTrue writes => simp [writes]
      case isFalse silent => rw [inductionHypothesis, or_iff_left silent]

end Lines

end LineTally

namespace FileMetrics

/-- The metrics of a file, which do not show what was measured before it. -/
def ofFile (read : TreeReader) (file : SourceFile) : FileMetrics where
  namespaceName := (firstDeclared (Text.lines file.text)).bind id
  lineCount := (Text.lines file.text).countP (CodeLine.isCode read)
  complexity := Complexity.ofTree file.tree

theorem measure_fst (read : TreeReader) (table : Table Nat) (file : SourceFile) :
    (measure read table file).1 = ofFile read file := by
  have declared := LineTally.declared_after (CodeLine.isCode read) table (Text.lines file.text)
  have counted := LineTally.lineCount_after (CodeLine.isCode read) table (Text.lines file.text)
  rw [ofFile, ← declared, ← counted]
  rfl

end FileMetrics

namespace ProjectMetrics

variable {read : TreeReader} {name path : String} {files : List SourceFile} {key : String}

theorem isSome_get?_measureFiles {table : Table Nat} :
    ((measureFiles read name path table files).2.get? key).isSome ↔
      (∃ file ∈ files, file.WritesKey read key) ∨ (table.get? key).isSome := by
  induction files generalizing table with
  | nil => simp [measureFiles]
  | cons file rest inductionHypothesis =>
      have measured : (FileMetrics.measure read table file).2 =
          (LineTally.after (CodeLine.isCode read) table (Text.lines file.text)).namespaceLines := rfl
      rw [measureFiles, inductionHypothesis, measured, LineTally.isSome_get?_after,
        ← SourceFile.WritesKey, or_left_comm, ← or_assoc]
      simp only [List.mem_cons, exists_eq_or_imp]

/-- A project counts the namespaces that its files write, and no others. -/
theorem isSome_get?_measure :
    ((measure read name path files).namespaceLines.get? key).isSome ↔
      ∃ file ∈ files, file.WritesKey read key := by
  have counted : ((measureFiles read name path [] files).2.get? key).isSome ↔
      (∃ file ∈ files, file.WritesKey read key) ∨ (Table.get? key ([] : Table Nat)).isSome :=
    isSome_get?_measureFiles
  simp only [Table.get?_nil, Option.isSome_none, Bool.false_eq_true, or_false] at counted
  exact counted

end ProjectMetrics

end SolutionSurvey

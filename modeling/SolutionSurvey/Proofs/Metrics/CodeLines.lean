import Mathlib.Data.List.Infix
import SolutionSurvey.Proofs.Metrics.NamespaceLines
import SolutionSurvey.Proofs.Node.Address
import SolutionSurvey.Proofs.Text.LeavingOut
import SolutionSurvey.Proofs.Text.Lines

/-!
# Comments in lines without quotation marks

Where there is no quotation mark and no number sign, a comment can be told from its first two
characters.  A block comment that is not closed on its line is read once it is closed, so it does not
matter whether a line closes it.
-/

namespace SolutionSurvey

namespace Text

def Occurs (part text : String) : Prop := part.toList <:+: text.toList

instance (part text : String) : Decidable (Occurs part text) :=
  inferInstanceAs (Decidable (part.toList <:+: text.toList))

theorem occurs_iff {part text : String} :
    Occurs part text ↔ ∃ before after, text = before ++ part ++ after := by
  constructor
  · rintro ⟨before, after, same⟩
    refine ⟨String.ofList before, String.ofList after, String.toList_inj.mp ?_⟩
    simp [← same]
  · rintro ⟨before, after, rfl⟩
    exact ⟨before.toList, after.toList, by simp⟩

theorem pair_infix_iff {α : Type} [BEq α] [LawfulBEq α] {first second : α} {items : List α} :
    [first, second] <:+: items ↔ (items.zip items.tail).contains (first, second) = true := by
  induction items with
  | nil => simp
  | cons item rest inductionHypothesis =>
      rw [List.infix_cons_iff, inductionHypothesis]
      cases rest with
      | nil => simp
      | cons next others => simp [List.cons_prefix_cons]

end Text

namespace CodeLine

open Text (Occurs)

/-- A text in which slashes and stars are what they seem to be. -/
def IsPlain (text : String) : Prop :=
  ∀ c ∈ text.toList, c ∉ ['"', '\'', '#']

instance (text : String) : Decidable (IsPlain text) :=
  List.decidableBAll (fun c => c ∉ ['"', '\'', '#']) text.toList

/-- A comment up to the end of its line, or a block comment with both of its ends. -/
def HasWholeComment (text : String) : Prop :=
  Occurs "//" text ∨ ∃ before inside after, text = before ++ "/*" ++ inside ++ "*/" ++ after

/-- The comments in a text are read just where they are written. -/
def ReadsComments (read : TreeReader) (text : String) : Prop :=
  readsComment read text = true ↔ HasWholeComment text

/-- The comments in all that is read to judge a line are read where they are written. -/
def ReadsLine (read : TreeReader) (line : String) : Prop :=
  ReadsComments read line ∧ ReadsComments read (line ++ "*/")

/-- A line that is not blank and in which no comment begins. -/
def IsPlainCode (line : String) : Prop :=
  (∃ c ∈ line.toList, Text.isBlank c = false) ∧ ¬ Occurs "//" line ∧ ¬ Occurs "/*" line

instance (line : String) : Decidable (IsPlainCode line) :=
  have : Decidable (∃ c ∈ line.toList, Text.isBlank c = false) :=
    List.decidableBEx (Text.isBlank · = false) line.toList
  inferInstanceAs (Decidable (_ ∧ _ ∧ _))

theorem hasOpening_iff {line : String} : hasOpening line = true ↔ Occurs "/*" line :=
  Text.pair_infix_iff.symm

section Line

variable {read : TreeReader} {line : String}

/-- Closing a line completes a block comment that begins in it, and makes no other comment. -/
theorem isCommented_iff (reads : ReadsLine read line) :
    isCommented read line = true ↔ Occurs "//" line ∨ Occurs "/*" line := by
  have alone : readsComment read line = true ↔ HasWholeComment line := reads.1
  have closed : readsComment read (line ++ "*/") = true ↔ HasWholeComment (line ++ "*/") := reads.2
  rw [isCommented, Bool.or_eq_true, Bool.and_eq_true, alone, closed, hasOpening_iff]
  constructor
  · rintro ((slashes | ⟨before, inside, after, rfl⟩) | ⟨opened, _⟩)
    · exact .inl slashes
    · exact .inr (Text.occurs_iff.mpr ⟨before, inside ++ "*/" ++ after, by simp [String.append_assoc]⟩)
    · exact .inr opened
  · rintro (slashes | opened)
    · exact .inl (.inl slashes)
    · obtain ⟨before, inside, rfl⟩ := Text.occurs_iff.mp opened
      exact .inr ⟨opened, .inr ⟨before, inside, "", by simp⟩⟩

theorem isCode_iff (reads : ReadsLine read line) : isCode read line = true ↔ IsPlainCode line := by
  have written : (∃ c ∈ line.toList, Text.isBlank c = false) ↔ Text.trim line ≠ "" := by
    rw [Ne, Text.trim_eq_empty_iff]
    simp
  rw [isCode, Bool.and_eq_true, bne_iff_ne, Bool.not_eq_true', ← Bool.not_eq_true,
    isCommented_iff reads, not_or, ← written, IsPlainCode]

theorem readsLine_of_plain (reads : ∀ text, IsPlain text → ReadsComments read text)
    (plain : IsPlain line) : ReadsLine read line := by
  have closed : IsPlain (line ++ "*/") := by
    intro c membership
    rw [String.toList_append, List.mem_append] at membership
    rcases membership with inLine | inClosing
    · exact plain c inLine
    · exact (by decide +kernel : IsPlain "*/") c inClosing
  exact ⟨reads line plain, reads _ closed⟩

theorem lineCount_of_readsLine {file : SourceFile}
    (reads : ∀ line ∈ Text.lines file.text, ReadsLine read line) (table : Table Nat) :
    (FileMetrics.measure read table file).1.lineCount =
      (Text.lines file.text).countP fun line => IsPlainCode line := by
  refine (LineTally.lineCount_after (isCode read) table _).trans (List.countP_congr ?_)
  intro line isLine
  rw [isCode_iff (reads line isLine), decide_eq_true_iff]

end Line

/-- What makes a line code, if comments are read where they are written. -/
structure TellsPlainCode (read : TreeReader) : Prop where
  /-- A plain line is code just if it is not blank and no comment begins in it. -/
  plainLine : (∀ text, IsPlain text → ReadsComments read text) → ∀ line, IsPlain line →
    (isCode read line = true ↔ IsPlainCode line)
  plainFile : (∀ text, IsPlain text → ReadsComments read text) → ∀ table file, IsPlain file.text →
    (FileMetrics.measure read table file).1.lineCount =
      (Text.lines file.text).countP fun line => IsPlainCode line
  /-- A reader need not get other lines right, and a line that it gets right need not be plain. -/
  line : ∀ line, ReadsLine read line → (isCode read line = true ↔ IsPlainCode line)
  file : ∀ table file, (∀ line ∈ Text.lines file.text, ReadsLine read line) →
    (FileMetrics.measure read table file).1.lineCount =
      (Text.lines file.text).countP fun line => IsPlainCode line
  /-- It does not matter what follows the opening of a block comment: it may be nothing, and it may
  be a slash that seems to close the comment. -/
  opened : ∀ before after, ReadsLine read (before ++ "/*" ++ after) →
    isCode read (before ++ "/*" ++ after) = false
  /-- The end of a block comment is no comment by itself. -/
  closed : ∀ before after, ReadsLine read (before ++ "*/" ++ after) →
    ¬ Occurs "//" (before ++ "*/" ++ after) → ¬ Occurs "/*" (before ++ "*/" ++ after) →
    isCode read (before ++ "*/" ++ after) = true

theorem tellsPlainCode (read : TreeReader) : TellsPlainCode read where
  plainLine reads line plain := isCode_iff (readsLine_of_plain reads plain)
  plainFile reads table file plain :=
    lineCount_of_readsLine (fun line isLine => readsLine_of_plain reads fun c inLine =>
      plain c (Text.subset_of_mem_lines isLine inLine)) table
  line _ := isCode_iff
  file table _ reads := lineCount_of_readsLine reads table
  opened before after reads := by
    rw [← Bool.not_eq_true, isCode_iff reads]
    exact fun code => code.2.2 (Text.occurs_iff.mpr ⟨before, after, rfl⟩)
  closed before after reads noSlashes notOpened := by
    rw [isCode_iff reads]
    exact ⟨⟨'*', by simp, by decide⟩, noSlashes, notOpened⟩

/-! ### A reader that looks for comments only -/

theorem exists_wholeComment_iff {text : String} :
    (∃ before inside after, text = before ++ "/*" ++ inside ++ "*/" ++ after) ↔
      ∃ rest ∈ text.toList.tails, ['/', '*'] <+: rest ∧ ['*', '/'] <:+: rest.drop 2 := by
  constructor
  · rintro ⟨before, inside, after, rfl⟩
    refine ⟨"/*".toList ++ inside.toList ++ "*/".toList ++ after.toList, ?_, ?_, ?_⟩
    · rw [List.mem_tails]
      exact ⟨before.toList, by simp⟩
    · exact ⟨inside.toList ++ "*/".toList ++ after.toList, by simp⟩
    · exact ⟨inside.toList, after.toList, by simp⟩
  · rintro ⟨rest, inTails, ⟨others, rfl⟩, ⟨inside, after, closed⟩⟩
    obtain ⟨before, same⟩ := (List.mem_tails _ _).mp inTails
    obtain rfl : inside ++ ['*', '/'] ++ after = others := closed
    refine ⟨String.ofList before, String.ofList inside, String.ofList after, String.toList_inj.mp ?_⟩
    simp [← same]

instance (text : String) : Decidable (HasWholeComment text) :=
  have : Decidable (∃ before inside after, text = before ++ "/*" ++ inside ++ "*/" ++ after) :=
    decidable_of_iff _ exists_wholeComment_iff.symm
  inferInstanceAs (Decidable (_ ∨ _))

open Node (written) in
def commentReader : TreeReader := fun text =>
  some (written "compilation_unit" [] 1 1 text
    (if HasWholeComment text then [written "comment" [] 1 1 text []] else []))

theorem readsComments_commentReader (text : String) : ReadsComments commentReader text := by
  rw [ReadsComments, readsComment, commentReader, Option.map_some, Option.getD_some]
  by_cases whole : HasWholeComment text
  · rw [if_pos whole]
    exact iff_of_true rfl whole
  · rw [if_neg whole]
    exact iff_of_false Bool.false_ne_true whole

/-- A block comment that its opening seems to close is a comment, and its end alone is none. -/
theorem commentReader_tellsPlainCode :
    (∀ text, IsPlain text → ReadsComments commentReader text) ∧
      IsPlain "value /*/" ∧ isCode commentReader "value /*/" = false ∧
      IsPlain "value */ factor" ∧ isCode commentReader "value */ factor" = true := by
  have reads : ∀ text, IsPlain text → ReadsComments commentReader text :=
    fun text _ => readsComments_commentReader text
  have judged := (tellsPlainCode commentReader).plainLine reads
  refine ⟨reads, by decide +kernel, ?_, by decide +kernel, (judged _ (by decide +kernel)).mpr (by decide +kernel)⟩
  rw [← Bool.not_eq_true, judged _ (by decide +kernel)]
  decide +kernel

end CodeLine

end SolutionSurvey

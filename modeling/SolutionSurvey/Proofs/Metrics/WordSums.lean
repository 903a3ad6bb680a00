import Mathlib.Algebra.Order.BigOperators.Group.List
import SolutionSurvey.Proofs.Metrics.Entering

/-!
# Duplicated lines in machine words

A sum that is kept in words is the word of the exact sum.  So a table of words shows the exact
duplicated lines as long as every sum fits; where one does not, a build that panics gives no table,
and one that wraps shows what is left modulo the size of a word.
-/

namespace SolutionSurvey

/-! ### Words -/

namespace Overflow

variable {overflow : Overflow} {number more word : Nat}

theorem word?_of_fits (fits : number < wordSize) : overflow.word? number = some number :=
  if_pos fits

theorem word?_wraps (number : Nat) : wraps.word? number = some (number % wordSize) := by
  unfold word?
  split
  · next fits => rw [Nat.mod_eq_of_lt fits]
  · rfl

theorem word?_panics_eq_some_iff : panics.word? number = some word ↔
    number = word ∧ number < wordSize := by
  unfold word?
  split
  · next fits => simp [fits]
  · next tooLarge => simp [tooLarge]

theorem word?_panics_eq_none_iff : panics.word? number = none ↔ wordSize ≤ number := by
  unfold word?
  split
  · next fits => simp [fits]
  · next tooLarge => simpa using tooLarge

/-- A word stands for itself. -/
theorem word?_word (kept : overflow.word? number = some word) :
    overflow.word? word = some word := by
  cases overflow with
  | panics =>
      obtain ⟨rfl, fits⟩ := word?_panics_eq_some_iff.mp kept
      exact word?_of_fits fits
  | wraps =>
      rw [word?_wraps, Option.some.injEq] at kept
      rw [word?_wraps, ← kept, Nat.mod_mod]

/-- Only the words of two numbers show in the word of their sum. -/
theorem word?_add {left right leftToo rightToo : Nat}
    (sameLeft : overflow.word? leftToo = overflow.word? left)
    (sameRight : overflow.word? rightToo = overflow.word? right) :
    overflow.word? (leftToo + rightToo) = overflow.word? (left + right) := by
  cases overflow with
  | panics =>
      unfold word? at sameLeft sameRight ⊢
      grind
  | wraps =>
      simp only [word?_wraps, Option.some.injEq] at sameLeft sameRight ⊢
      rw [Nat.add_mod, sameLeft, sameRight, ← Nat.add_mod]

/-- What is added to a number without a word does not bring one back. -/
theorem word?_eq_none_of_le (wordless : overflow.word? number = none) (atMost : number ≤ more) :
    overflow.word? more = none := by
  cases overflow with
  | panics =>
      apply word?_panics_eq_none_iff.mpr
      exact (word?_panics_eq_none_iff.mp wordless).trans atMost
  | wraps => simp [word?_wraps] at wordless

end Overflow

/-- Words in place of exact counts: the word of every count, or nothing if a count has none. -/
def Tally.KeptAs {κ : Type} (overflow : Overflow) (exact : Tally κ) : Option (Tally κ) → Prop
  | some words => ∀ key, overflow.word? (exact key) = some (words key)
  | none => ∃ key, overflow.word? (exact key) = none

namespace Tally.KeptAs

variable {κ : Type} {overflow : Overflow} {exact : Tally κ}

theorem zero : (Tally.zero : Tally κ).KeptAs overflow (some .zero) :=
  fun _ => Overflow.word?_of_fits (Nat.two_pow_pos 64)

/-- One more amount is added in words as it is exactly. -/
theorem add [DecidableEq κ] {words? : Option (Tally κ)} (kept : exact.KeptAs overflow words?) (key : κ)
    {amount amountKept : Nat} (same : overflow.word? amountKept = overflow.word? amount) :
    (exact.add key amount).KeptAs overflow (words?.bind (Tally.add? overflow key amountKept)) := by
  cases words? with
  | none =>
      obtain ⟨other, wordless⟩ := kept
      exact ⟨other, Overflow.word?_eq_none_of_le wordless (Nat.le_add_right _ _)⟩
  | some words =>
      have keptAtKey : overflow.word? (words key) = overflow.word? (exact key) :=
        (Overflow.word?_word (kept key)).trans (kept key).symm
      have total : overflow.add? (words key) amountKept = overflow.word? (exact key + amount) :=
        Overflow.word?_add keptAtKey same
      rw [Option.bind_some, Tally.add?, total]
      cases outcome : overflow.word? (exact key + amount) with
      | none => exact ⟨key, by rw [Tally.add, if_pos rfl, outcome]⟩
      | some word =>
          intro other
          by_cases isKey : key = other
          · subst isKey
            simp [Tally.add, outcome]
          · simp [Tally.add, isKey, kept other]

end Tally.KeptAs

namespace DuplicateLines

variable {overflow : Overflow} {duplications : List DuplicationRecord} {rows : List Row}

/-! ### Both passes in words -/

namespace Sums

/-- Words in place of the exact sums: the words of all sums, or nothing if a total has none. -/
def KeptAs (overflow : Overflow) (exact : Sums) : Option Sums → Prop
  | some words =>
      exact.namespaces.KeptAs overflow (some words.namespaces) ∧
        exact.projects.KeptAs overflow (some words.projects) ∧
        overflow.word? exact.solution = some words.solution
  | none => ∃ total : Row, total.scope ≠ .file ∧ overflow.word? (exact.shownBy total) = none

theorem KeptAs.zero : Sums.zero.KeptAs overflow (some .zero) :=
  ⟨.zero, .zero, Overflow.word?_of_fits (Nat.two_pow_pos 64)⟩

theorem KeptAs.shownBy {exact words : Sums} (kept : exact.KeptAs overflow (some words)) {row : Row}
    (about : row.scope ≠ .file) :
    overflow.word? (exact.shownBy row) = some (words.shownBy row) := by
  obtain ⟨namespaces, projects, solution⟩ := kept
  unfold Sums.shownBy
  cases scope : row.scope with
  | file => exact absurd scope about
  | namespaceTotal => exact namespaces _
  | projectTotal => exact projects _
  | solutionTotal => exact solution

theorem KeptAs.addFile {exact : Sums} {words? : Option Sums} (kept : exact.KeptAs overflow words?)
    {file : Row} {word : Nat} (same : overflow.word? file.duplicateLines = some word) :
    (exact.addFile file).KeptAs overflow
      (words?.bind (·.addFile? overflow { file with duplicateLines := word })) := by
  have sameWord : overflow.word? word = overflow.word? file.duplicateLines :=
    (Overflow.word?_word same).trans same.symm
  cases words? with
  | none =>
      obtain ⟨total, about, wordless⟩ := kept
      refine ⟨total, about, Overflow.word?_eq_none_of_le wordless ?_⟩
      rw [shownBy_addFile exact file about]
      exact Nat.le_add_right _ _
  | some words =>
      obtain ⟨namespaces, projects, solution⟩ := kept
      have namespacesToo := namespaces.add (file.projectName, file.namespaceName) sameWord
      have projectsToo := projects.add file.projectName sameWord
      have solutionToo : overflow.add? words.solution word =
          overflow.word? (exact.solution + file.duplicateLines) :=
        Overflow.word?_add ((Overflow.word?_word solution).trans solution.symm) sameWord
      rw [Option.bind_some] at namespacesToo projectsToo ⊢
      unfold addFile?
      cases first : words.namespaces.add? overflow (file.projectName, file.namespaceName) word with
      | none =>
          obtain ⟨⟨project, namespaceName⟩, wordless⟩ := first ▸ namespacesToo
          exact ⟨.total .namespaceTotal project "" namespaceName 0 0, by simp [Row.total], wordless⟩
      | some namespaceWords =>
          cases second : words.projects.add? overflow file.projectName word with
          | none =>
              obtain ⟨project, wordless⟩ := second ▸ projectsToo
              exact ⟨.total .projectTotal project "" none 0 0, by simp [Row.total], wordless⟩
          | some projectWords =>
              cases third : overflow.add? words.solution word with
              | none =>
                  exact ⟨.total .solutionTotal "" "" none 0 0, by simp [Row.total],
                    solutionToo.symm.trans third⟩
              | some solutionWord =>
                  exact ⟨first ▸ namespacesToo, second ▸ projectsToo, solutionToo.symm.trans third⟩

end Sums

/-! ### The table that comes of it -/

/-- No sum is too large for a word: not over the records of a file, nor over all file rows. -/
structure SumsFit (duplications : List DuplicationRecord) (rows : List Row) : Prop where
  files : ∀ record ∈ duplications, inFile duplications record.filePath < wordSize
  solution : sum duplications (fileRows rows) < wordSize

instance (duplications : List DuplicationRecord) (rows : List Row) :
    Decidable (SumsFit duplications rows) :=
  decidable_of_iff ((∀ record ∈ duplications, inFile duplications record.filePath < wordSize) ∧
      sum duplications (fileRows rows) < wordSize)
    ⟨fun ⟨files, solution⟩ => ⟨files, solution⟩, fun fits => ⟨fits.files, fits.solution⟩⟩

/-- The same files are summed up in tables that name the same files in any order. -/
theorem sum_eq_of_perm {files others : List Row}
    (perm : (files.map (·.filePath)).Perm (others.map (·.filePath))) :
    sum duplications files = sum duplications others := by
  have sums := sumOf_map_eq_of_perm perm (inFile duplications)
  rwa [List.map_map, List.map_map] at sums

namespace SumsFit

variable (fits : SumsFit duplications rows)

include fits

theorem inFile_lt (filePath : String) : inFile duplications filePath < wordSize := by
  by_cases known : ∃ record ∈ duplications, record.filePath = filePath
  · obtain ⟨record, membership, rfl⟩ := known
    exact fits.files record membership
  · have nothing : (duplications.filter fun record => record.filePath == filePath) = [] := by
      simpa using known
    rw [inFile, nothing]
    exact Nat.two_pow_pos 64

theorem of_perm {others : List DuplicationRecord} {rowsToo : List Row}
    (perm : duplications.Perm others)
    (files : ((fileRows rows).map (·.filePath)).Perm ((fileRows rowsToo).map (·.filePath))) :
    SumsFit others rowsToo where
  files record membership := by
    rw [← inFile_eq_of_perm perm]
    exact fits.inFile_lt record.filePath
  solution := by
    have same : sum others (fileRows rowsToo) = sum duplications (fileRows rows) := by
      rw [sum, ← inFile_eq_of_perm perm]
      exact (sum_eq_of_perm files).symm
    exact same ▸ fits.solution

end SumsFit

section Largest

end Largest

end DuplicateLines

end SolutionSurvey

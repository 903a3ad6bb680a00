import SolutionSurvey.Proofs.Dependency.OwnNames

/-!
# Type expressions

A type expression is built from dotted names with type arguments, tuples, array ranks and marks, and
there may be white space around every bracket, comma and mark.  However it is written, its names are
read out of it in order.
-/

namespace SolutionSurvey

open CSharp.Lexeme (IsWord)
open Resolution (separates namesIn readName)

/-- White space, or nothing. -/
structure Blanks where
  chars : List Char
  blank : ∀ c ∈ chars, Text.isBlank c

/-- White space that keeps two words apart. -/
structure Space extends Blanks where
  written : chars ≠ []

/-- A name with the names it is qualified by.  It may say that it starts at the outermost
namespace. -/
structure DottedName where
  fromOutermost : Bool
  outer : List String
  own : String
  words : ∀ part ∈ outer, IsWord part.toList
  word : IsWord own.toList

namespace DottedName

def mark (name : DottedName) : List Char :=
  if name.fromOutermost then Directive.globalMark.toList else []

/-- A name without the mark for the outermost namespace. -/
def full (name : DottedName) : List Char :=
  name.outer.foldr (fun part rest => part.toList ++ '.' :: rest) name.own.toList

def chars (name : DottedName) : List Char := name.mark ++ name.full

end DottedName

/-- What stands behind an element of a tuple: white space, and perhaps the name of the element. -/
inductive Label where
  | unnamed (gap : Blanks)
  | named (before : Space) (name : String) (word : IsWord name.toList) (after : Blanks)

def Label.chars : Label → List Char
  | unnamed gap => gap.chars
  | named before name _ after => before.chars ++ (name.toList ++ after.chars)

def Label.names : Label → List String
  | unnamed _ => []
  | named _ name _ _ => readName name.toList

/-- A mark or an array rank behind a type. -/
inductive Decoration where
  | nullable (gap : Blanks)
  | pointer (gap : Blanks)
  | array (gap : Blanks) (rank : List Char) (commas : ∀ c ∈ rank, c = ',' ∨ Text.isBlank c)

def Decoration.chars : Decoration → List Char
  | nullable gap => gap.chars ++ ['?']
  | pointer gap => gap.chars ++ ['*']
  | array gap rank _ => gap.chars ++ '[' :: (rank ++ [']'])

/-- A type as it is written. -/
inductive TypeExpression where
  | named (name : DottedName)
  | applied (name : DottedName) (gap before : Blanks) (first : TypeExpression) (after : Blanks)
      (others : List (Blanks × TypeExpression × Blanks))
  | tuple (before : Blanks) (first : TypeExpression) (label : Label)
      (others : List (Blanks × TypeExpression × Label))
  | decorated (element : TypeExpression) (decoration : Decoration)

namespace TypeExpression

mutual

def chars : TypeExpression → List Char
  | named name => name.chars
  | applied name gap before first after others =>
      name.chars ++ (gap.chars ++ '<' ::
        (before.chars ++ (first.chars ++ (after.chars ++ charsOfArguments others))))
  | tuple before first label others =>
      '(' :: (before.chars ++ (first.chars ++ (label.chars ++ charsOfElements others)))
  | decorated element decoration => element.chars ++ decoration.chars

/-- Further type arguments, up to the closing bracket. -/
def charsOfArguments : List (Blanks × TypeExpression × Blanks) → List Char
  | [] => ['>']
  | (before, argument, after) :: others =>
      ',' :: (before.chars ++ (argument.chars ++ (after.chars ++ charsOfArguments others)))

/-- Further elements of a tuple, up to the closing bracket. -/
def charsOfElements : List (Blanks × TypeExpression × Label) → List Char
  | [] => [')']
  | (before, element, label) :: others =>
      ',' :: (before.chars ++ (element.chars ++ (label.chars ++ charsOfElements others)))

end

mutual

/-- The names in a type, each as often as it is written. -/
def names : TypeExpression → List String
  | named name => readName name.full
  | applied name _ _ first _ others =>
      readName name.full ++ (first.names ++ namesOfArguments others)
  | tuple _ first label others => first.names ++ (label.names ++ namesOfElements others)
  | decorated element _ => element.names

def namesOfArguments : List (Blanks × TypeExpression × Blanks) → List String
  | [] => []
  | (_, argument, _) :: others => argument.names ++ namesOfArguments others

def namesOfElements : List (Blanks × TypeExpression × Label) → List String
  | [] => []
  | (_, element, label) :: others => element.names ++ (label.names ++ namesOfElements others)

end

def text (expression : TypeExpression) : String := String.ofList expression.chars

end TypeExpression

/-! ### Reading -/

theorem Blanks.separates (gap : Blanks) : ∀ c ∈ gap.chars, Resolution.separates c :=
  fun c membership => Resolution.separates_of_isBlank (gap.blank c membership)

/-- Nothing is read from a sign and the white space behind it. -/
theorem Blanks.namesIn_cons_append (gap : Blanks) {c : Char} (cuts : Resolution.separates c)
    (back : List Char) :
    namesIn (String.ofList (c :: (gap.chars ++ back))) = namesIn (String.ofList back) := by
  have cut : ∀ other ∈ c :: gap.chars, Resolution.separates other :=
    List.forall_mem_cons.mpr ⟨cuts, gap.separates⟩
  exact Resolution.namesIn_gap_append cut back

theorem DottedName.isName (name : DottedName) : Resolution.IsName name.full := by
  obtain ⟨_, outer, own, words, word⟩ := name
  unfold DottedName.full
  induction outer with
  | nil => exact Declaration.isName_of_word word
  | cons part outer inductionHypothesis =>
      obtain ⟨wordPart, words⟩ := List.forall_mem_cons.mp words
      exact (Declaration.isName_of_word wordPart).append_dot (inductionHypothesis words)

theorem DottedName.namesIn_chars (name : DottedName) :
    namesIn (String.ofList name.chars) = readName name.full := by
  rw [← Resolution.namesIn_of_isName name.isName, chars, mark]
  by_cases outermost : name.fromOutermost
  · rw [if_pos outermost]
    exact Resolution.namesIn_globalMark_append name.full
  · rw [if_neg outermost, List.nil_append]

theorem Decoration.separates (decoration : Decoration) :
    ∀ c ∈ decoration.chars, Resolution.separates c := by
  cases decoration with
  | nullable gap =>
      have sign : ∀ c ∈ ['?'], Resolution.separates c := List.forall_mem_singleton.mpr (by decide)
      exact List.forall_mem_append.mpr ⟨gap.separates, sign⟩
  | pointer gap =>
      have sign : ∀ c ∈ ['*'], Resolution.separates c := List.forall_mem_singleton.mpr (by decide)
      exact List.forall_mem_append.mpr ⟨gap.separates, sign⟩
  | array gap rank commas =>
      have inside : ∀ c ∈ rank, Resolution.separates c := by
        intro c membership
        rcases commas c membership with rfl | blank
        · decide
        · exact Resolution.separates_of_isBlank blank
      simp only [chars, List.forall_mem_append, List.forall_mem_cons]
      exact ⟨gap.separates, by decide, inside, by decide, List.forall_mem_nil _⟩

/-- The name of an element is read between what stands before it and what follows. -/
theorem Label.namesIn_append {back : List Char} (label : Label) (front : List Char)
    (apart : ∀ c ∈ back.head?, separates c) :
    namesIn (String.ofList (front ++ (label.chars ++ back))) =
      namesIn (String.ofList front) ++ (label.names ++ namesIn (String.ofList back)) := by
  cases label with
  | unnamed gap =>
      rw [chars, names, List.nil_append]
      exact Resolution.namesIn_append gap.separates apart front
  | named before name word after =>
      obtain ⟨c, gap, isGap⟩ := List.exists_cons_of_ne_nil before.written
      obtain ⟨cuts, cut⟩ := List.forall_mem_cons.mp (isGap ▸ before.separates)
      have read := Resolution.namesIn_of_isName (Declaration.isName_of_word word)
      rw [chars, isGap, names, List.append_assoc, List.cons_append,
        Resolution.namesIn_append_cons cuts, Resolution.namesIn_gap_append cut, List.append_assoc,
        Resolution.namesIn_append after.separates apart, read]

namespace TypeExpression

theorem separates_head?_charsOfArguments (others : List (Blanks × TypeExpression × Blanks)) :
    ∀ c ∈ (charsOfArguments others).head?, separates c := by
  cases others with
  | nil => simp [charsOfArguments]; decide
  | cons argument others =>
      obtain ⟨before, argument, after⟩ := argument
      simp [charsOfArguments]
      decide

theorem separates_head?_charsOfElements (others : List (Blanks × TypeExpression × Label)) :
    ∀ c ∈ (charsOfElements others).head?, separates c := by
  cases others with
  | nil => simp [charsOfElements]; decide
  | cons element others =>
      obtain ⟨before, element, label⟩ := element
      simp [charsOfElements]
      decide

mutual

/-- Whatever stands between them, the names of a type are read in order. -/
theorem namesIn_chars : ∀ expression : TypeExpression,
    namesIn (String.ofList expression.chars) = expression.names
  | named name => name.namesIn_chars
  | applied name gap before first after others => by
      have opens : ∀ back : List Char, ∀ c ∈ ('<' :: back).head?, separates c := by simp; decide
      rw [chars, Resolution.namesIn_append gap.separates (opens _), name.namesIn_chars,
        before.namesIn_cons_append (by decide),
        Resolution.namesIn_append after.separates (separates_head?_charsOfArguments others),
        namesIn_chars first, namesIn_charsOfArguments others, names]
  | tuple before first label others => by
      rw [chars, before.namesIn_cons_append (by decide),
        label.namesIn_append first.chars (separates_head?_charsOfElements others),
        namesIn_chars first, namesIn_charsOfElements others, names]
  | decorated element decoration => by
      rw [chars, Resolution.namesIn_append_gap decoration.separates, namesIn_chars element, names]

theorem namesIn_charsOfArguments : ∀ others : List (Blanks × TypeExpression × Blanks),
    namesIn (String.ofList (charsOfArguments others)) = namesOfArguments others
  | [] => by
      rw [charsOfArguments]
      decide
  | (before, argument, after) :: others => by
      rw [charsOfArguments, before.namesIn_cons_append (by decide),
        Resolution.namesIn_append after.separates (separates_head?_charsOfArguments others),
        namesIn_chars argument, namesIn_charsOfArguments others, namesOfArguments]

theorem namesIn_charsOfElements : ∀ others : List (Blanks × TypeExpression × Label),
    namesIn (String.ofList (charsOfElements others)) = namesOfElements others
  | [] => by
      rw [charsOfElements]
      decide
  | (before, element, label) :: others => by
      rw [charsOfElements, before.namesIn_cons_append (by decide),
        label.namesIn_append element.chars (separates_head?_charsOfElements others),
        namesIn_chars element, namesIn_charsOfElements others, namesOfElements]

end

end TypeExpression

end SolutionSurvey

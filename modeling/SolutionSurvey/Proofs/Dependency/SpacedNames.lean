import SolutionSurvey.Proofs.Dependency.TypeExpressions

/-!
# Names with white space at their dots

A dotted name may be written with white space before and behind its dots.  In an expression the white
space cuts the name: each stretch between two such dots is read as a name of its own.
-/

namespace SolutionSurvey

open CSharp.Lexeme (IsWord)
open Resolution (IsName separates namesIn readName startsName)

theorem isBlank_of_mem_nil : ∀ c ∈ [], Text.isBlank c := List.forall_mem_nil _

def Blanks.nothing : Blanks := ⟨[], isBlank_of_mem_nil⟩

theorem isBlank_of_mem_single : ∀ c ∈ [' '], Text.isBlank c :=
  List.forall_mem_singleton.mpr (by decide)

theorem single_ne_nil : [' '] ≠ [] := List.cons_ne_nil ' ' []

/-- A single space. -/
def Space.single : Space := ⟨⟨[' '], isBlank_of_mem_single⟩, single_ne_nil⟩

/-- A dot in a name, with the white space around it, and the word behind it. -/
structure Joint where
  before : Blanks
  after : Blanks
  part : String
  word : IsWord part.toList

namespace Joint

def chars (joint : Joint) : List Char :=
  joint.before.chars ++ '.' :: (joint.after.chars ++ joint.part.toList)

/-- The dot and the word without white space. -/
def tight (joint : Joint) : List Char := '.' :: joint.part.toList

/-- There is white space at the dot. -/
def isOpen (joint : Joint) : Bool := !(joint.before.chars ++ joint.after.chars).isEmpty

end Joint

/-- A dotted name as it is written.  It may say that it starts at the outermost namespace. -/
structure SpacedName where
  fromOutermost : Bool
  first : String
  joints : List Joint
  word : IsWord first.toList

/-- The stretches of a name of which one stretch is begun, cut where there is white space. -/
def stretchesFrom (stretch : List Char) : List Joint → List (List Char)
  | [] => [stretch]
  | joint :: joints =>
      if joint.isOpen then stretch :: stretchesFrom joint.part.toList joints
      else stretchesFrom (stretch ++ joint.tight) joints

namespace SpacedName

def mark (name : SpacedName) : List Char :=
  if name.fromOutermost then Directive.globalMark.toList else []

def chars (name : SpacedName) : List Char :=
  name.mark ++ (name.first.toList ++ name.joints.flatMap Joint.chars)

/-- The name without white space and without the mark for the outermost namespace. -/
def full (name : SpacedName) : List Char := name.first.toList ++ name.joints.flatMap Joint.tight

/-- The name as it is written without white space. -/
def tight (name : SpacedName) : List Char := name.mark ++ name.full

def stretches (name : SpacedName) : List (List Char) :=
  stretchesFrom name.first.toList name.joints

end SpacedName

/-! ### What a name is made of -/

theorem Joint.chars_of_closed {joint : Joint} (closed : joint.isOpen = false) :
    joint.chars = joint.tight := by
  have none : joint.before.chars ++ joint.after.chars = [] := by simpa [isOpen] using closed
  obtain ⟨noBefore, noAfter⟩ := List.append_eq_nil_iff.mp none
  rw [chars, noBefore, noAfter, List.nil_append, List.nil_append, tight]

theorem Joint.isName_append {stretch : List Char} (begun : IsName stretch) (joint : Joint) :
    IsName (stretch ++ joint.tight) :=
  begun.append_dot (Declaration.isName_of_word joint.word)

theorem isName_append_joints {stretch : List Char} (begun : IsName stretch) (joints : List Joint) :
    IsName (stretch ++ joints.flatMap Joint.tight) := by
  induction joints generalizing stretch with
  | nil => rwa [List.flatMap_nil, List.append_nil]
  | cons joint joints inductionHypothesis =>
      rw [List.flatMap_cons, ← List.append_assoc]
      exact inductionHypothesis (joint.isName_append begun)

theorem isName_of_mem_stretchesFrom {stretch : List Char} (begun : IsName stretch)
    (joints : List Joint) : ∀ whole ∈ stretchesFrom stretch joints, IsName whole := by
  induction joints generalizing stretch with
  | nil => exact List.forall_mem_singleton.mpr begun
  | cons joint joints inductionHypothesis =>
      rw [stretchesFrom]
      split
      · exact List.forall_mem_cons.mpr
          ⟨begun, inductionHypothesis (Declaration.isName_of_word joint.word)⟩
      · exact inductionHypothesis (joint.isName_append begun)

/-- A name is its first stretch, or goes on behind it with a dot. -/
theorem exists_first_stretch (stretch : List Char) (joints : List Joint) :
    ∃ first others, stretchesFrom stretch joints = first :: others ∧
      ((∀ joint ∈ joints, joint.isOpen = false) ∧ others = [] ∧
          stretch ++ joints.flatMap Joint.tight = first ∨
        (¬ ∀ joint ∈ joints, joint.isOpen = false) ∧
          ∃ rest, stretch ++ joints.flatMap Joint.tight = first ++ '.' :: rest) := by
  induction joints generalizing stretch with
  | nil => exact ⟨stretch, [], rfl, .inl ⟨List.forall_mem_nil _, rfl, List.append_nil stretch⟩⟩
  | cons joint joints inductionHypothesis =>
      rw [stretchesFrom, List.forall_mem_cons]
      by_cases isOpen : joint.isOpen = true
      · refine ⟨stretch, stretchesFrom joint.part.toList joints, if_pos isOpen, .inr ⟨?_, _, rfl⟩⟩
        simp [isOpen]
      · have closed : joint.isOpen = false := Bool.eq_false_iff.mpr isOpen
        obtain ⟨first, others, cut, whole⟩ := inductionHypothesis (stretch ++ joint.tight)
        refine ⟨first, others, (if_neg isOpen).trans cut, ?_⟩
        rwa [and_iff_right closed, List.flatMap_cons, ← List.append_assoc]

namespace SpacedName

variable (name : SpacedName)

theorem isName_first : IsName name.first.toList := Declaration.isName_of_word name.word

theorem isName_full : IsName name.full := isName_append_joints name.isName_first name.joints

theorem isName_of_mem_stretches : ∀ stretch ∈ name.stretches, IsName stretch :=
  isName_of_mem_stretchesFrom name.isName_first name.joints

/-- A character of a name belongs to a word, or is a dot or white space. -/
theorem of_mem_chars {c : Char}
    (membership : c ∈ name.first.toList ++ name.joints.flatMap Joint.chars) :
    (∃ word : List Char, IsWord word ∧ c ∈ word) ∨ c = '.' ∨ Text.isBlank c := by
  rcases List.mem_append.mp membership with inFirst | inJoints
  · exact .inl ⟨name.first.toList, name.word, inFirst⟩
  · obtain ⟨joint, _, inJoint⟩ := List.mem_flatMap.mp inJoints
    rw [Joint.chars] at inJoint
    simp only [List.mem_append, List.mem_cons] at inJoint
    rcases inJoint with before | dot | after | inPart
    · exact .inr (.inr (joint.before.blank c before))
    · exact .inr (.inl dot)
    · exact .inr (.inr (joint.after.blank c after))
    · exact .inl ⟨joint.part.toList, joint.word, inPart⟩

end SpacedName

/-! ### Reading -/

/-- White space at a dot ends the name before it. -/
theorem Joint.namesIn_append {joint : Joint} (isOpen : joint.isOpen = true) {stretch : List Char}
    (begun : IsName stretch) (back : List Char) :
    namesIn (String.ofList (stretch ++ (joint.chars ++ back))) =
      readName stretch ++ namesIn (String.ofList (joint.part.toList ++ back)) := by
  have behind : namesIn (String.ofList (joint.after.chars ++ (joint.part.toList ++ back))) =
      namesIn (String.ofList (joint.part.toList ++ back)) :=
    Resolution.namesIn_gap_append joint.after.separates _
  rw [chars, List.append_assoc, List.cons_append, List.append_assoc]
  cases gap : joint.before.chars with
  | cons c gap' =>
      obtain ⟨cuts, cut⟩ := List.forall_mem_cons.mp (gap ▸ joint.before.separates)
      rw [List.cons_append, Resolution.namesIn_append_cons cuts, Resolution.namesIn_gap_append cut,
        Resolution.namesIn_dot_append, behind, Resolution.namesIn_of_isName begun]
  | nil =>
      have written : joint.after.chars ≠ [] := by
        intro none
        rw [Joint.isOpen, gap, none] at isOpen
        cases isOpen
      obtain ⟨c, gap', isGap⟩ := List.exists_cons_of_ne_nil written
      obtain ⟨cuts, cut⟩ := List.forall_mem_cons.mp (isGap ▸ joint.after.separates)
      rw [List.nil_append, isGap, List.append_cons, List.cons_append,
        Resolution.namesIn_append_cons cuts, Resolution.namesIn_gap_append cut,
        Resolution.namesIn_of_dotted begun]

theorem namesIn_joints {stretch : List Char} (begun : IsName stretch) (joints : List Joint)
    {back : List Char} (apart : ∀ c ∈ back.head?, separates c) :
    namesIn (String.ofList (stretch ++ (joints.flatMap Joint.chars ++ back))) =
      (stretchesFrom stretch joints).flatMap readName ++ namesIn (String.ofList back) := by
  induction joints generalizing stretch with
  | nil =>
      have alone := Resolution.namesIn_append (List.forall_mem_nil _) apart stretch
      rw [List.flatMap_nil, stretchesFrom, List.flatMap_singleton,
        ← Resolution.namesIn_of_isName begun]
      exact alone
  | cons joint joints inductionHypothesis =>
      rw [List.flatMap_cons, List.append_assoc, stretchesFrom]
      by_cases isOpen : joint.isOpen = true
      · rw [if_pos isOpen, joint.namesIn_append isOpen begun,
          inductionHypothesis (Declaration.isName_of_word joint.word), List.flatMap_cons,
          List.append_assoc]
      · rw [if_neg isOpen, Joint.chars_of_closed (Bool.eq_false_iff.mpr isOpen), ← List.append_assoc,
          inductionHypothesis (joint.isName_append begun)]

namespace SpacedName

variable (name : SpacedName) {back : List Char} (apart : ∀ c ∈ back.head?, separates c)

theorem namesIn_mark_append (text : List Char) :
    namesIn (String.ofList (name.mark ++ text)) = namesIn (String.ofList text) := by
  rw [mark]
  split
  · exact Resolution.namesIn_globalMark_append text
  · rw [List.nil_append]

include apart

/-- A name is read stretch by stretch. -/
theorem namesIn_chars_append : namesIn (String.ofList (name.chars ++ back)) =
    name.stretches.flatMap readName ++ namesIn (String.ofList back) := by
  rw [chars, List.append_assoc, namesIn_mark_append, List.append_assoc,
    namesIn_joints name.isName_first name.joints apart, stretches]

/-- Without white space a name is read as one. -/
theorem namesIn_tight_append : namesIn (String.ofList (name.tight ++ back)) =
    readName name.full ++ namesIn (String.ofList back) := by
  have alone := Resolution.namesIn_append (List.forall_mem_nil _) apart name.full
  rw [tight, List.append_assoc, namesIn_mark_append, ← Resolution.namesIn_of_isName name.isName_full]
  exact alone

end SpacedName

end SolutionSurvey

import SolutionSurvey.Proofs.Dependency.Rewording
import SolutionSurvey.Proofs.Node.Address

/-!
# Comments, literals and dependencies

A comment among base types or type arguments counts as a text that mentions types, and so does the
text of a call's receiver with the literals in it.  So comments and literals may add dependencies,
and a comment within a dotted name may hide one.  The theorems say when they do not.
-/

namespace SolutionSurvey

open Node (Leeway Reworded SameForm written sign)

/-- Comments may be reworded or left out. -/
def Node.Leeway.comments : Leeway where
  reworded := ["comment"]
  omitsComments := true

/-- The contents of string and character literals may be reworded. -/
def Node.Leeway.literals : Leeway where
  reworded :=
    ["string_literal_content", "escape_sequence", "character_literal_content",
      "verbatim_string_literal", "raw_string_content", "string_content",
      "interpolation_format_clause"]
  omitsComments := false

variable {leeway : Leeway} {keeps : Node → Node → Prop}

/-! ### Trees written out -/

theorem Node.SameForm.refl (description : Description) : SameForm description description :=
  ⟨rfl, rfl, rfl, rfl, rfl⟩

theorem Steady.refl (node : Node) : Steady node node := ⟨fun _ => rfl, fun _ => rfl⟩

theorem Unheard.refl (node : Node) : Unheard node node := ⟨.refl node, rfl⟩

@[simp]
theorem Node.text_written (kind : String) (fields : List String) (line lastLine : Nat)
    (text : String) (children : List Node) :
    (written kind fields line lastLine text children).text = text := rfl

theorem steady_written {kind : String} (noImport : kind ≠ "using_directive")
    (nameless : Declaration.bearsName (written kind [] 1 1 "" []) = false) (fields : List String)
    (text textToo : String) (children others : List Node) :
    Steady (written kind fields 1 1 text children) (written kind fields 1 1 textToo others) where
  imports isImport := absurd isImport noImport
  name bears := Bool.noConfusion (nameless.symm.trans bears)

/-- A leaf stays as it is. -/
theorem Node.Reworded.leaf (gap : String) {description : Description} {rest further : List Node}
    {text textToo whole wholeToo : String}
    (kept : keeps (node description []) (node description []))
    (after : Reworded leeway keeps rest text further textToo)
    (split : whole = gap ++ description.text ++ text)
    (splitToo : wholeToo = gap ++ description.text ++ textToo) :
    Reworded leeway keeps (node description [] :: rest) whole (node description [] :: further)
      wholeToo :=
  .kept gap (.refl description) (.nothing description.text) (.inr ⟨rfl, rfl⟩) kept after split
    splitToo

/-- A node stays with what becomes of its children. -/
theorem Node.Reworded.inner (gap : String) {one other : Node} {rest further : List Node}
    {text textToo whole wholeToo : String} (form : SameForm one.description other.description)
    (within : Reworded leeway keeps one.children one.text other.children other.text)
    (kept : keeps one other) (after : Reworded leeway keeps rest text further textToo)
    (split : whole = gap ++ one.text ++ text) (splitToo : wholeToo = gap ++ other.text ++ textToo) :
    Reworded leeway keeps (one :: rest) whole (other :: further) wholeToo := by
  obtain ⟨description, children⟩ := one
  obtain ⟨descriptionToo, others⟩ := other
  exact .kept gap form within (.inr ⟨rfl, rfl⟩) kept after split splitToo

/-- A node without a name of its own takes in whatever becomes of its children. -/
theorem reworded_written {kind : String} {fields : List String} {text textToo after afterToo whole
    wholeToo : String} {children others rest further : List Node}
    (noImport : kind ≠ "using_directive")
    (nameless : Declaration.bearsName (written kind [] 1 1 "" []) = false)
    (within : Reworded leeway Steady children text others textToo)
    (behind : Reworded leeway Steady rest after further afterToo)
    (split : whole = text ++ after) (splitToo : wholeToo = textToo ++ afterToo) :
    Reworded leeway Steady (written kind fields 1 1 text children :: rest) whole
      (written kind fields 1 1 textToo others :: further) wholeToo :=
  .inner "" ⟨rfl, rfl, rfl, rfl, rfl⟩ within
    (steady_written noImport nameless fields text textToo children others) behind
    (by rw [String.empty_append, split, Node.text_written])
    (by rw [String.empty_append, splitToo, Node.text_written])

namespace Dependency

/-- A class of which nothing but its name is written. -/
def lone : Node :=
  written "class_declaration" [] 1 1 "class B;"
    [sign 1 "class", written "identifier" ["name"] 1 1 "B" [], sign 1 ";"]

/-- A file with a class and the class `B`. -/
def withLone (first : Node) : SourceFile where
  project := "App"
  path := ⟨"A.cs"⟩
  text := first.text ++ "class B;"
  tree := written "compilation_unit" [] 1 1 (first.text ++ "class B;") [first, lone]

theorem edited_withLone {one other : Node} (same : ∀ node, keeps node node)
    (form : SameForm one.description other.description)
    (within : Reworded leeway keeps one.children one.text other.children other.text)
    (kept : keeps one other) (keptToo : keeps (withLone one).tree (withLone other).tree) :
    Edited leeway keeps (withLone one) (withLone other) := by
  have name : Reworded leeway keeps lone.children lone.text lone.children lone.text :=
    .leaf "" (same _) (.leaf " " (same _) (.leaf "" (same _) (.nothing "") rfl rfl) rfl rfl) rfl rfl
  have second : Reworded leeway keeps [lone] "class B;" [lone] "class B;" :=
    .inner "" (.refl _) name (same _) (.nothing "") rfl rfl
  have rows : Reworded leeway keeps [one, lone] (one.text ++ "class B;") [other, lone]
      (other.text ++ "class B;") :=
    .inner "" form within kept second (by rw [String.empty_append]) (by rw [String.empty_append])
  refine .inner "" ⟨rfl, rfl, rfl, rfl, rfl⟩ rows keptToo (.nothing "") ?_ ?_
  · rw [String.empty_append, String.append_empty]
    rfl
  · rw [String.empty_append, String.append_empty]
    rfl

def remark : Node := written "comment" [] 1 1 "/* B */" []

def bases (text : String) (remarks : List Node) : Node :=
  written "base_list" [] 1 1 text
    (sign 1 ":" :: (remarks ++ [written "identifier" [] 1 1 "C" []]))

/-- A class that is derived from an unknown one, with comments before the base types. -/
def derivedFrom (text : String) (remarks : List Node) (bases : Node) : SourceFile :=
  withLone (written "class_declaration" [] 1 1 text
    (sign 1 "class" :: written "identifier" ["name"] 1 1 "A" [] ::
      (remarks ++ [bases, sign 1 ";"])))

/-- The text `class A:/* B */C;class B;`. -/
def remarked : SourceFile := derivedFrom "class A:/* B */C;" [] (bases ":/* B */C" [remark])

/-- The text `class A/* B */:C;class B;`. -/
def aside : SourceFile := derivedFrom "class A/* B */:C;" [remark] (bases ":C" [])

/-- The text `class A:C;class B;`. -/
def plain : SourceFile := derivedFrom "class A:C;" [] (bases ":C" [])

theorem remarked_edited : Edited .comments Steady remarked plain := by
  unfold remarked plain derivedFrom
  refine edited_withLone .refl ⟨rfl, rfl, rfl, rfl, rfl⟩ ?_ ⟨by decide, fun _ => rfl⟩
    ⟨by decide, by decide⟩
  have base : Reworded .comments Steady (bases ":/* B */C" [remark]).children ":/* B */C"
      (bases ":C" []).children ":C" :=
    .leaf "" (.refl _)
      (.omitted "" rfl rfl rfl (.leaf "" (.refl _) (.nothing "") rfl rfl) rfl rfl) rfl rfl
  have list : Reworded .comments Steady [bases ":/* B */C" [remark], sign 1 ";"] ":/* B */C;"
      [bases ":C" [], sign 1 ";"] ":C;" :=
    .inner "" ⟨rfl, rfl, rfl, rfl, rfl⟩ base ⟨by decide, by decide⟩
      (.leaf "" (.refl _) (.nothing "") rfl rfl) rfl rfl
  exact .leaf "" (.refl _) (.leaf " " (.refl _) list rfl rfl) rfl rfl

theorem aside_edited : Edited .comments Unheard aside plain := by
  unfold aside plain derivedFrom
  refine edited_withLone .refl ⟨rfl, rfl, rfl, rfl, rfl⟩ ?_ ⟨⟨by decide, fun _ => rfl⟩, rfl⟩
    ⟨⟨by decide, by decide⟩, rfl⟩
  have base : Reworded .comments Unheard (bases ":C" []).children ":C" (bases ":C" []).children
      ":C" :=
    .leaf "" (.refl _) (.leaf "" (.refl _) (.nothing "") rfl rfl) rfl rfl
  have list : Reworded .comments Unheard [bases ":C" [], sign 1 ";"] ":C;"
      [bases ":C" [], sign 1 ";"] ":C;" :=
    .inner "" (.refl _) base (.refl _) (.leaf "" (.refl _) (.nothing "") rfl rfl) rfl rfl
  exact .leaf "" (.refl _) (.leaf " " (.refl _) (.omitted "" rfl rfl rfl list rfl rfl) rfl rfl)
    rfl rfl

/-- When comments are reworded or left out, the same pairs are found just if the candidates that
come and go lead to none of their own.  Comments that are no candidates and stand in none make no
difference. -/
theorem samePairs_iff_of_comments {files others : List SourceFile}
    (edited : List.Forall₂ (Edited .comments Steady) files others) :
    (SamePairs files others ↔ LosesNothing files others ∧ LosesNothing others files) ∧
      (List.Forall₂ (Edited .comments Unheard) files others → SamePairs files others) := by
  constructor
  · exact samePairs_iff_of_steady edited
  · exact samePairs_of_unheard

/-- The comment stands before the base types. -/
theorem aside_samePairs :
    List.Forall₂ (Edited .comments Steady) [aside] [plain] ∧ SamePairs [aside] [plain] ∧
      LosesNothing [aside] [plain] ∧ LosesNothing [plain] [aside] := by
  have unheard : List.Forall₂ (Edited .comments Unheard) [aside] [plain] := .cons aside_edited .nil
  have steady : List.Forall₂ (Edited .comments Steady) [aside] [plain] :=
    unheard.imp fun _ _ => .mono fun _ _ => Unheard.toSteady
  have same := (samePairs_iff_of_comments steady).2 unheard
  exact ⟨steady, same, (samePairs_iff_of_comments steady).1.mp same⟩

/-- A comment among the base types counts as one of them. -/
theorem remarked_not_samePairs :
    List.Forall₂ (Edited .comments Steady) [remarked] [plain] ∧ ¬ SamePairs [remarked] [plain] := by
  refine ⟨.cons remarked_edited .nil, fun same => ?_⟩
  have found : ("A", "B") ∈ pairs [plain] := (same _).mp (by decide +kernel)
  exact absurd found (by decide +kernel)

/-! ### A literal that is called on -/

def content (text : String) : Node := written "string_literal_content" [] 1 1 text []

def quoted (text : String) : Node :=
  written "string_literal" ["expression"] 1 1 ("\"" ++ text ++ "\"")
    [sign 1 "\"", content text, sign 1 "\""]

def trimmed (text : String) : Node :=
  written "member_access_expression" ["function"] 1 1 ((quoted text).text ++ "." ++ "Trim")
    [quoted text, sign 1 ".", written "identifier" ["name"] 1 1 "Trim" []]

def call (text : String) : Node :=
  written "invocation_expression" [] 1 1 ((trimmed text).text ++ "()")
    [trimmed text, written "argument_list" ["arguments"] 1 1 "()" [sign 1 "(", sign 1 ")"]]

def parameter (text : String) : Node :=
  written "parameter" [] 1 1 ("int x=" ++ (call text).text)
    [written "predefined_type" ["type"] 1 1 "int" [], written "identifier" ["name"] 1 1 "x" [],
      sign 1 "=", call text]

def parameters (text : String) : Node :=
  written "parameter_list" [] 1 1 ("(" ++ (parameter text).text ++ ")")
    [sign 1 "(", parameter text, sign 1 ")"]

/-- A class with a parameter that is set to the result of a call on a literal. -/
def calling (text : String) : SourceFile :=
  withLone (written "class_declaration" [] 1 1 ("class A" ++ (parameters text).text ++ ";")
    [sign 1 "class", written "identifier" ["name"] 1 1 "A" [], parameters text, sign 1 ";"])

theorem calling_edited (one other : String) :
    Edited .literals Steady (calling one) (calling other) := by
  have contents : Reworded .literals Steady [content one, sign 1 "\""] (one ++ "\"")
      [content other, sign 1 "\""] (other ++ "\"") := by
    refine .kept "" ⟨rfl, rfl, rfl, rfl, rfl⟩ (.nothing "") (.inl ?_)
      (steady_written (by decide) (by decide) _ _ _ _ _) (.leaf "" (.refl _) (.nothing "") rfl rfl)
      ?_ ?_
    · exact (by decide : "string_literal_content" ∈ Node.Leeway.literals.reworded)
    · simp
    · simp
  have literal : Reworded .literals Steady (quoted one).children (quoted one).text
      (quoted other).children (quoted other).text := by
    refine .leaf "" (.refl _) contents ?_ ?_
    · simp [quoted, String.append_assoc]
    · simp [quoted, String.append_assoc]
  have receiver : Reworded .literals Steady (trimmed one).children (trimmed one).text
      (trimmed other).children (trimmed other).text := by
    refine reworded_written (by decide) (by decide) literal
      (.leaf "" (.refl _) (.leaf "" (.refl _) (.nothing "") rfl rfl) rfl rfl) ?_ ?_
    · simp [trimmed, quoted, String.append_assoc]
    · simp [trimmed, quoted, String.append_assoc]
  have noArguments : Reworded .literals Steady
      [written "argument_list" ["arguments"] 1 1 "()" [sign 1 "(", sign 1 ")"]] "()"
      [written "argument_list" ["arguments"] 1 1 "()" [sign 1 "(", sign 1 ")"]] "()" := by
    refine reworded_written (by decide) (by decide) ?_ (.nothing "") rfl rfl
    exact .leaf "" (.refl _) (.leaf "" (.refl _) (.nothing "") rfl rfl) rfl rfl
  have initial : Reworded .literals Steady (call one).children (call one).text
      (call other).children (call other).text :=
    reworded_written (by decide) (by decide) receiver noArguments rfl rfl
  have named : Reworded .literals Steady (parameter one).children (parameter one).text
      (parameter other).children (parameter other).text := by
    have value : Reworded .literals Steady [call one] (call one).text [call other]
        (call other).text :=
      reworded_written (by decide) (by decide) initial (.nothing "")
        (by simp [call]) (by simp [call])
    refine .leaf "" (.refl _) (.leaf " " (.refl _) (.leaf "" (.refl _) value rfl rfl) rfl rfl) ?_ ?_
    · simp [parameter, ← String.append_assoc]
    · simp [parameter, ← String.append_assoc]
  have listed : Reworded .literals Steady (parameters one).children (parameters one).text
      (parameters other).children (parameters other).text := by
    have value : Reworded .literals Steady [parameter one, sign 1 ")"]
        ((parameter one).text ++ ")") [parameter other, sign 1 ")"]
        ((parameter other).text ++ ")") :=
      reworded_written (by decide) (by decide) named (.leaf "" (.refl _) (.nothing "") rfl rfl)
        rfl rfl
    refine .leaf "" (.refl _) value ?_ ?_
    · simp [parameters, String.append_assoc]
    · simp [parameters, String.append_assoc]
  unfold calling
  refine edited_withLone .refl ⟨rfl, rfl, rfl, rfl, rfl⟩ ?_ ⟨?_, fun _ => rfl⟩
    (steady_written (by decide) (by decide) _ _ _ _ _)
  · have ending : Reworded .literals Steady [parameters one, sign 1 ";"]
        ((parameters one).text ++ ";") [parameters other, sign 1 ";"]
        ((parameters other).text ++ ";") :=
      reworded_written (by decide) (by decide) listed (.leaf "" (.refl _) (.nothing "") rfl rfl)
        rfl rfl
    refine .leaf "" (.refl _) (.leaf " " (.refl _) ending rfl rfl) ?_ ?_
    · simp [← String.append_assoc]
    · simp [← String.append_assoc]
  · intro isImport
    exact absurd isImport (by decide : "class_declaration" ≠ "using_directive")

/-- When literals are reworded, the same pairs are found just if the candidates that come and go
lead to none of their own.  Literals that no text mentioning types holds make no difference. -/
theorem samePairs_iff_of_literals {files others : List SourceFile}
    (edited : List.Forall₂ (Edited .literals Steady) files others) :
    (SamePairs files others ↔ LosesNothing files others ∧ LosesNothing others files) ∧
      (List.Forall₂ (Edited .literals Unheard) files others → SamePairs files others) := by
  constructor
  · exact samePairs_iff_of_steady edited
  · exact samePairs_of_unheard

/-- The receiver reads otherwise, but mentions the same type. -/
theorem calling_losesNothing :
    List.Forall₂ (Edited .literals Steady) [calling "x B y"] [calling "y B x"] ∧
      LosesNothing [calling "x B y"] [calling "y B x"] ∧
      LosesNothing [calling "y B x"] [calling "x B y"] := by
  have edited : List.Forall₂ (Edited .literals Steady) [calling "x B y"] [calling "y B x"] :=
    .cons (calling_edited _ _) .nil
  have same : pairs [calling "x B y"] = pairs [calling "y B x"] := by decide +kernel
  exact ⟨edited, (samePairs_iff_of_literals edited).1.mp fun _ => by rw [same]⟩

/-- A word of a literal counts as a reference. -/
theorem calling_not_samePairs :
    List.Forall₂ (Edited .literals Steady) [calling "x B y"] [calling "x y"] ∧
      ¬ SamePairs [calling "x B y"] [calling "x y"] := by
  refine ⟨.cons (calling_edited _ _) .nil, fun same => ?_⟩
  have found : ("A", "B") ∈ pairs [calling "x y"] := (same _).mp (by decide +kernel)
  exact absurd found (by decide +kernel)

end Dependency

end SolutionSurvey

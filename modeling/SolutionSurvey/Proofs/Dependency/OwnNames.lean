import SolutionSurvey.Proofs.CSharp.Words
import SolutionSurvey.Proofs.Collection.Table
import SolutionSurvey.Proofs.Dependency.Analysis
import SolutionSurvey.Proofs.Dependency.Names
import SolutionSurvey.Proofs.Text.Pieces

/-!
# Types under their own names

A declaration puts its identifier into the catalog as it is written, but a reference is cut and
stripped before it is looked up.  A type is found by its own identifier just if this leaves the
identifier as it is.  Of the words of the language, these are the ones that begin with a letter or an
underscore.
-/

namespace SolutionSurvey

namespace Resolution

/-! ### What a name stands for where nothing is imported -/

section Empty

variable {own : Option String} {name : String}

theorem meanings_empty_of_dotted (dotted : '.' ∈ name.toList) :
    meanings .empty own name = [name] := by
  cases parts : Text.splitAtFirst? '.' name with
  | none => exact absurd dotted (Text.splitAtFirst?_eq_none_iff.mp parts)
  | some parts' => simp [meanings, parts, Imports.empty]

theorem meanings_empty_of_simple (simple : '.' ∉ name.toList) :
    meanings .empty own name = own.toList.map (fun outer => outer ++ "." ++ name) ++ [name] := by
  have parts := Text.splitAtFirst?_eq_none_iff.mpr simple
  simp [meanings, parts, Imports.empty]

end Empty

/-- A qualified name is a meaning only of the identifier that it ends with. -/
theorem eq_of_qualify_mem_meanings {own : Option String} {identifier name : String}
    (meant : Declaration.qualify own identifier ∈ meanings .empty own name)
    (within : name.toList.Sublist identifier.toList) :
    name = identifier ∧ (own = none ∨ '.' ∉ identifier.toList) := by
  cases own with
  | none =>
      refine ⟨?_, .inl rfl⟩
      by_cases dotted : '.' ∈ name.toList
      · rw [meanings_empty_of_dotted dotted] at meant
        exact (List.mem_singleton.mp meant).symm
      · rw [meanings_empty_of_simple dotted] at meant
        exact (List.mem_singleton.mp meant).symm
  | some outer =>
      have longer : Declaration.qualify (some outer) identifier ≠ name := by
        intro same
        have short := within.length_le
        rw [← same, Declaration.qualify, String.toList_append, String.toList_append,
          List.length_append, List.length_append] at short
        have dot : ".".toList.length = 1 := rfl
        omega
      by_cases dotted : '.' ∈ name.toList
      · rw [meanings_empty_of_dotted dotted] at meant
        exact absurd (List.mem_singleton.mp meant) longer
      · rw [meanings_empty_of_simple dotted] at meant
        rcases List.mem_append.mp meant with inOwn | alone
        · have same : outer ++ "." ++ identifier = outer ++ "." ++ name := List.mem_singleton.mp inOwn
          obtain rfl : identifier = name := by simpa using same
          exact ⟨rfl, .inr dotted⟩
        · exact absurd (List.mem_singleton.mp alone) longer

end Resolution

namespace Declaration

open Resolution (namesIn)

/-- Read from its own namespace, the identifier of a declaration leads to what it declares and to
nothing else. -/
def FindsItself (files : List SourceFile) (declaration : Declaration) : Prop :=
  Resolution.resolveAll (Catalog.ofFiles files) .empty declaration.namespaceName
    declaration.identifier = [declaration.qualifiedName]

/-- The identifier of a declaration is read as the one name that it is. -/
def ReadsPlainly (declaration : Declaration) : Prop :=
  namesIn declaration.identifier = [declaration.identifier] ∧
    (declaration.namespaceName = none ∨ '.' ∉ declaration.identifier.toList)

/-- An identifier begins with an at sign, an escape, or a symbol that is no letter. -/
def beginsOddly (identifier : String) : Bool :=
  identifier.toList.head?.any fun first =>
    first == '@' || first == '\\' || Text.isLetterlikeSymbol first

section Declared

variable {files : List SourceFile} {declaration : Declaration}
  (declared : declaration ∈ files.flatMap inFile)
include declared

theorem qualifiedName_eq_qualify :
    declaration.qualifiedName = qualify declaration.namespaceName declaration.identifier := by
  obtain ⟨file, _, inFile⟩ := List.mem_flatMap.mp declared
  obtain ⟨_, place, _, _, made⟩ := mem_inFile.mp inFile
  exact (ofPlace?_eq_some made).2.2

theorem contains_qualifiedName : (Catalog.ofFiles files).contains declaration.qualifiedName :=
  Catalog.contains_ofNames.mpr (List.mem_map_of_mem declared)

theorem resolve?_identifier
    (simple : declaration.namespaceName = none ∨ '.' ∉ declaration.identifier.toList) :
    Resolution.resolve? (Catalog.ofFiles files) .empty declaration.namespaceName
      declaration.identifier = some declaration.qualifiedName := by
  have known := contains_qualifiedName declared
  have named := qualifiedName_eq_qualify declared
  have first : (Resolution.meanings .empty declaration.namespaceName declaration.identifier).head? =
      some declaration.qualifiedName := by
    rw [named]
    by_cases dotted : '.' ∈ declaration.identifier.toList
    · have global := simple.resolve_right (not_not_intro dotted)
      rw [Resolution.meanings_empty_of_dotted dotted, global]
      rfl
    · rw [Resolution.meanings_empty_of_simple dotted]
      cases declaration.namespaceName with
      | none => rfl
      | some outer => rfl
  obtain ⟨others, meanings⟩ := List.head?_eq_some_iff.mp first
  rw [Resolution.resolve?, meanings, List.find?_cons_of_pos known]

theorem findsItself_iff_readsPlainly : FindsItself files declaration ↔ ReadsPlainly declaration := by
  constructor
  · intro found
    have resolved : declaration.qualifiedName ∈ Resolution.resolveAll (Catalog.ofFiles files) .empty
        declaration.namespaceName declaration.identifier := by
      rw [found]
      exact List.mem_singleton_self _
    obtain ⟨name, isName, leads⟩ := Resolution.mem_resolveAll.mp resolved
    have meant := List.mem_of_find?_eq_some leads
    rw [qualifiedName_eq_qualify declared] at meant
    obtain ⟨rfl, simple⟩ := Resolution.eq_of_qualify_mem_meanings meant
      (Resolution.sublist_of_mem_namesIn isName)
    exact ⟨Resolution.namesIn_eq_of_mem isName, simple⟩
  · intro ⟨plain, simple⟩
    rw [FindsItself, Resolution.resolveAll, plain,
      List.filterMap_cons_some (resolve?_identifier declared simple), List.filterMap_nil]

end Declared

/-! ### Words of the language -/

open CSharp.Lexeme (IsWord continuesWord)

/-- No character of a word separates names, or says that a name is qualified. -/
theorem plain_of_continuesWord {c : Char} (continues : continuesWord c) :
    Resolution.separates c = false ∧ c ≠ '.' ∧ c ≠ ':' ∧ c ≠ '@' := by
  have signs : ['<', '>', ',', '(', ')', '[', ']', '?', '*', '.', ':', '@'].all
      (fun sign => !continuesWord sign) := by decide
  have noSign : ∀ sign ∈ ['<', '>', ',', '(', ')', '[', ']', '?', '*', '.', ':', '@'], c ≠ sign := by
    intro sign isSign same
    subst same
    have noWord := List.all_eq_true.mp signs c isSign
    rw [continues] at noWord
    cases noWord
  have noBlank : Text.isBlank c = false := by
    by_contra blank
    rw [Bool.not_eq_false] at blank
    have noIdentifier := Text.isIdentifierContinuation_of_isBlank blank
    rw [continuesWord, noIdentifier, Bool.false_or, beq_iff_eq] at continues
    subst continues
    exact absurd blank (by decide)
  have uncut : Resolution.separates c = false := by
    rw [Resolution.separates, noBlank, Bool.or_false]
    by_contra sign
    rw [Bool.not_eq_false, List.contains_iff_mem] at sign
    exact noSign c (List.mem_append_left ['.', ':', '@'] sign) rfl
  exact ⟨uncut, noSign '.' (by decide), noSign ':' (by decide), noSign '@' (by decide)⟩

theorem plain_of_word {text : List Char} (whole : IsWord text) :
    ∀ c ∈ text, Resolution.separates c = false ∧ c ≠ '.' ∧ c ≠ ':' := by
  obtain ⟨first, rest, rfl, begins, continues⟩ := whole.exists_cons
  refine List.forall_mem_cons.mpr ⟨?_, fun c later => ?_⟩
  · rcases begins with letter | rfl | rfl | rfl
    · have continued : continuesWord first := by
        simp [continuesWord, Text.isIdentifierContinuation_of_start letter]
      obtain ⟨uncut, noDot, noColon, _⟩ := plain_of_continuesWord continued
      exact ⟨uncut, noDot, noColon⟩
    all_goals decide
  · obtain ⟨uncut, noDot, noColon, _⟩ := plain_of_continuesWord (continues c later)
    exact ⟨uncut, noDot, noColon⟩

theorem isName_of_word {text : List Char} (whole : IsWord text) : Resolution.IsName text where
  written := by
    obtain ⟨first, rest, rfl, _⟩ := whole.exists_cons
    exact List.cons_ne_nil first rest
  uncut c membership := (plain_of_word whole c membership).1
  unmarked colon := (plain_of_word whole ':' colon).2.2 rfl
  first c isFirst := (plain_of_word whole c (List.mem_of_mem_head? isFirst)).2.1
  last c isLast := (plain_of_word whole c (List.mem_of_getLast? isLast)).2.1

/-- A word is one name, without at signs before it, or none. -/
theorem namesIn_of_word {identifier : String} (whole : IsWord identifier.toList) :
    namesIn identifier =
      if Resolution.startsName identifier.toList then
        [String.ofList (identifier.toList.dropWhile (· == '@'))]
      else [] := by
  have read := Resolution.namesIn_of_isName (isName_of_word whole)
  rwa [String.ofList_toList] at read

/-- What is left of a word is the word, unless it begins with an at sign. -/
theorem namesIn_word_eq_iff {identifier : String} {first : Char} {rest : List Char}
    (whole : IsWord identifier.toList) (written : identifier.toList = first :: rest) :
    namesIn identifier = [identifier] ↔
      Resolution.startsName identifier.toList = true ∧ first ≠ '@' := by
  have kept : String.ofList (identifier.toList.dropWhile (· == '@')) = identifier ↔ first ≠ '@' := by
    rw [← String.toList_inj, String.toList_ofList, List.dropWhile_eq_self_iff]
    simp [written]
  rw [namesIn_of_word whole]
  split
  case isTrue starts => simp [starts, kept]
  case isFalse starts => simp [starts]

/-- Only an at sign, an escape or a symbol keeps a text from being read as it is. -/
theorem startsPlainly_iff {first : Char} (rest : List Char)
    (begins : Text.isIdentifierStart first ∨ first = '_' ∨ first = '\\' ∨ first = '@') :
    Resolution.startsName (first :: rest) = true ∧ first ≠ '@' ↔
      beginsOddly (String.ofList (first :: rest)) = false := by
  rw [beginsOddly, String.toList_ofList, List.head?_cons, Option.any_some, Resolution.startsName]
  rcases begins with letter | rfl | rfl | rfl
  · have continued : continuesWord first := by
      simp [continuesWord, Text.isIdentifierContinuation_of_start letter]
    have noSign := (plain_of_continuesWord continued).2.2.2
    have noEscape : first ≠ '\\' := by
      intro same
      subst same
      exact absurd letter (by decide)
    have noUnderscore : first ≠ '_' := by
      intro same
      subst same
      exact absurd letter (by decide)
    simp [Text.isAlphabetic_of_start letter, noSign, noEscape, noUnderscore]
  all_goals decide

theorem readsPlainly_iff_of_word {declaration : Declaration}
    (whole : IsWord declaration.identifier.toList) :
    ReadsPlainly declaration ↔ beginsOddly declaration.identifier = false := by
  obtain ⟨first, rest, written, begins, _⟩ := whole.exists_cons
  have simple : '.' ∉ declaration.identifier.toList := fun dot =>
    (plain_of_word whole '.' dot).2.1 rfl
  have plainly := startsPlainly_iff rest begins
  rw [← written, String.ofList_toList] at plainly
  rw [ReadsPlainly, and_iff_left (.inr simple), namesIn_word_eq_iff whole written, plainly]

/-- A declared type is found under its own identifier just if the identifier is read as one simple
name.  Where the identifier is a word of the language, that is so just if it begins with a letter or
an underscore. -/
theorem findsItself_iff_of_declared {files : List SourceFile} {declaration : Declaration}
    (declared : declaration ∈ files.flatMap inFile) :
    (FindsItself files declaration ↔ ReadsPlainly declaration) ∧
      (IsWord declaration.identifier.toList →
        (FindsItself files declaration ↔ beginsOddly declaration.identifier = false)) := by
  have plainly := findsItself_iff_readsPlainly declared
  exact ⟨plainly, fun whole => plainly.trans (readsPlainly_iff_of_word whole)⟩

/-- The text `class @class;class B:@class;`. -/
def verbatim : SourceFile :=
  Dependency.fileOf "A.cs"
    [Dependency.bareClass "@class", Dependency.derivedClass "B" "@class"]

/-- The class with an ordinary identifier is found. -/
theorem verbatim_findsItself_plain :
    ⟨"B", none, "B", "A.cs", 1⟩ ∈ [verbatim].flatMap inFile ∧ IsWord "B".toList ∧
      FindsItself [verbatim] ⟨"B", none, "B", "A.cs", 1⟩ := by
  have declared : ⟨"B", none, "B", "A.cs", 1⟩ ∈ [verbatim].flatMap inFile := by decide +kernel
  have whole : IsWord "B".toList := by decide
  exact ⟨declared, whole, ((findsItself_iff_of_declared declared).2 whole).mpr (by decide)⟩

/-- The class whose identifier has an at sign is in the catalog with it and looked up without it, so
the class that is derived from it depends on nothing. -/
theorem verbatim_not_findsItself :
    ⟨"@class", none, "@class", "A.cs", 1⟩ ∈ [verbatim].flatMap inFile ∧ IsWord "@class".toList ∧
      ¬ FindsItself [verbatim] ⟨"@class", none, "@class", "A.cs", 1⟩ ∧
      Dependency.analyze [verbatim] = [] := by
  refine ⟨by decide +kernel, by decide, ?_, by decide +kernel⟩
  unfold FindsItself
  decide +kernel

end Declaration

end SolutionSurvey

import SolutionSurvey.Proofs.Collection.Parts
import SolutionSurvey.Proofs.Dependency.Aliases
import SolutionSurvey.Proofs.Dependency.Layout

/-!
# Types and the ways to write them

A type without its layout is a form.  It is spelled with names and signs, and any white space may
stand before each of them and at the end.  Whichever way a type is written, its names are read in
order, but for those that begin neither with a letter nor with an underscore.
-/

namespace SolutionSurvey

open CSharp.Lexeme (IsWord)
open Declaration (beginsOddly)
open Resolution (namesIn readName resolve? resolveAll separates startsName)

structure Identifier where
  text : String
  word : IsWord text.toList

namespace DottedName

theorem words_nil : ∀ part ∈ ([] : List String), IsWord part.toList := List.forall_mem_nil _

def ofIdentifier (identifier : Identifier) : DottedName where
  fromOutermost := false
  outer := []
  own := identifier.text
  words := words_nil
  word := identifier.word

/-- The text of a name without the mark for the outermost namespace. -/
def fullText (name : DottedName) : String := String.ofList name.full

end DottedName

def typeSigns : List Char := ['<', '>', ',', '(', ')', '[', ']', '?', '*']

/-- What a type is spelled with. -/
inductive TypeToken where
  | name (name : DottedName)
  /-- A name behind the dot that follows type arguments. -/
  | inner (name : DottedName)
  | sign (c : Char) (isSign : c ∈ typeSigns)

namespace TypeToken

def comma : TypeToken := sign ',' (by decide)

end TypeToken

def namesAmong : List TypeToken → List DottedName
  | [] => []
  | .name name :: rest => name :: namesAmong rest
  | .inner name :: rest => name :: namesAmong rest
  | .sign _ _ :: rest => namesAmong rest

/-- A text that spells some tokens.  What follows a name is kept apart from it. -/
inductive Spelled : List TypeToken → List Char → Prop where
  | nil (gap : Blanks) : Spelled [] gap.chars
  | name {tokens : List TypeToken} {text : List Char} (gap : Blanks) (name : DottedName)
      (apart : ∀ c ∈ text.head?, c ∈ typeSigns ∨ Text.isBlank c) (rest : Spelled tokens text) :
      Spelled (.name name :: tokens) (gap.chars ++ (name.chars ++ text))
  | inner {tokens : List TypeToken} {text : List Char} (gap : Blanks) (name : DottedName)
      (apart : ∀ c ∈ text.head?, c ∈ typeSigns ∨ Text.isBlank c) (rest : Spelled tokens text) :
      Spelled (.inner name :: tokens) (gap.chars ++ '.' :: (name.full ++ text))
  | sign {tokens : List TypeToken} {text : List Char} (gap : Blanks) (c : Char)
      (isSign : c ∈ typeSigns) (rest : Spelled tokens text) :
      Spelled (.sign c isSign :: tokens) (gap.chars ++ c :: text)

theorem apart_cons {c : Char} {rest : List Char} (apart : c ∈ typeSigns ∨ Text.isBlank c) :
    ∀ first ∈ (c :: rest).head?, first ∈ typeSigns ∨ Text.isBlank first := by
  rintro first ⟨rfl⟩
  exact apart

/-- A type without its layout. -/
inductive TypeForm where
  | named (name : DottedName)
  | applied (generic : TypeForm) (arguments : List TypeForm)
  /-- The type arguments are left out, but not the commas between them. -/
  | unbound (generic : TypeForm) (commas : Nat)
  /-- A type that is declared in a type with arguments. -/
  | inner (generic : TypeForm) (arguments : List TypeForm) (name : DottedName)
  | tuple (elements : List (TypeForm × Option Identifier))
  | array (element : TypeForm) (commas : Nat)
  | nullable (element : TypeForm)
  | pointer (element : TypeForm)

namespace TypeForm

mutual

def tokens : TypeForm → List TypeToken
  | named name => [.name name]
  | applied generic arguments =>
      generic.tokens ++ .sign '<' (by decide) ::
        ([.comma].intercalate (tokensOfArguments arguments) ++ [.sign '>' (by decide)])
  | unbound generic commas =>
      generic.tokens ++ .sign '<' (by decide) ::
        (List.replicate commas .comma ++ [.sign '>' (by decide)])
  | inner generic arguments name =>
      generic.tokens ++ .sign '<' (by decide) ::
        ([.comma].intercalate (tokensOfArguments arguments) ++ [.sign '>' (by decide), .inner name])
  | tuple elements =>
      .sign '(' (by decide) ::
        ([.comma].intercalate (tokensOfElements elements) ++ [.sign ')' (by decide)])
  | array element commas =>
      element.tokens ++ .sign '[' (by decide) ::
        (List.replicate commas .comma ++ [.sign ']' (by decide)])
  | nullable element => element.tokens ++ [.sign '?' (by decide)]
  | pointer element => element.tokens ++ [.sign '*' (by decide)]

def tokensOfArguments : List TypeForm → List (List TypeToken)
  | [] => []
  | argument :: others => argument.tokens :: tokensOfArguments others

def tokensOfElements : List (TypeForm × Option Identifier) → List (List TypeToken)
  | [] => []
  | (element, label) :: others =>
      (element.tokens ++ label.toList.map fun label => .name (.ofIdentifier label)) ::
        tokensOfElements others

end

mutual

/-- The names in a type, each as often as it occurs, names of tuple elements among them. -/
def names : TypeForm → List DottedName
  | named name => [name]
  | applied generic arguments => generic.names ++ namesOfArguments arguments
  | unbound generic _ => generic.names
  | inner generic arguments name => generic.names ++ namesOfArguments arguments ++ [name]
  | tuple elements => namesOfElements elements
  | array element _ => element.names
  | nullable element => element.names
  | pointer element => element.names

def namesOfArguments : List TypeForm → List DottedName
  | [] => []
  | argument :: others => argument.names ++ namesOfArguments others

def namesOfElements : List (TypeForm × Option Identifier) → List DottedName
  | [] => []
  | (element, label) :: others =>
      element.names ++ label.toList.map .ofIdentifier ++ namesOfElements others

end

def mentions (form : TypeForm) : List String := form.names.map DottedName.fullText

end TypeForm

/-! ### The names among the tokens -/

@[simp]
theorem namesAmong_append (front back : List TypeToken) :
    namesAmong (front ++ back) = namesAmong front ++ namesAmong back := by
  induction front with
  | nil => rfl
  | cons token front inductionHypothesis =>
      cases token with
      | name name => simp [namesAmong, inductionHypothesis]
      | inner name => simp [namesAmong, inductionHypothesis]
      | sign c isSign => simp [namesAmong, inductionHypothesis]

@[simp]
theorem namesAmong_commas (commas : Nat) :
    namesAmong (List.replicate commas TypeToken.comma) = [] := by
  induction commas with
  | zero => rfl
  | succ commas inductionHypothesis => exact inductionHypothesis

@[simp]
theorem namesAmong_intercalate (pieces : List (List TypeToken)) :
    namesAmong ([TypeToken.comma].intercalate pieces) = pieces.flatMap namesAmong := by
  induction pieces with
  | nil => rfl
  | cons piece others inductionHypothesis =>
      cases others with
      | nil => simp [List.intercalate]
      | cons next others =>
          have split : [TypeToken.comma].intercalate (piece :: next :: others) =
              piece ++ .comma :: [TypeToken.comma].intercalate (next :: others) := by
            simp [List.intercalate]
          have silent : ∀ rest, namesAmong (.comma :: rest) = namesAmong rest := fun _ => rfl
          rw [split, namesAmong_append, silent, inductionHypothesis]
          rfl

namespace TypeForm

mutual

/-- Every name of a type is one token, and the names come in the order of the tokens. -/
theorem namesAmong_tokens : ∀ form : TypeForm, namesAmong form.tokens = form.names
  | named name => rfl
  | applied generic arguments => by
      simp [tokens, names, namesAmong, namesAmong_tokens generic,
        namesAmong_tokensOfArguments arguments]
  | unbound generic commas => by simp [tokens, names, namesAmong, namesAmong_tokens generic]
  | inner generic arguments name => by
      simp [tokens, names, namesAmong, namesAmong_tokens generic,
        namesAmong_tokensOfArguments arguments]
  | tuple elements => by
      simp [tokens, names, namesAmong, namesAmong_tokensOfElements elements]
  | array element commas => by simp [tokens, names, namesAmong, namesAmong_tokens element]
  | nullable element => by simp [tokens, names, namesAmong, namesAmong_tokens element]
  | pointer element => by simp [tokens, names, namesAmong, namesAmong_tokens element]

theorem namesAmong_tokensOfArguments : ∀ arguments : List TypeForm,
    (tokensOfArguments arguments).flatMap namesAmong = namesOfArguments arguments
  | [] => rfl
  | argument :: others => by
      rw [tokensOfArguments, List.flatMap_cons, namesAmong_tokens argument,
        namesAmong_tokensOfArguments others, namesOfArguments]

theorem namesAmong_tokensOfElements : ∀ elements : List (TypeForm × Option Identifier),
    (tokensOfElements elements).flatMap namesAmong = namesOfElements elements
  | [] => rfl
  | (element, label) :: others => by
      have labelled : namesAmong (label.toList.map fun label => .name (.ofIdentifier label)) =
          label.toList.map .ofIdentifier := by
        cases label <;> rfl
      rw [tokensOfElements, List.flatMap_cons, namesAmong_append, namesAmong_tokens element,
        labelled, namesAmong_tokensOfElements others, namesOfElements]

end

end TypeForm

/-! ### Reading a text that spells tokens -/

theorem separates_of_mem_typeSigns {c : Char} (isSign : c ∈ typeSigns) : separates c := by
  have all : typeSigns.all separates = true := by decide
  exact List.all_eq_true.mp all c isSign

theorem separates_of_apart {text : List Char}
    (apart : ∀ c ∈ text.head?, c ∈ typeSigns ∨ Text.isBlank c) :
    ∀ c ∈ text.head?, separates c := by
  intro c isFirst
  rcases apart c isFirst with isSign | blank
  · exact separates_of_mem_typeSigns isSign
  · exact Resolution.separates_of_isBlank blank

/-- Signs and white space cut a text at the names and nowhere else. -/
theorem namesIn_of_spelled {tokens : List TypeToken} {text : List Char}
    (spelled : Spelled tokens text) :
    namesIn (String.ofList text) =
      (namesAmong tokens).flatMap fun name => readName name.full := by
  induction spelled with
  | nil gap =>
      have nothing : namesIn (String.ofList []) = [] := by decide
      have read := Resolution.namesIn_append_gap gap.separates []
      rwa [List.nil_append, nothing] at read
  | @name tokens text gap name apart rest inductionHypothesis =>
      have read := Resolution.namesIn_append (List.forall_mem_nil _) (separates_of_apart apart)
        name.chars
      rw [List.nil_append] at read
      rw [Resolution.namesIn_gap_append gap.separates, read, name.namesIn_chars,
        inductionHypothesis, namesAmong, List.flatMap_cons]
  | @inner tokens text gap name apart rest inductionHypothesis =>
      have read := Resolution.namesIn_append (List.forall_mem_nil _) (separates_of_apart apart)
        ('.' :: name.full)
      rw [List.nil_append, List.cons_append] at read
      rw [Resolution.namesIn_gap_append gap.separates, read, Resolution.namesIn_of_dot_cons name.isName,
        inductionHypothesis, namesAmong, List.flatMap_cons]
  | @sign tokens text gap c isSign rest inductionHypothesis =>
      have nothing : namesIn (String.ofList []) = [] := by decide
      have read := Resolution.namesIn_append_cons (separates_of_mem_typeSigns isSign) [] text
      rw [List.nil_append, nothing, List.nil_append] at read
      rw [Resolution.namesIn_gap_append gap.separates, read, inductionHypothesis,
        namesAmong]

/-- Without an at sign before it a name is read as it is, or not at all if it begins oddly. -/
theorem DottedName.readName_of_no_at {name : DottedName}
    (noAt : name.fullText.toList.head? ≠ some '@') :
    readName name.full = if beginsOddly name.fullText then [] else [name.fullText] := by
  by_cases odd : beginsOddly name.fullText = true
  · obtain ⟨first, rest, written, begins⟩ := name.exists_first
    have plainly := Declaration.startsPlainly_iff rest begins
    rw [fullText, written] at noAt odd
    have notAt : first ≠ '@' := fun same => noAt (by rw [same, String.toList_ofList]; rfl)
    have closed : startsName (first :: rest) = false := by
      by_contra starts
      rw [Bool.not_eq_false] at starts
      rw [plainly.mp ⟨starts, notAt⟩] at odd
      cases odd
    rw [fullText, written, if_pos odd, readName, closed, if_neg Bool.false_ne_true]
  · rw [if_neg odd]
    exact name.readName_eq_iff.mpr (Bool.eq_false_iff.mpr odd)

theorem flatMap_readName_eq_map_iff (names : List DottedName) :
    (names.flatMap fun name => readName name.full) = names.map DottedName.fullText ↔
      ∀ mention ∈ names.map DottedName.fullText, beginsOddly mention = false := by
  have single : names.map DottedName.fullText = names.flatMap fun name => [name.fullText] :=
    List.map_eq_flatMap
  rw [List.forall_mem_map]
  constructor
  · intro same name membership
    have shorter : ∀ name : DottedName,
        (readName name.full).length ≤ [name.fullText].length := by
      intro name
      unfold readName
      split <;> simp
    rw [single] at same
    exact name.readName_eq_iff.mp (eq_of_flatMap_eq shorter same name membership)
  · intro plain
    rw [single]
    exact List.flatMap_congr fun name membership =>
      name.readName_eq_iff.mpr (plain name membership)

/-! ### Reading a type -/

/-- How the names of a type are read out of a text. -/
structure ReadsForm (form : TypeForm) (text : String) : Prop where
  /-- All names are read just if each begins with a letter or an underscore. -/
  namesIn_iff : namesIn text = form.mentions ↔
    ∀ mention ∈ form.mentions, beginsOddly mention = false
  /-- Where no name begins with an at sign, nothing but the names that begin oddly is left out. -/
  namesIn_eq : (∀ mention ∈ form.mentions, mention.toList.head? ≠ some '@') →
    namesIn text = form.mentions.filter fun mention => !beginsOddly mention
  /-- What the text leads to is what its names lead to, in their order. -/
  resolveAll_iff :
    (∀ catalog imports own, resolveAll catalog imports own text =
      form.mentions.filterMap (resolve? catalog imports own)) ↔
    ∀ mention ∈ form.mentions, beginsOddly mention = false

/-- However a type is written, its names are read in order as they are, just if none of them begins
oddly. -/
theorem readsForm_of_spelled {form : TypeForm} {text : String}
    (spelled : Spelled form.tokens text.toList) : ReadsForm form text := by
  have read : namesIn text = form.names.flatMap fun name => readName name.full := by
    rw [← form.namesAmong_tokens, ← namesIn_of_spelled spelled, String.ofList_toList]
  have whole : namesIn text = form.mentions ↔
      ∀ mention ∈ form.mentions, beginsOddly mention = false := by
    rw [read]
    exact flatMap_readName_eq_map_iff form.names
  refine ⟨whole, fun noAt => ?_, fun same => whole.mp ?_, fun plain catalog imports own => ?_⟩
  · rw [read, TypeForm.mentions, List.filter_map, List.map_eq_flatMap, flatMap_filter]
    refine List.flatMap_congr fun name membership => ?_
    rw [name.readName_of_no_at (noAt _ (List.mem_map_of_mem membership)), Function.comp_apply]
    cases beginsOddly name.fullText <;> rfl
  · -- Where all these names are declared, every one of them leads to itself.
    have all := same (.ofNames (namesIn text ++ form.mentions)) .empty none
    have known : ∀ name ∈ namesIn text ++ form.mentions,
        (Catalog.ofNames (namesIn text ++ form.mentions)).contains name := fun name isName =>
      Catalog.contains_ofNames.mpr isName
    obtain ⟨knownRead, knownMentioned⟩ := List.forall_mem_append.mp known
    rwa [resolveAll, Resolution.filterMap_resolve?_empty knownRead,
      Resolution.filterMap_resolve?_empty knownMentioned] at all
  · rw [resolveAll, whole.mpr plain]

namespace TypeForm

def foo : Identifier := ⟨"Foo", by decide⟩

def first : Identifier := ⟨"first", by decide⟩

theorem words_N : ∀ part ∈ ["N"], IsWord part.toList := by decide

/-- The name `global::N.Bar`. -/
def bar : DottedName := ⟨true, ["N"], "Bar", words_N, by decide⟩

/-- A pair of an array, which has a name, and of a nullable type, which is declared in another. -/
def pair : TypeForm :=
  .tuple [(.array (.named (.ofIdentifier foo)) 0, some first),
    (.nullable (.inner (.named bar) [.named (.ofIdentifier foo)] (.ofIdentifier foo)), none)]

theorem pair_readsForm :
    Spelled pair.tokens "(Foo[]first, global::N.Bar<Foo >.Foo?)".toList ∧
      ReadsForm pair "(Foo[]first, global::N.Bar<Foo >.Foo?)" ∧
      pair.mentions = ["Foo", "first", "N.Bar", "Foo", "Foo"] ∧
      namesIn "(Foo[]first, global::N.Bar<Foo >.Foo?)" = pair.mentions := by
  have ofSecond : Spelled _ _ :=
    .name Space.single.toBlanks bar (apart_cons (by decide)) (.sign .nothing '<' (by decide)
      (.name .nothing (.ofIdentifier foo) (apart_cons (by decide))
        (.sign Space.single.toBlanks '>' (by decide)
          (.inner .nothing (.ofIdentifier foo) (apart_cons (by decide))
            (.sign .nothing '?' (by decide) (.sign .nothing ')' (by decide) (.nil .nothing)))))))
  have ofFirst : Spelled _ _ :=
    .sign .nothing '(' (by decide) (.name .nothing (.ofIdentifier foo) (apart_cons (by decide))
      (.sign .nothing '[' (by decide) (.sign .nothing ']' (by decide)
        (.name .nothing (.ofIdentifier first) (apart_cons (by decide))
          (.sign .nothing ',' (by decide) ofSecond)))))
  have spelled : Spelled pair.tokens "(Foo[]first, global::N.Bar<Foo >.Foo?)".toList := by
    convert ofFirst using 1
    · rfl
    · decide +kernel
  have reads := readsForm_of_spelled spelled
  exact ⟨spelled, reads, by decide +kernel, reads.namesIn_iff.mpr (by decide +kernel)⟩

/-- The name that is written with an escape for its only letter. -/
def escaped : TypeForm := .named (.ofIdentifier ⟨"\\u0041", by decide⟩)

/-- The name has no at sign, but it is not read, so the type is not found though it is declared. -/
theorem escaped_not_read :
    Spelled escaped.tokens "\\u0041".toList ∧ escaped.mentions = ["\\u0041"] ∧
      namesIn "\\u0041" = [] ∧ resolveAll ⟨["\\u0041"]⟩ .empty none "\\u0041" = [] ∧
      escaped.mentions.filterMap (resolve? ⟨["\\u0041"]⟩ .empty none) = ["\\u0041"] ∧
      namesIn "\\u0041" ≠ escaped.mentions := by
  have spelled : Spelled escaped.tokens "\\u0041".toList := by
    have alone := Spelled.name .nothing (.ofIdentifier ⟨"\\u0041", by decide⟩) (by rintro c ⟨⟩)
      (.nil .nothing)
    convert alone using 1
    · rfl
    · decide +kernel
  exact ⟨spelled, by decide +kernel, by decide +kernel, by decide +kernel, by decide +kernel,
    by decide +kernel⟩

end TypeForm

end SolutionSurvey

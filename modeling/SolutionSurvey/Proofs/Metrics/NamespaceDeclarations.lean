import SolutionSurvey.Proofs.Dependency.Aliases
import SolutionSurvey.Proofs.Dependency.Growth
import SolutionSurvey.Proofs.Dependency.SpacedNames
import SolutionSurvey.Proofs.Metrics.NamespaceLines

/-!
# Lines that declare a namespace

A line declares a namespace if its first word is `namespace`.  The second word is taken for the name,
but for the braces and semicolons at its end.  Whatever else is glued to the name becomes part of it,
and then the metrics of the file go to another namespace than the types that it declares.
-/

namespace SolutionSurvey

/-! ### Lines with a name -/

/-- A line that declares a namespace.  Behind the name anything may follow that is kept apart from it
by a brace, a semicolon or white space. -/
structure NamespaceLine where
  indent : Blanks
  gap : Space
  name : DottedName
  rest : List Char
  apart : ∀ c ∈ rest.head?, c = '{' ∨ c = ';' ∨ Text.isBlank c

namespace NamespaceLine

open CodeLine (isClosing)

def text (line : NamespaceLine) : String :=
  String.ofList (line.indent.chars ++
    ("namespace".toList ++ (line.gap.chars ++ (line.name.full ++ line.rest))))

/-- What follows the name without white space between them. -/
def glued (line : NamespaceLine) : List Char := line.rest.takeWhile (!Text.isBlank ·)

/-- What is glued to the name, without the closing signs at its end. -/
def surplus (line : NamespaceLine) : List Char := (line.glued.reverse.dropWhile isClosing).reverse

/-- Nothing but closing signs is glued to the name. -/
def IsPlain (line : NamespaceLine) : Prop := ∀ c ∈ line.glued, isClosing c

variable (line : NamespaceLine)

theorem isPlain_iff_surplus : line.IsPlain ↔ line.surplus = [] := by
  rw [surplus, List.reverse_eq_nil_iff, List.dropWhile_eq_nil_iff, IsPlain]
  simp only [List.mem_reverse]

theorem glued_eq_nil (apart : ∀ c ∈ line.rest.head?, Text.isBlank c) : line.glued = [] := by
  rw [glued]
  cases rest : line.rest with
  | nil => rfl
  | cons c others =>
      have blank := apart c (by rw [rest]; rfl)
      exact List.takeWhile_cons_of_neg (by simp [blank])

/-- The words of the line, of which the second one begins with the name. -/
theorem words_text : Text.words line.text =
    "namespace" :: String.ofList (line.name.full ++ line.glued) ::
      Text.words (String.ofList (line.rest.dropWhile (!Text.isBlank ·))) := by
  have keyword : ∀ c ∈ "namespace".toList, Text.isBlank c = false := by
    have plain : "namespace".toList.all (!Text.isBlank ·) := by decide
    simpa only [List.all_eq_true, Bool.not_eq_true'] using plain
  have solid : ∀ c ∈ line.name.full ++ line.glued, Text.isBlank c = false := by
    refine List.forall_mem_append.mpr ⟨line.name.solid, fun c membership => ?_⟩
    simpa using List.mem_takeWhile_imp membership
  have written : line.name.full ++ line.glued ≠ [] :=
    List.append_ne_nil_of_left_ne_nil line.name.isName.written _
  have gapFirst : ∀ c ∈ (line.gap.chars ++ (line.name.full ++ line.rest)).head?,
      Text.isBlank c := by
    intro c isFirst
    rw [List.head?_append_of_ne_nil _ line.gap.written] at isFirst
    exact line.gap.blank c (List.mem_of_mem_head? isFirst)
  have blankFirst : ∀ c ∈ (line.rest.dropWhile (!Text.isBlank ·)).head?, Text.isBlank c := by
    intro c isFirst
    have kept := List.head?_dropWhile_not (!Text.isBlank ·) line.rest
    rw [isFirst] at kept
    simpa using kept
  have split : line.name.full ++ line.rest =
      line.name.full ++ line.glued ++ line.rest.dropWhile (!Text.isBlank ·) := by
    rw [List.append_assoc, glued, List.takeWhile_append_dropWhile]
  rw [text, Text.words_blanks_append line.indent.blank,
    Text.words_solid_append keyword (by decide) gapFirst,
    Text.words_blanks_append line.gap.blank, split,
    Text.words_solid_append solid written blankFirst, String.ofList_toList]

/-- No name ends with a closing sign, so only what is glued to it is trimmed. -/
theorem trimEndOf_isClosing :
    Text.trimEndOf isClosing (String.ofList (line.name.full ++ line.glued)) =
      String.ofList (line.name.full ++ line.surplus) := by
  have noSign : ∀ c ∈ line.name.full, isClosing c = false := by
    intro c membership
    have noSemicolon := line.name.no_sign ';' (by decide) (by decide) (by decide)
    have noBrace := line.name.no_sign '{' (by decide) (by decide) (by decide)
    refine Bool.or_eq_false_iff.mpr ⟨?_, ?_⟩
    · exact beq_eq_false_iff_ne.mpr fun same => noSemicolon (same ▸ membership)
    · exact beq_eq_false_iff_ne.mpr fun same => noBrace (same ▸ membership)
  have untouched : line.name.full.reverse.dropWhile isClosing = line.name.full.reverse :=
    Text.dropWhile_of_head? fun c isLast =>
      noSign c (List.mem_reverse.mp (List.mem_of_mem_head? isLast))
  rw [Text.trimEndOf, String.toList_ofList, List.reverse_append, List.dropWhile_append, untouched,
    surplus]
  split
  case isTrue nothing => simp [List.isEmpty_iff.mp nothing]
  case isFalse => rw [List.reverse_append, List.reverse_reverse]

/-- A line is read to declare its name and whatever is left of what is glued to it. -/
theorem declaredNamespace?_eq_surplus : CodeLine.declaredNamespace? line.text =
    some (some (String.ofList (line.name.full ++ line.surplus))) := by
  have written : String.ofList (line.name.full ++ line.surplus) ≠ "" := fun empty =>
    List.append_ne_nil_of_left_ne_nil line.name.isName.written _ (String.ofList_injective empty)
  rw [CodeLine.declaredNamespace?_of_words line.words_text, trimEndOf_isClosing,
    if_neg (by simpa using written)]

theorem declaredNamespace?_eq_name_iff :
    CodeLine.declaredNamespace? line.text = some (some (String.ofList line.name.full)) ↔
      line.IsPlain := by
  rw [declaredNamespace?_eq_surplus, Option.some.injEq, Option.some.injEq, String.ofList_inj,
    List.append_right_eq_self, isPlain_iff_surplus]

/-! ### Lines and syntax trees -/

/-- The line is the first one of a file that declares a namespace, and a node of the syntax tree
stands for this declaration.  The name of the node may go on behind the name on the line, where white
space follows it. -/
structure Introduces (line : NamespaceLine) (file : SourceFile) (node : Node) (more : List Char) :
    Prop where
  inTree : ∃ place ∈ file.tree.places, place.node = node
  declares : ["namespace_declaration", "file_scoped_namespace_declaration"].contains node.kind
  first : ∃ before after, Text.lines file.text = before ++ line.text :: after ∧
    before.length + 1 = node.line ∧
      ∀ earlier ∈ before, CodeLine.declaredNamespace? earlier = none
  named : ∃ name, node.child? "name" = some name ∧
    name.text = String.ofList (line.name.full ++ more)
  goesOn : more ≠ [] → ∀ c ∈ line.rest.head?, Text.isBlank c
  ends : ∀ c ∈ more.getLast?, Text.isBlank c = false

namespace Introduces

variable {line : NamespaceLine} {file : SourceFile} {node : Node} {more : List Char}
  (introduces : line.Introduces file node more)
include introduces

theorem nameOfNamespace? : Declaration.nameOfNamespace? node =
    some (String.ofList (line.name.full ++ more.filter (!Text.isBlank ·))) := by
  obtain ⟨name, named, shown⟩ := introduces.named
  have solid : line.name.full.filter (!Text.isBlank ·) = line.name.full := by
    apply List.filter_eq_self.mpr
    intro c membership
    rw [line.name.solid c membership, Bool.not_false]
  have compacted : Text.compact name.text =
      String.ofList (line.name.full ++ more.filter (!Text.isBlank ·)) := by
    rw [shown, Text.compact, String.toList_ofList, List.filter_append, solid]
  have written : Text.compact name.text ≠ "" := by
    rw [compacted]
    exact fun empty =>
      List.append_ne_nil_of_left_ne_nil line.name.isName.written _ (String.ofList_injective empty)
  rw [Declaration.nameOfNamespace?, named]
  dsimp only
  rw [if_neg (by simpa using written), compacted]

theorem namespaceName_measure (read : TreeReader) (table : Table Nat) :
    (FileMetrics.measure read table file).1.namespaceName =
      some (String.ofList (line.name.full ++ line.surplus)) := by
  obtain ⟨before, after, lines, _, none⟩ := introduces.first
  rw [FileMetrics.measure_fst, FileMetrics.ofFile, lines,
    firstDeclared_append_cons none line.declaredNamespace?_eq_surplus]
  rfl

/-- The metrics name the namespace that the tree shows if both end where the name on the line does. -/
theorem agree_iff (read : TreeReader) (table : Table Nat) :
    (FileMetrics.measure read table file).1.namespaceName = Declaration.nameOfNamespace? node ↔
      line.IsPlain ∧ more = [] := by
  rw [introduces.namespaceName_measure, introduces.nameOfNamespace?, Option.some.injEq,
    String.ofList_inj, List.append_cancel_left_eq, isPlain_iff_surplus]
  by_cases whole : more = []
  · simp [whole]
  · have nothing : line.surplus = [] := by
      rw [surplus, line.glued_eq_nil (introduces.goesOn whole)]
      rfl
    have solid : more.getLast whole ∈ more.filter (!Text.isBlank ·) := by
      refine List.mem_filter.mpr ⟨List.getLast_mem whole, ?_⟩
      rw [introduces.ends _ (List.getLast?_eq_some_getLast whole), Bool.not_false]
    simp [nothing, whole, (List.ne_nil_of_mem solid).symm]

end Introduces

end NamespaceLine

namespace CodeLine

/-- What lines tell about namespaces, and where this is what the syntax tree of a file tells. -/
structure ReadsNamespaces (read : TreeReader) : Prop where
  elsewhere : ∀ line, declaredNamespace? line = none ↔ (Text.words line).head? ≠ some "namespace"
  named : ∀ line : NamespaceLine,
    declaredNamespace? line.text = some (some (String.ofList line.name.full)) ↔ line.IsPlain
  misnamed : ∀ line : NamespaceLine,
    declaredNamespace? line.text = some (some (String.ofList (line.name.full ++ line.surplus)))
  shown : ∀ (line : NamespaceLine) (file : SourceFile) (node : Node) (more : List Char),
    line.Introduces file node more → ∀ table,
      ((FileMetrics.measure read table file).1.namespaceName = Declaration.nameOfNamespace? node ↔
        line.IsPlain ∧ more = [])

/-- A line declares the namespace that it names just if nothing but braces and semicolons is glued to
the name.  Then the metrics of the file are about the namespace that its syntax tree shows, unless
the name goes on behind white space. -/
theorem readsNamespaces (read : TreeReader) : ReadsNamespaces read where
  elsewhere _ := declaredNamespace?_eq_none_iff
  named line := line.declaredNamespace?_eq_name_iff
  misnamed line := line.declaredNamespace?_eq_surplus
  shown _ _ _ _ introduces := introduces.agree_iff read

/-! ### A body glued to a name -/

theorem isWord_N : CSharp.Lexeme.IsWord "N".toList := by decide

/-- The line `namespace N{class B;}`. -/
def bodyGlued : NamespaceLine where
  indent := .nothing
  gap := .single
  name := ⟨false, [], "N", List.forall_mem_nil _, isWord_N⟩
  rest := '{' :: "class B;\x7d".toList
  apart := fun _ isFirst => .inl (Option.some.inj isFirst).symm

open Dependency (imported) in
/-- The metrics of the file are about another namespace than its type is in. -/
theorem bodyGlued_misnamed :
    bodyGlued.text = "namespace N\x7bclass B;\x7d" ∧ bodyGlued.name.full = "N".toList ∧
      declaredNamespace? bodyGlued.text = some (some "N\x7bclass") ∧
      (∃ node, bodyGlued.Introduces imported node [] ∧
        Declaration.nameOfNamespace? node = some "N") ∧
      Declaration.inFile imported = [⟨"B", some "N", "N.B", "B.cs", 1⟩] ∧
      ∀ read table,
        (FileMetrics.measure read table imported).1.namespaceName = some "N\x7bclass" := by
  refine ⟨by decide +kernel, by decide +kernel, by decide +kernel, ?_, by decide +kernel, ?_⟩
  · refine ⟨(imported.tree.places.get ⟨1, by decide +kernel⟩).node, ?_, by decide +kernel⟩
    exact
      { inTree := ⟨_, List.get_mem .., rfl⟩
        declares := by decide +kernel
        first := ⟨[], [], by decide +kernel, by decide +kernel, List.forall_mem_nil _⟩
        named := ⟨Node.written "identifier" ["name"] 1 1 "N" [], rfl, by decide +kernel⟩
        goesOn := fun more => absurd rfl more
        ends := fun _ isLast => nomatch isLast }
  · intro read table
    rw [FileMetrics.measure_fst]
    change (firstDeclared (Text.lines imported.text)).bind id = some "N\x7bclass"
    decide +kernel

end CodeLine

end SolutionSurvey

import SolutionSurvey.Proofs.Dependency.Additions
import SolutionSurvey.Proofs.Dependency.Names

/-!
# Constructors and dependencies

The name of a constructor or destructor is looked up like any other, and where a type of the same
name is imported it leads there.  So a type gets a new dependency from a constructor if its own name
leads elsewhere, and from nothing but that.
-/

namespace SolutionSurvey

open CSharp (modifierWords)
open Node (written sign)
open References (readAt)

/-! ### Files with one more member -/

/-- A file and what becomes of it when the type at a place gets a member; all else stays as it is,
but may move to other lines. -/
def Gains (member : Node) (place : Place) (file other : SourceFile) : Prop :=
  ∃ tree, Furnished member [] place file.tree tree ∧
    tree.withoutLines = other.tree.withoutLines

namespace Dependency

/-- What is read of all declarations, except where they stand. -/
def readings (files : List SourceFile) : List References :=
  files.flatMap fun file => readAt file.tree.places

theorem map_unplaced (files : List SourceFile) :
    (files.flatMap References.inFile).map References.unplaced = readings files := by
  rw [List.map_flatMap, readings]
  exact congrArg (List.flatMap · files) (funext References.map_unplaced_inFile)

/-- The references of a declaration lead to a pair of types. -/
def Finds (catalog : Catalog) (references : References) (pair : String × String) : Prop :=
  ∃ candidate ∈ references.candidates, pair ∈ pairsOf catalog references candidate

theorem mem_pairs_iff_readings {files : List SourceFile} {pair : String × String} :
    pair ∈ pairs files ↔
      ∃ references ∈ readings files, Finds (Catalog.ofFiles files) references pair := by
  simp only [mem_pairs, ← map_unplaced, List.mem_map, exists_exists_and_eq_and]
  rfl

theorem ofFiles_eq_readings (files : List SourceFile) :
    Catalog.ofFiles files =
      Catalog.ofNames ((readings files).map (·.declaration.qualifiedName)) := by
  rw [Catalog.ofFiles, namesDeclaredIn_eq_map, ← map_unplaced, List.map_map]
  rfl

theorem pairsOf_trim (catalog : Catalog) (references : References) (text : String) :
    pairsOf catalog references (Text.trim text) = pairsOf catalog references text := by
  rw [pairsOf, Resolution.resolveAll, Resolution.namesIn_trim, pairsOf, Resolution.resolveAll]

theorem pairsOf_empty (catalog : Catalog) (references : References) :
    pairsOf catalog references "" = [] := by
  have nothing : Resolution.namesIn "" = [] := by decide
  simp [pairsOf, Resolution.resolveAll, nothing]

/-- With a further name the references lead to what that name leads to. -/
theorem finds_iff_of_name {catalog : Catalog} {references : References} {name : String}
    {candidates : List String}
    (mem_iff : ∀ candidate, candidate ∈ candidates ↔
      candidate ∈ references.candidates ∨ candidate ≠ "" ∧ Text.trim name = candidate)
    (pair : String × String) :
    Finds catalog { references with candidates := candidates } pair ↔
      Finds catalog references pair ∨ pair ∈ pairsOf catalog references name := by
  constructor
  · rintro ⟨candidate, isCandidate, leads⟩
    rcases (mem_iff candidate).mp isCandidate with known | ⟨_, rfl⟩
    · exact .inl ⟨candidate, known, leads⟩
    · rw [pairsOf_trim] at leads
      exact .inr leads
  · rintro (⟨candidate, known, leads⟩ | leads)
    · exact ⟨candidate, (mem_iff candidate).mpr (.inl known), leads⟩
    · rw [← pairsOf_trim] at leads
      have written : Text.trim name ≠ "" := by
        intro empty
        rw [empty, pairsOf_empty] at leads
        cases leads
      exact ⟨Text.trim name, (mem_iff _).mpr (.inr ⟨written, rfl⟩), leads⟩

theorem exists_mem_append_cons {α : Type} {holds : α → Prop} {front back : List α} {item : α} :
    (∃ other ∈ front ++ item :: back, holds other) ↔
      holds item ∨ ∃ other ∈ front ++ back, holds other := by
  simp only [List.mem_append, List.mem_cons, or_and_right, exists_or, exists_eq_left]
  exact or_left_comm

section Gains

variable (before after : List SourceFile) {file other : SourceFile} {place : Place}
  {declaration : Declaration} {member : Node}
  (declared : Declaration.ofPlace? file place = some declaration)
  (own : OwnMember declaration.identifier member) (gains : Gains member place file other)

/-- What is read of a declaration at a place. -/
def readingAt (place : Place) (declaration : Declaration) : References :=
  References.unplaced
    ⟨declaration, Imports.visibleAt place, Candidates.ofDeclaration place.node⟩

include declared own gains

theorem gainsCandidate_readings :
    ∃ front back candidates,
      (∀ candidate, candidate ∈ candidates ↔
        candidate ∈ (readingAt place declaration).candidates ∨
          candidate ≠ "" ∧ Text.trim declaration.identifier = candidate) ∧
      readings (before ++ file :: after) = front ++ readingAt place declaration :: back ∧
      readings (before ++ other :: after) =
        front ++ { readingAt place declaration with candidates := candidates } :: back := by
  obtain ⟨tree, furnished, sameTree⟩ := gains
  have trees : GainsCandidate declaration.identifier place (readAt (file.tree.placesWithin []))
      (readAt (tree.placesWithin [])) := furnished.gainsCandidate own.mentionsOnly rfl
  obtain ⟨front, back, candidates, mem_iff, here, there⟩ :=
    trees.between (readings before) (readings after)
  have made : References.ofPlace? place = some (readingAt place declaration) := by
    rw [References.ofPlace?_eq file, declared]
    rfl
  have split : ∀ file : SourceFile, readings (before ++ file :: after) =
      readings before ++ (readAt file.tree.places ++ readings after) := by
    intro file
    rw [readings, List.flatMap_append, List.flatMap_cons]
    rfl
  refine ⟨front, back, candidates, mem_iff, ?_, ?_⟩
  · rw [split, Node.places, here, made]
    rfl
  · rw [split, ← References.readAt_places_of_withoutLines sameTree, Node.places, there, made]
    rfl

/-- What comes in is what the own name of the type leads to. -/
theorem mem_pairs_iff_of_gains (pair : String × String) :
    pair ∈ pairs (before ++ other :: after) ↔ pair ∈ pairs (before ++ file :: after) ∨
      pair ∈ pairsOf (Catalog.ofFiles (before ++ file :: after)) (readingAt place declaration)
        declaration.identifier := by
  obtain ⟨front, back, candidates, mem_iff, here, there⟩ :=
    gainsCandidate_readings before after declared own gains
  have catalogs : Catalog.ofFiles (before ++ other :: after) =
      Catalog.ofFiles (before ++ file :: after) := by
    rw [ofFiles_eq_readings, ofFiles_eq_readings, here, there, List.map_append, List.map_append]
    rfl
  rw [mem_pairs_iff_readings, mem_pairs_iff_readings, there, here, catalogs,
    exists_mem_append_cons, exists_mem_append_cons, finds_iff_of_name mem_iff]
  exact or_right_comm

theorem contains_of_gains :
    (Catalog.ofFiles (before ++ file :: after)).contains declaration.qualifiedName := by
  obtain ⟨front, back, _, _, here, _⟩ :=
    gainsCandidate_readings before after declared own gains
  rw [ofFiles_eq_readings, here]
  exact Catalog.contains_ofNames.mpr
    (List.mem_map_of_mem (List.mem_append_right front List.mem_cons_self))

end Gains

/-- Wherever the own name of a type leads from its place, the type depends on that already. -/
def LeadsToKnown (files : List SourceFile) (place : Place) (declaration : Declaration) : Prop :=
  ∀ target ∈ Resolution.resolveAll (Catalog.ofFiles files) (Imports.visibleAt place)
      declaration.namespaceName declaration.identifier,
    target ≠ declaration.qualifiedName → (declaration.qualifiedName, target) ∈ pairs files

/-- Nothing that is visible at its place hides a type. -/
structure Unhidden (files : List SourceFile) (place : Place) (declaration : Declaration) :
    Prop where
  plain : Resolution.namesIn declaration.identifier = [declaration.identifier]
  simple : '.' ∉ declaration.identifier.toList
  unaliased : (Imports.visibleAt place).aliases.get? declaration.identifier = none
  alone : ∀ outer ∈ (Imports.visibleAt place).namespaces,
    (Catalog.ofFiles files).contains (outer ++ "." ++ declaration.identifier) →
      outer ++ "." ++ declaration.identifier = declaration.qualifiedName

theorem Unhidden.resolve?_eq {files : List SourceFile} {place : Place} {declaration : Declaration}
    (unhidden : Unhidden files place declaration)
    (known : (Catalog.ofFiles files).contains declaration.qualifiedName)
    (qualified : declaration.qualifiedName =
      Declaration.qualify declaration.namespaceName declaration.identifier) :
    Resolution.resolve? (Catalog.ofFiles files) (Imports.visibleAt place)
      declaration.namespaceName declaration.identifier = some declaration.qualifiedName := by
  have meant : ∃ rest, Resolution.meanings (Imports.visibleAt place) declaration.namespaceName
      declaration.identifier =
        ((Imports.visibleAt place).namespaces.map fun outer =>
          outer ++ "." ++ declaration.identifier) ++ declaration.qualifiedName :: rest := by
    have parts := Text.splitAtFirst?_eq_none_iff.mpr unhidden.simple
    rw [qualified]
    cases own : declaration.namespaceName with
    | none =>
        exists []
        simp [Resolution.meanings, parts, unhidden.unaliased, Declaration.qualify]
    | some outer =>
        exists [declaration.identifier]
        simp [Resolution.meanings, parts, unhidden.unaliased, Declaration.qualify]
  obtain ⟨rest, meant⟩ := meant
  rw [Resolution.resolve?, meant, List.find?_append, List.find?_cons_of_pos known]
  cases imported : ((Imports.visibleAt place).namespaces.map fun outer =>
      outer ++ "." ++ declaration.identifier).find? (Catalog.ofFiles files).contains with
  | none => rfl
  | some target =>
      obtain ⟨outer, isImported, rfl⟩ := List.mem_map.mp (List.mem_of_find?_eq_some imported)
      rw [unhidden.alone outer isImported (List.find?_some imported)]
      rfl

/-- A constructor or destructor that takes nothing and does nothing leaves the pairs of types as
they are just if the type depends already on whatever its own name leads to; so it is wherever the
type is not hidden by another one of its name. -/
theorem samePairs_iff_of_ownMember {before after : List SourceFile} {file other : SourceFile}
    {place : Place} {declaration : Declaration} {member : Node}
    (declared : Declaration.ofPlace? file place = some declaration)
    (own : OwnMember declaration.identifier member) (gains : Gains member place file other) :
    (SamePairs (before ++ file :: after) (before ++ other :: after) ↔
        LeadsToKnown (before ++ file :: after) place declaration) ∧
      (Unhidden (before ++ file :: after) place declaration →
        SamePairs (before ++ file :: after) (before ++ other :: after)) := by
  have mem_iff := mem_pairs_iff_of_gains before after declared own gains
  have same_iff : SamePairs (before ++ file :: after) (before ++ other :: after) ↔
      LeadsToKnown (before ++ file :: after) place declaration := by
    constructor
    · intro same target leads different
      refine (same _).mpr ((mem_iff _).mpr (.inr ?_))
      exact List.mem_map_of_mem (List.mem_filter.mpr ⟨leads, bne_iff_ne.mpr different⟩)
    · intro known pair
      rw [mem_iff]
      refine ⟨.inl, fun found => found.elim id fun leads => ?_⟩
      obtain ⟨target, isTarget, rfl⟩ := List.mem_map.mp leads
      obtain ⟨resolved, different⟩ := List.mem_filter.mp isTarget
      exact known target resolved (bne_iff_ne.mp different)
  refine ⟨same_iff, fun unhidden => same_iff.mpr fun target leads different => ?_⟩
  have home := unhidden.resolve?_eq (contains_of_gains before after declared own gains)
    (Declaration.ofPlace?_eq_some declared).2.2
  rw [Resolution.resolveAll, unhidden.plain, List.filterMap_cons_some home, List.filterMap_nil,
    List.mem_singleton] at leads
  exact absurd leads different

/-! ### A class with a constructor -/

/-- A file that imports the namespace `N`, with a class outside of it and one in it. -/
def between (inner : String) (first : Node) : SourceFile :=
  fileOf "A.cs"
    [ written "using_directive" [] 1 1 "using N;"
        [sign 1 "using", written "identifier" [] 1 1 "N" [], sign 1 ";"]
    , first
    , written "namespace_declaration" [] 1 1 ("namespace N\x7bclass " ++ inner ++ ";\x7d")
        [ sign 1 "namespace", written "identifier" ["name"] 1 1 "N" []
        , written "declaration_list" ["body"] 1 1 ("\x7bclass " ++ inner ++ ";\x7d")
            [sign 1 "\x7b", bareClass inner, sign 1 "\x7d"] ] ]

/-- The text `A(){}`. -/
def constructor : Node :=
  written "constructor_declaration" [] 1 1 "A()\x7b\x7d"
    [ written "identifier" ["name"] 1 1 "A" []
    , written "parameter_list" [] 1 1 "()" [sign 1 "(", sign 1 ")"]
    , written "block" ["body"] 1 1 "\x7b\x7d" [sign 1 "\x7b", sign 1 "\x7d"] ]

/-- The text `class A{A(){}}`. -/
def constructed : Node :=
  written "class_declaration" [] 1 1 "class A\x7bA()\x7b\x7d\x7d"
    [ sign 1 "class", written "identifier" ["name"] 1 1 "A" []
    , written "declaration_list" ["body"] 1 1 "\x7bA()\x7b\x7d\x7d"
        [sign 1 "\x7b", constructor, sign 1 "\x7d"] ]

/-- The place of the class in the file. -/
def placeBetween (inner : String) : Place := ⟨bareClass "A", [(between inner (bareClass "A")).tree]⟩

theorem constructor_ownMember : OwnMember "A" constructor := by
  have noModifier : ∀ modifier ∈ ([] : List Node), ∃ word ∈ modifierWords,
      Node.Spells "modifier" [word] modifier := List.forall_mem_nil _
  refine .constructor rfl rfl noModifier ⟨rfl, rfl, List.forall_mem_nil _⟩ rfl ⟨rfl, rfl, ?_⟩
    ⟨rfl, rfl, ?_⟩
  · simp [Node.children, written, sign]
  · simp [Node.children, written, sign]

theorem between_gains (inner : String) :
    Gains constructor (placeBetween inner) (between inner (bareClass "A"))
      (between inner constructed) := by
  have stays : ∀ text textToo : String, Stays housing
      ⟨"compilation_unit", true, false, false, [], 1, 1, text⟩
      ⟨"compilation_unit", true, false, false, [], 1, 1, textToo⟩ :=
    fun _ _ => ⟨⟨rfl, rfl, rfl, rfl, rfl⟩, (by decide : "compilation_unit" ∈ housing),
      List.not_mem_nil⟩
  have gets : GetsMember constructor (sign 1 ";") (written "declaration_list" ["body"] 1 1
      "\x7bA()\x7b\x7d\x7d" [sign 1 "\x7b", constructor, sign 1 "\x7d"]) :=
    .opened ⟨rfl, rfl, List.forall_mem_nil _⟩ rfl rfl rfl ⟨rfl, rfl, List.forall_mem_nil _⟩
      ⟨rfl, rfl, List.forall_mem_nil _⟩
  have furnished : Furnished constructor [(between inner (bareClass "A")).tree] (placeBetween inner)
      (bareClass "A") constructed :=
    .here [sign 1 "class", written "identifier" ["name"] 1 1 "A" []] []
      ⟨⟨rfl, rfl, rfl, rfl, rfl⟩, by decide, by decide⟩ gets
  exact ⟨_, .within [_] [_] (stays _ _) furnished, rfl⟩

/-- The class of the namespace has another name. -/
theorem between_unhidden :
    Declaration.ofPlace? (between "B" (bareClass "A")) (placeBetween "B") =
        some ⟨"A", none, "A", "A.cs", 1⟩ ∧
      OwnMember "A" constructor ∧
      Gains constructor (placeBetween "B") (between "B" (bareClass "A")) (between "B" constructed) ∧
      Unhidden ([] ++ between "B" (bareClass "A") :: []) (placeBetween "B")
        ⟨"A", none, "A", "A.cs", 1⟩ ∧
      SamePairs ([] ++ between "B" (bareClass "A") :: [])
        ([] ++ between "B" constructed :: []) := by
  have declared : Declaration.ofPlace? (between "B" (bareClass "A")) (placeBetween "B") =
      some ⟨"A", none, "A", "A.cs", 1⟩ := by decide +kernel
  have unhidden : Unhidden ([] ++ between "B" (bareClass "A") :: []) (placeBetween "B")
      ⟨"A", none, "A", "A.cs", 1⟩ :=
    ⟨by decide, by decide, by decide +kernel, by decide +kernel⟩
  exact ⟨declared, constructor_ownMember, between_gains "B", unhidden,
    (samePairs_iff_of_ownMember declared constructor_ownMember (between_gains "B")).2 unhidden⟩

/-- The constructor of the class reads as the imported class of the same name. -/
theorem constructor_not_samePairs :
    Declaration.ofPlace? (between "A" (bareClass "A")) (placeBetween "A") =
        some ⟨"A", none, "A", "A.cs", 1⟩ ∧
      OwnMember "A" constructor ∧
      Gains constructor (placeBetween "A") (between "A" (bareClass "A")) (between "A" constructed) ∧
      analyze [between "A" (bareClass "A")] = [] ∧
      analyze [between "A" constructed] = [⟨"A", "N.A", "A.cs", 1⟩] ∧
      ¬ SamePairs [between "A" (bareClass "A")] [between "A" constructed] := by
  have nothing : analyze [between "A" (bareClass "A")] = [] := by decide +kernel
  refine ⟨by decide +kernel, constructor_ownMember, between_gains "A", nothing,
    by decide +kernel, ?_⟩
  intro same
  have found : ("A", "N.A") ∈ pairs [between "A" (bareClass "A")] :=
    (same _).mpr (by decide +kernel)
  rw [pairs, nothing] at found
  cases found

end Dependency

end SolutionSurvey

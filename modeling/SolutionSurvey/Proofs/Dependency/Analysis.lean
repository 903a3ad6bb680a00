import SolutionSurvey.Proofs.Dependency.Catalog

/-!
# The dependencies found

A relation is found just if a declaration mentions a name that is resolved to another type.  Each is
found once, and neither the order of the files nor the order in which they are worked on matters.
-/

namespace SolutionSurvey

namespace Relation

instance : Std.TransCmp order :=
  inferInstanceAs (Std.TransCmp (compareLex (compareOn source) (compareLex (compareOn target)
    (compareLex (compareOn filePath) (compareOn line)))))

instance : Std.LawfulEqCmp order where
  compare_self := order_self _
  eq_of_compare := by
    intro left right tie
    obtain ⟨sources, rest⟩ := Ordering.then_eq_eq.mp tie
    obtain ⟨targets, rest⟩ := Ordering.then_eq_eq.mp rest
    obtain ⟨files, lines⟩ := Ordering.then_eq_eq.mp rest
    obtain ⟨source, target, file, line⟩ := left
    obtain ⟨otherSource, otherTarget, otherFile, otherLine⟩ := right
    obtain rfl : source = otherSource := Std.LawfulEqOrd.eq_of_compare sources
    obtain rfl : target = otherTarget := Std.LawfulEqOrd.eq_of_compare targets
    obtain rfl : file = otherFile := Std.LawfulEqOrd.eq_of_compare files
    obtain rfl : line = otherLine := Std.LawfulEqOrd.eq_of_compare lines
    rfl

end Relation

namespace Dependency

def Mentions (files : List SourceFile) (place : Place) (declaration : Declaration)
    (target : String) : Prop :=
  ∃ candidate ∈ Candidates.ofDeclaration place.node, ∃ name ∈ Resolution.namesIn candidate,
    Resolution.resolve? (Catalog.ofFiles files) (Imports.visibleAt place)
      declaration.namespaceName name = some target

structure Arises (files : List SourceFile) (relation : Relation) (file : SourceFile)
    (place : Place) (declaration : Declaration) : Prop where
  listed : file ∈ files
  stands : ∃ address, Declaration.StandsAt file address place declaration
  mentions : Mentions files place declaration relation.target
  source : relation.source = declaration.qualifiedName
  filePath : relation.filePath = file.path.text
  line : relation.line = place.node.line
  other : relation.target ≠ relation.source

/-- The relations between the types of some files are listed. -/
structure ListsRelations (files : List SourceFile) (relations : List Relation) : Prop where
  inOrder : Ascending Relation.order relations
  mem_iff : ∀ relation, relation ∈ relations ↔
    ∃ file place declaration, Arises files relation file place declaration
  cataloged : ∀ relation ∈ relations,
    (Catalog.ofFiles files).contains relation.source ∧
      (Catalog.ofFiles files).contains relation.target
  sameFiles : ∀ others, (∀ file, file ∈ others ↔ file ∈ files) → analyze others = relations

/-! ### The relations of one declaration -/

theorem mem_referencesInFile {file : SourceFile} {references : References} :
    references ∈ References.inFile file ↔
      ∃ address place declaration, Declaration.StandsAt file address place declaration ∧
        references =
          ⟨declaration, Imports.visibleAt place, Candidates.ofDeclaration place.node⟩ := by
  rw [References.inFile, List.mem_filterMap]
  constructor
  · rintro ⟨place, membership, made⟩
    obtain ⟨address, found, kind⟩ := Declaration.mem_placesIn.mp membership
    obtain ⟨declaration, declared, rfl⟩ := Option.map_eq_some_iff.mp made
    exact ⟨address, place, declaration, ⟨found, kind, declared⟩, rfl⟩
  · rintro ⟨address, place, declaration, ⟨found, kind, declared⟩, rfl⟩
    refine ⟨place, Declaration.mem_placesIn.mpr ⟨address, found, kind⟩, ?_⟩
    rw [declared, Option.map_some]

theorem declared_of_mem_referencesInFile {files : List SourceFile} {file : SourceFile}
    {references : References} (listed : file ∈ files) (inFile : references ∈ References.inFile file) :
    Declared files references.declaration.qualifiedName := by
  obtain ⟨address, place, declaration, stands, rfl⟩ := mem_referencesInFile.mp inFile
  exact ⟨file, listed, address, place, declaration, stands, rfl⟩

theorem mem_ofReferences {catalog : Catalog} {references : References} {relation : Relation} :
    relation ∈ Relation.ofReferences catalog references ↔
      (∃ candidate ∈ references.candidates, relation.target ∈
        Resolution.resolveAll catalog references.imports references.declaration.namespaceName
          candidate) ∧
      relation.target ≠ references.declaration.qualifiedName ∧
      relation.source = references.declaration.qualifiedName ∧
      relation.filePath = references.declaration.filePath ∧
      relation.line = references.declaration.line := by
  obtain ⟨source, target, filePath, line⟩ := relation
  simp only [Relation.ofReferences, List.mem_map, List.mem_filter, List.mem_flatMap, bne_iff_ne,
    Relation.mk.injEq]
  constructor
  · rintro ⟨_, ⟨mentioned, other⟩, rfl, rfl, rfl, rfl⟩
    exact ⟨mentioned, other, rfl, rfl, rfl⟩
  · rintro ⟨mentioned, other, rfl, rfl, rfl⟩
    exact ⟨target, ⟨mentioned, other⟩, rfl, rfl, rfl, rfl⟩

/-! ### The relations of all declarations -/

def found (files : List SourceFile) : List Relation :=
  (files.flatMap References.inFile).flatMap (Relation.ofReferences (Catalog.ofFiles files))

theorem mem_found {files : List SourceFile} {relation : Relation} :
    relation ∈ found files ↔
      ∃ file place declaration, Arises files relation file place declaration := by
  simp only [found, List.mem_flatMap, mem_referencesInFile]
  constructor
  · rintro ⟨references, ⟨file, listed, address, place, declaration, stands, rfl⟩, membership⟩
    obtain ⟨⟨candidate, isCandidate, resolved⟩, other, source, filePath, line⟩ :=
      mem_ofReferences.mp membership
    obtain ⟨samePath, sameLine, _⟩ := Declaration.ofPlace?_eq_some stands.2.2
    exact ⟨file, place, declaration,
      { listed, stands := ⟨address, stands⟩, source
        mentions := ⟨candidate, isCandidate, Resolution.mem_resolveAll.mp resolved⟩
        filePath := filePath.trans samePath, line := line.trans sameLine
        other := source ▸ other }⟩
  · rintro ⟨file, place, declaration, arises⟩
    obtain ⟨address, stands⟩ := arises.stands
    obtain ⟨candidate, isCandidate, resolved⟩ := arises.mentions
    obtain ⟨samePath, sameLine, _⟩ := Declaration.ofPlace?_eq_some stands.2.2
    refine ⟨_, ⟨file, arises.listed, address, place, declaration, stands, rfl⟩,
      mem_ofReferences.mpr ⟨⟨candidate, isCandidate, Resolution.mem_resolveAll.mpr resolved⟩,
        ?_, arises.source, arises.filePath.trans samePath.symm, arises.line.trans sameLine.symm⟩⟩
    exact arises.source ▸ arises.other

theorem Arises.cataloged {files : List SourceFile} {relation : Relation} {file : SourceFile}
    {place : Place} {declaration : Declaration}
    (arises : Arises files relation file place declaration) :
    (Catalog.ofFiles files).contains relation.source ∧
      (Catalog.ofFiles files).contains relation.target := by
  obtain ⟨address, stands⟩ := arises.stands
  obtain ⟨_, _, _, _, resolved⟩ := arises.mentions
  exact ⟨Catalog.contains_ofFiles.mpr
    ⟨file, arises.listed, address, place, declaration, stands, arises.source.symm⟩,
    Resolution.contains_of_resolve? resolved⟩

/-! ### The order of work -/

/-- In whatever order the relations are gathered, and however often each of them is, the result is
the same. -/
theorem ofList_eq_analyze {files : List SourceFile} {gathered : List Relation}
    (all : ∀ relation, relation ∈ gathered ↔ relation ∈ found files) :
    Distinct.ofList Relation.order gathered = analyze files :=
  Distinct.ofList_eq_of_mem_iff all

theorem ofFiles_eq_of_mem_iff {files others : List SourceFile}
    (same : ∀ file, file ∈ others ↔ file ∈ files) :
    Catalog.ofFiles others = Catalog.ofFiles files := by
  refine Catalog.ofNames_eq_of_mem_iff fun name => ?_
  simp only [Catalog.mem_namesDeclaredIn, Declared, same]

theorem mem_found_of_mem_iff {files others : List SourceFile}
    (same : ∀ file, file ∈ others ↔ file ∈ files) (relation : Relation) :
    relation ∈ found others ↔ relation ∈ found files := by
  simp only [found, ofFiles_eq_of_mem_iff same, List.mem_flatMap, same]

/-- The analysis finds all relations that arise, each once, whatever the order of the files. -/
theorem listsRelations_analyze (files : List SourceFile) : ListsRelations files (analyze files) where
  inOrder := Distinct.ascending_ofList _
  mem_iff _ := Distinct.mem_ofList.trans mem_found
  cataloged _ membership := by
    obtain ⟨_, _, _, arises⟩ := mem_found.mp (Distinct.mem_ofList.mp membership)
    exact arises.cataloged
  sameFiles _ same := ofList_eq_analyze (mem_found_of_mem_iff same)

open Node (written sign) in
/-- A class that is derived from another one, which it follows. -/
def derived : SourceFile where
  project := "App"
  path := ⟨"A.cs"⟩
  text := "class B;class A:B;"
  tree := written "compilation_unit" [] 1 1 "class B;class A:B;"
    [ written "class_declaration" [] 1 1 "class B;"
      [ sign 1 "class", written "identifier" ["name"] 1 1 "B" [], sign 1 ";" ]
    , written "class_declaration" [] 1 1 "class A:B;"
      [ sign 1 "class", written "identifier" ["name"] 1 1 "A" []
      , written "base_list" [] 1 1 ":B" [sign 1 ":", written "identifier" [] 1 1 "B" []]
      , sign 1 ";" ] ]

example : analyze [derived] = [⟨"A", "B", "A.cs", 1⟩] := by decide +kernel

/-! ### Files written out -/

section Written

open Node (written sign)

/-- A class of which nothing but its name is written. -/
def bareClass (name : String) : Node :=
  written "class_declaration" [] 1 1 ("class " ++ name ++ ";")
    [sign 1 "class", written "identifier" ["name"] 1 1 name [], sign 1 ";"]

def derivedClass (name base : String) : Node :=
  written "class_declaration" [] 1 1 ("class " ++ name ++ ":" ++ base ++ ";")
    [ sign 1 "class", written "identifier" ["name"] 1 1 name []
    , written "base_list" [] 1 1 (":" ++ base) [sign 1 ":", written "identifier" [] 1 1 base []]
    , sign 1 ";" ]

def fileOf (path : String) (nodes : List Node) : SourceFile where
  project := "App"
  path := ⟨path⟩
  text := String.join (nodes.map (·.text))
  tree := written "compilation_unit" [] 1 1 (String.join (nodes.map (·.text))) nodes

end Written

end Dependency

end SolutionSurvey

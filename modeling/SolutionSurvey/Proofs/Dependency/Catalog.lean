import SolutionSurvey.Dependency.Relation
import SolutionSurvey.Proofs.Collection.Distinct
import SolutionSurvey.Proofs.Node.Walk

/-!
# What the catalog knows

The catalog holds the qualified names of all declarations, and every name that is resolved is
resolved to one of them.
-/

namespace SolutionSurvey

namespace Declaration

/-- A type declaration with a name stands at an address of a file. -/
def StandsAt (file : SourceFile) (address : Address) (place : Place) (declaration : Declaration) :
    Prop :=
  file.tree.place? address = some place ∧ declaresType place.node ∧
    ofPlace? file place = some declaration

theorem mem_placesIn {file : SourceFile} {place : Place} :
    place ∈ placesIn file ↔
      ∃ address, file.tree.place? address = some place ∧ declaresType place.node := by
  rw [placesIn, List.mem_filter, Node.mem_places]
  exact exists_and_right.symm

theorem mem_inFile {file : SourceFile} {declaration : Declaration} :
    declaration ∈ inFile file ↔ ∃ address place, StandsAt file address place declaration := by
  rw [inFile, List.mem_filterMap]
  constructor
  · rintro ⟨place, membership, declared⟩
    obtain ⟨address, found, kind⟩ := mem_placesIn.mp membership
    exact ⟨address, place, found, kind, declared⟩
  · rintro ⟨address, place, found, kind, declared⟩
    exact ⟨place, mem_placesIn.mpr ⟨address, found, kind⟩, declared⟩

theorem ofPlace?_eq_some {file : SourceFile} {place : Place} {declaration : Declaration}
    (declared : ofPlace? file place = some declaration) :
    declaration.filePath = file.path.text ∧ declaration.line = place.node.line ∧
      declaration.qualifiedName = qualify declaration.namespaceName declaration.identifier := by
  unfold ofPlace? at declared
  split at declared
  · simp at declared
  · split at declared
    · simp at declared
    · obtain rfl := Option.some.inj declared
      exact ⟨rfl, rfl, rfl⟩

end Declaration

def Declared (files : List SourceFile) (name : String) : Prop :=
  ∃ file ∈ files, ∃ address place declaration,
    Declaration.StandsAt file address place declaration ∧ declaration.qualifiedName = name

theorem declared_append {files added : List SourceFile} {name : String} :
    Declared (files ++ added) name ↔ Declared files name ∨ Declared added name := by
  simp only [Declared, List.mem_append, or_and_right, exists_or]

theorem declared_congr {files others : List SourceFile}
    (same : ∀ file, file ∈ files ↔ file ∈ others) (name : String) :
    Declared files name ↔ Declared others name := by
  simp only [Declared, same]

namespace Catalog

abbrev ofFiles (files : List SourceFile) : Catalog := ofNames (Dependency.namesDeclaredIn files)

theorem mem_namesDeclaredIn {files : List SourceFile} {name : String} :
    name ∈ Dependency.namesDeclaredIn files ↔ Declared files name := by
  simp only [Dependency.namesDeclaredIn, List.mem_map, List.mem_flatMap, Declaration.mem_inFile]
  constructor
  · rintro ⟨declaration, ⟨file, membership, address, place, stands⟩, same⟩
    exact ⟨file, membership, address, place, declaration, stands, same⟩
  · rintro ⟨file, membership, address, place, declaration, stands, same⟩
    exact ⟨declaration, ⟨file, membership, address, place, stands⟩, same⟩

@[simp]
theorem contains_ofNames {names : List String} {name : String} :
    (ofNames names).contains name ↔ name ∈ names := by
  simp [contains, ofNames]

theorem contains_ofFiles {files : List SourceFile} {name : String} :
    (ofFiles files).contains name ↔ Declared files name :=
  contains_ofNames.trans mem_namesDeclaredIn

theorem ofNames_eq_of_mem_iff {names others : List String}
    (same : ∀ name, name ∈ names ↔ name ∈ others) : ofNames names = ofNames others :=
  congrArg Catalog.mk (Distinct.ofList_eq_of_mem_iff same)

end Catalog

namespace Resolution

variable {catalog : Catalog} {imports : Imports} {own : Option String}

theorem contains_of_resolve? {name target : String}
    (found : resolve? catalog imports own name = some target) : catalog.contains target :=
  List.find?_some found

theorem mem_resolveAll {expression target : String} :
    target ∈ resolveAll catalog imports own expression ↔
      ∃ name ∈ namesIn expression, resolve? catalog imports own name = some target :=
  List.mem_filterMap

end Resolution

end SolutionSurvey

import Mathlib.Data.Set.Basic
import SolutionSurvey.Proofs.Dependency.Analysis

/-!
# Dependencies when files are added

More files make the catalog larger.  A name that was resolved is then resolved as before, unless one
of its earlier meanings is declared now; so what the declarations of the old files depend on changes
only with the names that are new.
-/

namespace SolutionSurvey

namespace Resolution

variable {known grown : Catalog} {imports : Imports} {own : Option String} {name target : String}
  (grows : ∀ name, known.contains name → grown.contains name)
include grows

/-- A known name that is found in the larger catalog was found before. -/
theorem resolve?_of_grown (found : resolve? grown imports own name = some target)
    (old : known.contains target) : resolve? known imports own name = some target := by
  obtain ⟨_, earlier, later, split, missed⟩ := List.find?_eq_some_iff_append.mp found
  apply List.find?_eq_some_iff_append.mpr
  refine ⟨old, earlier, later, split, fun other before => ?_⟩
  have missing := missed other before
  rw [Bool.not_eq_true'] at missing ⊢
  by_contra present
  rw [Bool.not_eq_false] at present
  exact absurd (grows other present) (by simp [missing])

/-- What was found stays, or a new name takes its place. -/
theorem exists_resolve?_grown (found : resolve? known imports own name = some target) :
    ∃ other, resolve? grown imports own name = some other ∧
      (other = target ∨ ¬ known.contains other) := by
  have meant := List.mem_of_find?_eq_some found
  have still := grows target (contains_of_resolve? found)
  obtain ⟨other, foundToo⟩ := Option.isSome_iff_exists.mp
    (List.find?_isSome.mpr ⟨target, meant, still⟩)
  refine ⟨other, foundToo, ?_⟩
  by_cases old : known.contains other
  · have before := resolve?_of_grown grows foundToo old
    exact .inl (Option.some.inj (before.symm.trans found))
  · exact .inr old

end Resolution

/-! ### The relations of one declaration -/

namespace Relation

variable {known grown : Catalog} (grows : ∀ name, known.contains name → grown.contains name)
  {references : References} {relation : Relation}
include grows

theorem mem_ofReferences_of_grown (found : relation ∈ ofReferences grown references)
    (old : known.contains relation.target) : relation ∈ ofReferences known references := by
  obtain ⟨⟨candidate, isCandidate, resolved⟩, others⟩ := Dependency.mem_ofReferences.mp found
  obtain ⟨name, isName, leads⟩ := Resolution.mem_resolveAll.mp resolved
  have before := Resolution.resolve?_of_grown grows leads old
  exact Dependency.mem_ofReferences.mpr
    ⟨⟨candidate, isCandidate, Resolution.mem_resolveAll.mpr ⟨name, isName, before⟩⟩, others⟩

/-- A relation stays, or there is one from the same declaration to a new name.  That cannot be a
relation of the declaration to itself, because its own name is an old one. -/
theorem exists_mem_ofReferences_grown (found : relation ∈ ofReferences known references)
    (declared : known.contains references.declaration.qualifiedName) :
    ∃ other ∈ ofReferences grown references, other = relation ∨ ¬ known.contains other.target := by
  obtain ⟨⟨candidate, isCandidate, resolved⟩, different, source, filePath, line⟩ :=
    Dependency.mem_ofReferences.mp found
  obtain ⟨name, isName, leads⟩ := Resolution.mem_resolveAll.mp resolved
  obtain ⟨target, leadsNow, same | new⟩ := Resolution.exists_resolve?_grown grows leads
  · subst same
    refine ⟨relation, Dependency.mem_ofReferences.mpr ⟨?_, different, source, filePath, line⟩, .inl rfl⟩
    exact ⟨candidate, isCandidate, Resolution.mem_resolveAll.mpr ⟨name, isName, leadsNow⟩⟩
  · refine ⟨{ relation with target }, Dependency.mem_ofReferences.mpr ⟨?_, ?_, source, filePath, line⟩,
      .inr new⟩
    · exact ⟨candidate, isCandidate, Resolution.mem_resolveAll.mpr ⟨name, isName, leadsNow⟩⟩
    · intro same
      subst same
      exact new declared

end Relation

/-! ### The relations of all declarations -/

theorem References.declaration_mem_inFile {file : SourceFile} {references : References}
    (listed : references ∈ inFile file) : references.declaration ∈ Declaration.inFile file := by
  obtain ⟨address, place, declaration, stands, rfl⟩ := Dependency.mem_referencesInFile.mp listed
  exact Declaration.mem_inFile.mpr ⟨address, place, stands⟩

theorem Declaration.filePath_of_mem_inFile {file : SourceFile} {declaration : Declaration}
    (listed : declaration ∈ inFile file) : declaration.filePath = file.path.text := by
  obtain ⟨_, _, _, _, made⟩ := mem_inFile.mp listed
  exact (ofPlace?_eq_some made).1

theorem Catalog.contains_append_of_contains {files added : List SourceFile} (name : String)
    (known : (ofFiles files).contains name) : (ofFiles (files ++ added)).contains name :=
  contains_ofFiles.mpr (declared_append.mpr (.inl (contains_ofFiles.mp known)))

namespace Dependency

theorem mem_analyze {files : List SourceFile} {relation : Relation} :
    relation ∈ analyze files ↔ ∃ file ∈ files, ∃ references ∈ References.inFile file,
      relation ∈ Relation.ofReferences (Catalog.ofFiles files) references := by
  simp only [analyze, Distinct.mem_ofList, List.mem_flatMap]
  constructor
  · intro membership
    rcases membership with ⟨references, ⟨file, listed, inFile⟩, found⟩
    exact ⟨file, listed, references, inFile, found⟩
  · intro membership
    rcases membership with ⟨file, listed, references, inFile, found⟩
    exact ⟨references, ⟨file, listed, inFile⟩, found⟩

/-- The relations that go out from a declaration. -/
def relationsOf (declaration : Declaration) (relations : List Relation) : List Relation :=
  relations.filter fun relation => relation.source = declaration.qualifiedName ∧
    relation.filePath = declaration.filePath ∧ relation.line = declaration.line

/-- The names that are declared in the added files only. -/
def newNames (files added : List SourceFile) : Set String :=
  {name | Declared added name ∧ ¬ Declared files name}

/-- What the declarations of some files depend on changes with the names of the added files only. -/
structure ChangesByNewNames (files added : List SourceFile) : Prop where
  gained : ∀ declaration ∈ files.flatMap Declaration.inFile,
    ∀ relation ∈ relationsOf declaration (analyze (files ++ added)),
      relation ∉ analyze files → relation.target ∈ newNames files added
  lost : ∀ declaration ∈ files.flatMap Declaration.inFile,
    ∀ relation ∈ relationsOf declaration (analyze files), relation ∉ analyze (files ++ added) →
      ∃ other ∈ relationsOf declaration (analyze (files ++ added)),
        other.target ∈ newNames files added
  unchanged : newNames files added = ∅ → ∀ declaration ∈ files.flatMap Declaration.inFile,
    relationsOf declaration (analyze (files ++ added)) = relationsOf declaration (analyze files)

theorem mem_relationsOf {declaration : Declaration} {relations : List Relation}
    {relation : Relation} :
    relation ∈ relationsOf declaration relations ↔ relation ∈ relations ∧
      relation.source = declaration.qualifiedName ∧
      relation.filePath = declaration.filePath ∧ relation.line = declaration.line := by
  simp [relationsOf]

section Added

variable {files added : List SourceFile} {relation : Relation}

theorem mem_newNames_of_contains {name : String}
    (present : (Catalog.ofFiles (files ++ added)).contains name)
    (new : ¬ (Catalog.ofFiles files).contains name) : name ∈ newNames files added := by
  rw [Catalog.contains_ofFiles] at present new
  exact ⟨(declared_append.mp present).resolve_left new, new⟩

theorem contains_target {catalog : Catalog} {references : References}
    (found : relation ∈ Relation.ofReferences catalog references) :
    catalog.contains relation.target := by
  obtain ⟨⟨_, _, resolved⟩, _⟩ := mem_ofReferences.mp found
  obtain ⟨_, _, leads⟩ := Resolution.mem_resolveAll.mp resolved
  exact Resolution.contains_of_resolve? leads

/-- A relation that the old files have part in was there before, or leads to a new name. -/
theorem mem_analyze_or_mem_newNames (ofOld : ∃ file ∈ files, relation.filePath = file.path.text)
    (apart : ∀ file ∈ files, ∀ other ∈ added, file.path.text ≠ other.path.text)
    (found : relation ∈ analyze (files ++ added)) :
    relation ∈ analyze files ∨ relation.target ∈ newNames files added := by
  obtain ⟨old, isOld, samePath⟩ := ofOld
  obtain ⟨file, listed, references, inFile, made⟩ := mem_analyze.mp found
  have path : relation.filePath = file.path.text :=
    (mem_ofReferences.mp made).2.2.2.1.trans
      (Declaration.filePath_of_mem_inFile (References.declaration_mem_inFile inFile))
  have stays : file ∈ files := by
    rcases List.mem_append.mp listed with stays | isAdded
    · exact stays
    · exact absurd (samePath.symm.trans path) (apart old isOld file isAdded)
  by_cases known : (Catalog.ofFiles files).contains relation.target
  · refine .inl (mem_analyze.mpr ⟨file, stays, references, inFile, ?_⟩)
    exact Relation.mem_ofReferences_of_grown Catalog.contains_append_of_contains made known
  · exact .inr (mem_newNames_of_contains (contains_target made) known)

/-- A relation of the old files stays, or its declaration depends on a new name. -/
theorem mem_analyze_append_or_exists {declaration : Declaration}
    (found : relation ∈ relationsOf declaration (analyze files)) :
    relation ∈ analyze (files ++ added) ∨
      ∃ other ∈ relationsOf declaration (analyze (files ++ added)),
        other.target ∈ newNames files added := by
  obtain ⟨inAnalysis, source, path, line⟩ := mem_relationsOf.mp found
  obtain ⟨file, listed, references, inFile, made⟩ := mem_analyze.mp inAnalysis
  have declared := Catalog.contains_ofFiles.mpr (declared_of_mem_referencesInFile listed inFile)
  have grows : ∀ name, (Catalog.ofFiles files).contains name →
      (Catalog.ofFiles (files ++ added)).contains name := Catalog.contains_append_of_contains
  obtain ⟨other, madeNow, same | new⟩ :=
    Relation.exists_mem_ofReferences_grown grows made declared
  · subst same
    exact .inl (mem_analyze.mpr ⟨file, List.mem_append_left added listed, references, inFile, madeNow⟩)
  · have inGrown : other ∈ analyze (files ++ added) :=
      mem_analyze.mpr ⟨file, List.mem_append_left added listed, references, inFile, madeNow⟩
    obtain ⟨_, _, sourceThen, pathThen, lineThen⟩ := mem_ofReferences.mp made
    obtain ⟨_, _, sourceNow, pathNow, lineNow⟩ := mem_ofReferences.mp madeNow
    refine .inr ⟨other, mem_relationsOf.mpr ⟨inGrown, ?_, ?_, ?_⟩,
      mem_newNames_of_contains (contains_target madeNow) new⟩
    · exact sourceNow.trans (sourceThen.symm.trans source)
    · exact pathNow.trans (pathThen.symm.trans path)
    · exact lineNow.trans (lineThen.symm.trans line)

theorem ascending_relationsOf (declaration : Declaration) (files : List SourceFile) :
    Ascending Relation.order (relationsOf declaration (analyze files)) :=
  (Distinct.ascending_ofList _).filter _

/-- When files with other paths are added, a declaration gains relations to new names only, it loses
one only where it gains another, and none of its relations change if there is no new name. -/
theorem changesByNewNames_of_apart
    (apart : ∀ file ∈ files, ∀ other ∈ added, file.path.text ≠ other.path.text) :
    ChangesByNewNames files added := by
  have gained : ∀ declaration ∈ files.flatMap Declaration.inFile,
      ∀ relation ∈ relationsOf declaration (analyze (files ++ added)),
        relation ∉ analyze files → relation.target ∈ newNames files added := by
    intro declaration declared relation found isNew
    obtain ⟨file, listed, inFile⟩ := List.mem_flatMap.mp declared
    obtain ⟨inAnalysis, _, path, _⟩ := mem_relationsOf.mp found
    have ofOld := path.trans (Declaration.filePath_of_mem_inFile inFile)
    exact (mem_analyze_or_mem_newNames ⟨file, listed, ofOld⟩ apart inAnalysis).resolve_left isNew
  refine ⟨gained, ?_, ?_⟩
  · intro declaration _ relation found isLost
    exact (mem_analyze_append_or_exists found).resolve_left isLost
  · intro nothing declaration declared
    have notNew := Set.eq_empty_iff_forall_notMem.mp nothing
    apply (ascending_relationsOf _ _).eq_of_mem_iff (ascending_relationsOf _ _)
    intro relation
    constructor
    · intro found
      obtain ⟨_, key⟩ := mem_relationsOf.mp found
      refine mem_relationsOf.mpr ⟨by_contra fun isNew => ?_, key⟩
      exact notNew _ (gained declaration declared relation found isNew)
    · intro found
      obtain ⟨_, key⟩ := mem_relationsOf.mp found
      refine mem_relationsOf.mpr ⟨by_contra fun isLost => ?_, key⟩
      obtain ⟨_, _, new⟩ := (mem_analyze_append_or_exists found).resolve_left isLost
      exact notNew _ new

end Added

/-! ### A type that hides another one -/

section Written

open Node (written sign)

/-- The text `using N;class B;class A:B;`. -/
def importing : SourceFile :=
  fileOf "A.cs"
    [ written "using_directive" [] 1 1 "using N;"
        [sign 1 "using", written "identifier" [] 1 1 "N" [], sign 1 ";"]
    , bareClass "B", derivedClass "A" "B" ]

/-- The text `namespace N{class B;}`. -/
def imported : SourceFile :=
  fileOf "B.cs"
    [ written "namespace_declaration" [] 1 1 "namespace N\x7bclass B;\x7d"
        [ sign 1 "namespace", written "identifier" ["name"] 1 1 "N" []
        , written "declaration_list" ["body"] 1 1 "\x7bclass B;\x7d"
            [sign 1 "\x7b", bareClass "B", sign 1 "\x7d"] ] ]

end Written

/-- The imported type takes the place of the one outside of any namespace. -/
theorem importing_changesByNewNames :
    (∀ file ∈ [importing], ∀ other ∈ [imported], file.path.text ≠ other.path.text) ∧
      ChangesByNewNames [importing] [imported] ∧
      analyze [importing] = [⟨"A", "B", "A.cs", 1⟩] ∧
      analyze ([importing] ++ [imported]) = [⟨"A", "N.B", "A.cs", 1⟩] := by
  have apart : ∀ file ∈ [importing], ∀ other ∈ [imported], file.path.text ≠ other.path.text := by
    decide
  exact ⟨apart, changesByNewNames_of_apart apart, by decide +kernel, by decide +kernel⟩

end Dependency

end SolutionSurvey

import SolutionSurvey.Dependency.Candidates
import SolutionSurvey.Dependency.Resolution

/-!
# Dependencies

A type depends on another one that it refers to.  All declarations are catalogued before any
reference is resolved.
-/

namespace SolutionSurvey

structure Relation where
  source : String
  target : String
  /-- The file that declares the source, and the line of that declaration. -/
  filePath : String
  line : Nat
  deriving DecidableEq, Repr, Inhabited

namespace Relation

def order (left right : Relation) : Ordering :=
  (compare left.source right.source).then
    ((compare left.target right.target).then
      ((compare left.filePath right.filePath).then (compare left.line right.line)))

/-- The relations of one declaration: a type does not depend on itself. -/
def ofReferences (catalog : Catalog) (references : References) : List Relation :=
  let declaration := references.declaration
  let targets := references.candidates.flatMap
    (Resolution.resolveAll catalog references.imports declaration.namespaceName)
  (targets.filter (· != declaration.qualifiedName)).map fun target =>
    { source := declaration.qualifiedName, target, filePath := declaration.filePath
      line := declaration.line }

end Relation

namespace Dependency

def namesDeclaredIn (files : List SourceFile) : List String :=
  (files.flatMap Declaration.inFile).map (·.qualifiedName)

/-- The dependencies between the types of some files, in order. -/
def analyze (files : List SourceFile) : List Relation :=
  let catalog := Catalog.ofNames (namesDeclaredIn files)
  Distinct.ofList Relation.order
    ((files.flatMap References.inFile).flatMap (Relation.ofReferences catalog))

end Dependency

end SolutionSurvey

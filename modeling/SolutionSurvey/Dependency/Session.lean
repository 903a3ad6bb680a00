import SolutionSurvey.Dependency.Relation

/-!
# Sessions

A session first collects declarations and then resolves references.  The catalog is fixed when it
passes from the one to the other, and no step of one phase is possible in the other.
-/

namespace SolutionSurvey.Dependency

inductive Session where
  /-- The names collected so far. -/
  | collecting (names : List String)
  /-- The fixed catalog, and the relations found so far in order. -/
  | resolving (catalog : Catalog) (relations : List Relation)
  deriving DecidableEq, Repr, Inhabited

namespace Session

def start : Session := collecting []

inductive Step where
  | collect (files : List SourceFile)
  | freeze
  | contains (names : List String)
  | resolve (files : List SourceFile)
  | resolveOne (references : References)
  /-- Take the relations and start anew. -/
  | relations
  /-- Forget everything and start anew. -/
  | reset

inductive Answer where
  | done
  | frozen (size : Nat) (isEmpty : Bool)
  | contained (answers : List Bool)
  | relations (relations : List Relation)
  /-- The step belongs to the other phase; nothing has changed. -/
  | wrongPhase
  deriving DecidableEq, Repr, Inhabited

def extend (catalog : Catalog) (relations : List Relation) (references : List References) :
    List Relation :=
  (references.flatMap (Relation.ofReferences catalog)).foldl
    (fun known relation => Distinct.insert Relation.order relation known) relations

def step : Session → Step → Session × Answer
  | collecting names, .collect files => (collecting (names ++ namesDeclaredIn files), .done)
  | collecting names, .freeze =>
      let catalog := Catalog.ofNames names
      (resolving catalog [], .frozen catalog.size catalog.isEmpty)
  | collecting _, .reset => (start, .done)
  | resolving catalog relations, .contains names =>
      (resolving catalog relations, .contained (names.map catalog.contains))
  | resolving catalog relations, .resolve files =>
      (resolving catalog (extend catalog relations (files.flatMap References.inFile)), .done)
  | resolving catalog relations, .resolveOne references =>
      (resolving catalog (extend catalog relations [references]), .done)
  | resolving _ relations, .relations => (start, .relations relations)
  | resolving _ _, .reset => (start, .done)
  | session, _ => (session, .wrongPhase)

def run (session : Session) : List Step → List Answer
  | [] => []
  | next :: rest =>
      let (session, answer) := session.step next
      answer :: run session rest

end Session

end SolutionSurvey.Dependency

import SolutionSurvey.Collection.Distinct
import SolutionSurvey.Dependency.Declaration
import SolutionSurvey.Dependency.Imports

/-!
# Candidates

The candidates of a declaration are the texts in it that may mention other types: names, the types
of members and locals, base types, type arguments and the receivers of calls.  What stands in a
nested declaration belongs to that one.
-/

namespace SolutionSurvey

/-- A declaration with what is needed to find the types it refers to. -/
structure References where
  declaration : Declaration
  imports : Imports
  /-- Type expressions as they are written, each once. -/
  candidates : List String
  deriving DecidableEq, Repr, Inhabited

namespace Candidates

def receiver? (call : Node) : Option Node :=
  (call.child? "function").bind fun callee =>
    if callee.kind == "member_access_expression" then callee.child? "expression" else none

/-- The nodes whose texts are candidates because of a node. -/
def mentionedBy (node : Node) : List Node :=
  match node.kind with
  | "identifier" => [node]
  | "base_list" | "type_argument_list" => node.children.filter Node.named
  | "variable_declaration" | "property_declaration" | "parameter" | "object_creation_expression" =>
      (node.child? "type").toList
  | "invocation_expression" => (receiver? node).toList
  | _ => []

def enters (node : Node) : Bool := !Declaration.declaresType node

/-- Leave out the first child that is the declaration's own name, but not what is in it. -/
def withoutName : List Node → List Node
  | [] => []
  | child :: rest =>
      if child.description.fields.contains "name" then
        if child.kind == "identifier" then child.children ++ rest else child :: rest
      else child :: withoutName rest

/-- The nodes of a declaration that may mention other types. -/
def nodesOf (declaration : Node) : List Node :=
  (Node.boundedAmong enters [declaration] (withoutName declaration.children)).map (·.node)

/-- The candidates of a declaration in ascending order. -/
def ofDeclaration (declaration : Node) : List String :=
  Distinct.ofList compare
    ((((nodesOf declaration).flatMap mentionedBy).map fun node => Text.trim node.text).filter
      (· != ""))

end Candidates

def References.inFile (file : SourceFile) : List References :=
  (Declaration.placesIn file).filterMap fun place =>
    (Declaration.ofPlace? file place).map fun declaration =>
      ⟨declaration, Imports.visibleAt place, Candidates.ofDeclaration place.node⟩

end SolutionSurvey

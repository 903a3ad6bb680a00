import SolutionSurvey.Node.Walk
import SolutionSurvey.SourceFile
import SolutionSurvey.Text.Blank

/-!
# Declarations of types

The types of a solution are its classes, structs, interfaces and records.  A type is known by the
namespace it stands in and its own name, whatever types it is nested in.
-/

namespace SolutionSurvey

structure Declaration where
  identifier : String
  namespaceName : Option String
  qualifiedName : String
  filePath : String
  line : Nat
  deriving DecidableEq, Repr, Inhabited

namespace Declaration

def kinds : List String :=
  ["class_declaration", "struct_declaration", "interface_declaration", "record_declaration",
    "record_struct_declaration"]

def declaresType (node : Node) : Bool := kinds.contains node.kind

/-- The name of a namespace, without white space. -/
def nameOfNamespace? (node : Node) : Option String :=
  match node.child? "name" with
  | none => none
  | some name => if Text.compact name.text == "" then none else some (Text.compact name.text)

/-- The namespace that a place belongs to: that of the whole file if it has one, or else that of the
nearest block around the place. -/
def namespaceAt? (place : Place) : Option String :=
  match place.root.children.find? fun child => child.kind == "file_scoped_namespace_declaration" with
  | some whole => nameOfNamespace? whole
  | none => (place.enclosing? ["namespace_declaration"]).bind nameOfNamespace?

def qualify (namespaceName : Option String) (identifier : String) : String :=
  match namespaceName with
  | some outer => outer ++ "." ++ identifier
  | none => identifier

/-- The declaration at a place; there is none without a name. -/
def ofPlace? (file : SourceFile) (place : Place) : Option Declaration :=
  match place.node.child? "name" with
  | none => none
  | some name =>
      if name.text == "" then none
      else
        let namespaceName := namespaceAt? place
        some
          { identifier := name.text, namespaceName
            qualifiedName := qualify namespaceName name.text
            filePath := file.path.text, line := place.node.line }

/-- The places in a file where types are declared, nested types included. -/
def placesIn (file : SourceFile) : List Place :=
  file.tree.places.filter fun place => declaresType place.node

def inFile (file : SourceFile) : List Declaration := (placesIn file).filterMap (ofPlace? file)

end Declaration

end SolutionSurvey

/-!
# Syntax trees

A node says what kind of thing it stands for and where in the text, and holds the text it covers.
Its children follow in the order of the text, tokens and comments among them.
-/

namespace SolutionSurvey

/-- What a node tells about itself. -/
structure Description where
  kind : String
  /-- The node stands for a rule or a class of tokens rather than for a sign or a keyword. -/
  named : Bool
  /-- The node stands for text that could not be read or for a token that is not in the text. -/
  faulty : Bool
  /-- The node, or something in it, is faulty; that may be a part that is not shown. -/
  damaged : Bool
  /-- The fields by which its parent refers to it. -/
  fields : List String
  line : Nat
  lastLine : Nat
  text : String
  deriving DecidableEq, Repr, Inhabited

inductive Node where
  | node (description : Description) (children : List Node)
  deriving Repr, Inhabited

/-- A way to read texts into syntax trees; it may give up. -/
abbrev TreeReader := String → Option Node

namespace Node

def description : Node → Description
  | node description _ => description

def children : Node → List Node
  | node _ children => children

def kind (node : Node) : String := node.description.kind

def named (node : Node) : Bool := node.description.named

def faulty (node : Node) : Bool := node.description.faulty

def damaged (node : Node) : Bool := node.description.damaged

def line (node : Node) : Nat := node.description.line

def text (node : Node) : String := node.description.text

def lineSpan (node : Node) : Nat := node.description.lastLine - node.line + 1

/-- The first child that is referred to by a field. -/
def child? (node : Node) (field : String) : Option Node :=
  node.children.find? fun child => child.description.fields.contains field

def hasChildOfKind (node : Node) (kinds : List String) : Bool :=
  node.children.any fun child => kinds.contains child.kind

mutual

/-- The line of the first faulty node, looked for in damaged nodes only. -/
def faultLine? : Node → Option Nat
  | node description children =>
      if description.faulty then some description.line else faultLineAmong? children

def faultLineAmong? : List Node → Option Nat
  | [] => none
  | child :: rest =>
      if child.damaged then child.faultLine?.or (faultLineAmong? rest) else faultLineAmong? rest

end

end Node

end SolutionSurvey

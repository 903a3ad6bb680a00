import SolutionSurvey.Collection.Tally
import SolutionSurvey.Node.Walk

/-!
# Cyclomatic complexity

A unit is a member or local function with a body.  It scores one, and one more for each branch in
it that is not in a unit of its own.  The statements outside of any member form one more unit.
-/

namespace SolutionSurvey

inductive UnitKind where
  | method
  | constructor
  | accessor
  | localFunction
  | operator
  | topLevel
  deriving DecidableEq, Repr, Inhabited

structure UnitScore where
  name : String
  kind : UnitKind
  line : Nat
  score : Nat
  deriving DecidableEq, Repr, Inhabited

namespace Complexity

def branchKinds : List String :=
  ["if_statement", "for_statement", "foreach_statement", "for_each_statement", "while_statement",
    "do_statement", "catch_clause", "case_switch_label", "case_pattern_switch_label"]

/-- The kind of unit a node is, if it is one.  Accessors, properties and indexers are units only if
they have a body of their own. -/
def unitKind? (node : Node) : Option UnitKind :=
  match node.kind with
  | "method_declaration" => some .method
  | "constructor_declaration" | "destructor_declaration" => some .constructor
  | "operator_declaration" | "conversion_operator_declaration" => some .operator
  | "local_function_statement" => some .localFunction
  | "accessor_declaration" =>
      if node.hasChildOfKind ["block", "arrow_expression_clause"] then some .accessor else none
  | "property_declaration" | "indexer_declaration" =>
      if node.hasChildOfKind ["arrow_expression_clause"] then some .accessor else none
  | _ => none

def isUnit (node : Node) : Bool := (unitKind? node).isSome

/-- Whether a keyword `case` in a parent marks a label: it does unless it follows a `goto` or its
label is counted itself. -/
def marksLabel (parent : Node) : Bool :=
  parent.kind != "goto_statement" && !branchKinds.contains parent.kind

def isBranch (place : Place) : Bool :=
  branchKinds.contains place.node.kind ||
    (place.node.kind == "case" && !place.node.named &&
      ((place.parent?.map marksLabel).getD false))

/-- The branches below a node that are not in a unit below it. -/
def branches (node : Node) : List Place :=
  (node.bounded fun inner => !isUnit inner).filter isBranch

def memberName? (node : Node) : Option String :=
  if node.kind == "indexer_declaration" then some "this[]"
  else
    match node.child? "name" with
    | none => none
    | some name => if name.text == "" then none else some name.text

/-- The word that says what an accessor does. -/
def accessorWord (node : Node) : String :=
  match node.child? "name" with
  | some name => name.text
  | none =>
      ((node.children.map Node.kind).find? fun kind =>
        ["get", "set", "init", "add", "remove"].contains kind).getD "accessor"

def ownerName? (place : Place) : Option String :=
  (place.enclosing? ["property_declaration", "indexer_declaration", "event_declaration"]).bind
    memberName?

def unitName (place : Place) : String :=
  if place.node.kind == "accessor_declaration" then
    match ownerName? place with
    | some owner => owner ++ "." ++ accessorWord place.node
    | none => accessorWord place.node
  else (memberName? place.node).getD place.node.kind

def scoreUnit? (place : Place) : Option UnitScore :=
  (unitKind? place.node).map fun kind =>
    { name := unitName place, kind, line := place.node.line
      score := 1 + (branches place.node).length }

def topLevelStatements (root : Node) : List Node :=
  root.children.filter fun child => child.kind == "global_statement"

def scoreTopLevel? (root : Node) : Option UnitScore :=
  match topLevelStatements root with
  | [] => none
  | first :: rest =>
      some
        { name := "<top-level>", kind := .topLevel, line := first.line
          score := 1 + sumOf ((first :: rest).map fun statement => (branches statement).length) }

/-- The units of a file by line, in the order of the text within a line. -/
def units (root : Node) : List UnitScore :=
  ((scoreTopLevel? root).toList ++ root.places.filterMap scoreUnit?).mergeSort
    fun left right => left.line ≤ right.line

/-- The complexity of a file: the scores of its units together, or one if it has none. -/
def ofTree (root : Node) : Nat := max (sumOf ((units root).map (·.score))) 1

end Complexity

end SolutionSurvey

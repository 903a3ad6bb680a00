import SolutionSurvey.Node

/-!
# Walks through a tree

A walk lists nodes in the order of the text, each with the nodes around it.  The full walk lists a
node and everything below it; a bounded walk lists what is below a node and does not enter some of
the nodes it meets.
-/

namespace SolutionSurvey

/-- A node together with the nodes around it, innermost first. -/
structure Place where
  node : Node
  around : List Node
  deriving Repr, Inhabited

namespace Place

def parent? (place : Place) : Option Node := place.around.head?

/-- The outermost node around a place, or the node itself. -/
def root (place : Place) : Node := place.around.getLast?.getD place.node

/-- The nearest node around a place that is of one of the given kinds. -/
def enclosing? (place : Place) (kinds : List String) : Option Node :=
  place.around.find? fun node => kinds.contains node.kind

end Place

namespace Node

mutual

/-- The node and everything below it, in the order of the text. -/
def placesWithin (around : List Node) : Node → List Place
  | node description children =>
      ⟨node description children, around⟩ ::
        placesAmong (node description children :: around) children

def placesAmong (around : List Node) : List Node → List Place
  | [] => []
  | child :: rest => placesWithin around child ++ placesAmong around rest

end

/-- Everything in a tree, its root included. -/
def places (root : Node) : List Place := placesWithin [] root

mutual

/-- Everything below a node, except what lies below a node that is not entered. -/
def boundedWithin (enter : Node → Bool) (around : List Node) : Node → List Place
  | node description children =>
      boundedAmong enter (node description children :: around) children

def boundedAmong (enter : Node → Bool) (around : List Node) : List Node → List Place
  | [] => []
  | child :: rest =>
      ⟨child, around⟩ ::
        ((if enter child then boundedWithin enter around child else []) ++
          boundedAmong enter around rest)

end

def bounded (enter : Node → Bool) (start : Node) : List Place := boundedWithin enter [] start

def ofKinds (kinds : List String) (places : List Place) : List Node :=
  (places.map (·.node)).filter fun node => kinds.contains node.kind

end Node

end SolutionSurvey

import SolutionSurvey.Node

/-!
# Trees without lines

What stands further down in a text moves to other lines when something is put in before it.  Trees
that differ in nothing else are the same when their lines are left out.
-/

namespace SolutionSurvey

def Description.withoutLines (description : Description) : Description :=
  { description with line := 0, lastLine := 0 }

namespace Node

mutual

def withoutLines : Node → Node
  | node description children => node description.withoutLines (withoutLinesAmong children)

def withoutLinesAmong : List Node → List Node
  | [] => []
  | child :: rest => child.withoutLines :: withoutLinesAmong rest

end

@[simp]
theorem withoutLinesAmong_eq_map (nodes : List Node) :
    withoutLinesAmong nodes = nodes.map withoutLines := by
  induction nodes with
  | nil => rfl
  | cons child rest inductionHypothesis =>
      rw [withoutLinesAmong, inductionHypothesis, List.map_cons]

theorem children_withoutLines (node : Node) :
    node.withoutLines.children = node.children.map withoutLines := by
  cases node
  rw [withoutLines, withoutLinesAmong_eq_map]
  rfl

@[simp]
theorem kind_withoutLines (node : Node) : node.withoutLines.kind = node.kind := by
  cases node
  rfl

@[simp]
theorem named_withoutLines (node : Node) : node.withoutLines.named = node.named := by
  cases node
  rfl

@[simp]
theorem text_withoutLines (node : Node) : node.withoutLines.text = node.text := by
  cases node
  rfl

@[simp]
theorem fields_withoutLines (node : Node) :
    node.withoutLines.description.fields = node.description.fields := by
  cases node
  rfl

/-- What does not look at lines finds the same child. -/
theorem find?_map_withoutLines {nodes : List Node} {looksFor : Node → Bool}
    (overlooks : ∀ node, looksFor node.withoutLines = looksFor node) :
    (nodes.map withoutLines).find? looksFor = (nodes.find? looksFor).map withoutLines := by
  rw [List.find?_map]
  exact congrArg (Option.map withoutLines) (congrArg (nodes.find? ·) (funext overlooks))

theorem child?_withoutLines (node : Node) (field : String) :
    node.withoutLines.child? field = (node.child? field).map withoutLines := by
  rw [child?, children_withoutLines, find?_map_withoutLines, child?]
  intro child
  rw [fields_withoutLines]

end Node

end SolutionSurvey

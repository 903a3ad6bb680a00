/-!
# Sorted lists without repetitions

Elements are compared by a given order; what the order does not tell apart is kept once.
-/

namespace SolutionSurvey

namespace Distinct

/-- Put an element into its place, unless it is there already. -/
def insert {α : Type} (order : α → α → Ordering) (item : α) : List α → List α
  | [] => [item]
  | known :: rest =>
      match order item known with
      | .lt => item :: known :: rest
      | .eq => known :: rest
      | .gt => known :: insert order item rest

/-- The elements of a list in ascending order, each once. -/
def ofList {α : Type} (order : α → α → Ordering) (items : List α) : List α :=
  items.foldl (fun known item => insert order item known) []

end Distinct

/-- The order that goes by texts first differing in a character; a missing one comes first. -/
def orderOption : Option String → Option String → Ordering
  | none, none => .eq
  | none, some _ => .lt
  | some _, none => .gt
  | some left, some right => compare left right

end SolutionSurvey

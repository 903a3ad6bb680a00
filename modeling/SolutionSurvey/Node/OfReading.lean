import SolutionSurvey.Node
import SolutionSurvey.Reading.Tree

/-!
# From the reading to the syntax tree

A tree as it was read holds parts that only group others.  In the syntax tree such a part is left
out and its children take its place; a field that refers to it passes to the first of them.
-/

namespace SolutionSurvey.Node

open SolutionSurvey.Grammar
open SolutionSurvey.Reading (Symbol Label Tree)

/-- How a part is shown by the production it belongs to. -/
structure Showing where
  /-- The name it is shown under, and whether as a named node. -/
  shownAs : Option (String × Bool)
  fields : List String

def Showing.plain : Showing := ⟨none, []⟩

/-- The name of a symbol, and whether it is a named one. -/
def nameOf (tables : Tables) : Symbol → String × Bool
  | .grammar number =>
      match tables.numbering.terminals[number]? with
      | some terminal => (terminal.name, terminal.named)
      | none =>
          (((tables.numbering.heads[number - tables.numbering.terminals.size]?).map
            (·.name)).getD "", true)
  | .skipping => ("", false)
  | .error => ("ERROR", true)

def describe (tables : Tables) (label : Label) (showing : Showing) : Description :=
  let (kind, named) := showing.shownAs.getD (nameOf tables label.symbol)
  { kind, named
    faulty := label.symbol == .error || label.missing
    damaged := label.cost > 0 || label.symbol == .error
    fields := showing.fields
    line := label.start.row + 1
    lastLine := label.stop.row + 1
    text := label.start.textTo label.stop }

/-- Add fields to the first of some nodes. -/
def addFields (fields : List String) : List Node → List Node
  | [] => []
  | node description children :: rest =>
      node { description with fields := fields ++ description.fields } children :: rest

mutual

/-- The nodes that a part brings to the syntax tree. -/
def ofPart (tables : Tables) (showing : Showing) : Tree → List Node
  | .node label parts =>
      let steps := ((label.production.bind fun index => tables.productions[index]?).map
        (·.steps.toList)).getD []
      let children := ofParts tables steps parts
      if showing.shownAs.isSome || label.visible then
        [node (describe tables label showing) children]
      else addFields showing.fields children

/-- The nodes that the parts of a production bring, extra parts standing between them. -/
def ofParts (tables : Tables) (steps : List Step) : List Tree → List Node
  | [] => []
  | .node label parts :: rest =>
      match label.extra, steps with
      | false, step :: steps =>
          ofPart tables ⟨step.shownAs, step.field.toList⟩ (.node label parts) ++
            ofParts tables steps rest
      | _, steps => ofPart tables .plain (.node label parts) ++ ofParts tables steps rest

end

/-- The syntax tree of a reading. -/
def ofReading (tables : Tables) (tree : Tree) : Option Node := (ofPart tables .plain tree).head?

end SolutionSurvey.Node

import SolutionSurvey.Collection.Table
import SolutionSurvey.Node.Walk
import SolutionSurvey.Text.Affix
import SolutionSurvey.Text.Blank

/-!
# Imports

A `using` directive imports a namespace, gives a type another name, or imports the members of a
type.  The directives that count at a place are those of the nodes around it.
-/

namespace SolutionSurvey

inductive Directive where
  /-- The types of a namespace can be named simply. -/
  | opens (name : String)
  | alias (name target : String)
  /-- Members are imported, but no types. -/
  | members
  deriving DecidableEq, Repr, Inhabited

namespace Directive

/-- Names may say that they start at the outermost namespace; that is left out. -/
def globalMark : String := "global::"

def ofBody? (body : String) : Option Directive :=
  if (Text.after? "static " body).isSome then some .members
  else
    match Text.splitAtFirst? '=' body with
    | some (name, target) =>
        let name := Text.trim name
        let target := Text.compact target
        if name == "" || target == "" then none
        else some (.alias name (Text.dropAll globalMark target))
    | none =>
        let name := Text.compact body
        if name == "" then none else some (.opens (Text.dropAll globalMark name))

def parse? (text : String) : Option Directive :=
  let body := Text.trim (Text.trimEndOf (· == ';') (Text.trim text))
  let body := ((Text.after? "global" body).map Text.trimStart).getD body
  ((Text.after? "using" body).map Text.trim).bind ofBody?

end Directive

structure Imports where
  /-- The imported namespaces, those imported further out first. -/
  namespaces : List String
  aliases : Table String
  deriving DecidableEq, Repr, Inhabited

namespace Imports

def empty : Imports := ⟨[], []⟩

def add (imports : Imports) : Directive → Imports
  | .opens name =>
      if imports.namespaces.contains name then imports
      else { imports with namespaces := imports.namespaces ++ [name] }
  | .alias name target => { imports with aliases := imports.aliases.insert name target }
  | .members => imports

def ofDirectives (directives : List Directive) : Imports := directives.foldl add empty

def directivesOf (node : Node) : List Directive :=
  (node.children.filter fun child => child.kind == "using_directive").filterMap fun child =>
    Directive.parse? child.text

/-- The imports that count at a place: those of the nodes around it, outer ones first. -/
def visibleAt (place : Place) : Imports :=
  ofDirectives (place.around.reverse.flatMap directivesOf)

end Imports

end SolutionSurvey

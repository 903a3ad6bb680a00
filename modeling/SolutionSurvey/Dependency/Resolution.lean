import SolutionSurvey.Collection.Distinct
import SolutionSurvey.Dependency.Imports
import SolutionSurvey.Text.Alphabetic

/-!
# Resolving names

A name is looked up in the catalog of all declared types with the help of the imports and of the
namespace it is used in.
-/

namespace SolutionSurvey

/-- The qualified names of all declared types, in ascending order. -/
structure Catalog where
  names : List String
  deriving DecidableEq, Repr, Inhabited

namespace Catalog

def ofNames (names : List String) : Catalog := ⟨Distinct.ofList compare names⟩

def contains (catalog : Catalog) (name : String) : Bool := catalog.names.contains name

def size (catalog : Catalog) : Nat := catalog.names.length

def isEmpty (catalog : Catalog) : Bool := catalog.names.isEmpty

end Catalog

namespace Resolution

def separates (c : Char) : Bool :=
  ['<', '>', ',', '(', ')', '[', ']', '?', '*'].contains c || Text.isBlank c

def startsName (stretch : List Char) : Bool :=
  match stretch with
  | [] => false
  | c :: _ => Text.isAlphabetic c || c == '_' || c == '@'

/-- The names in a type expression, in order, simple or dotted. -/
def namesIn (expression : String) : List String :=
  let stretches := Text.pieces separates (Text.without Directive.globalMark expression).toList
  ((stretches.map (Text.trimList (· == '.'))).filter startsName).map fun name =>
    String.ofList (name.dropWhile (· == '@'))

/-- What a name may stand for in full, in the order in which it is looked up.  An alias stands for
its target; a dotted name is in full already; a simple one is looked for in the imported namespaces,
in the namespace it is used in, and outside of any. -/
def meanings (imports : Imports) (own : Option String) (name : String) : List String :=
  let (head, rest) :=
    match Text.splitAtFirst? '.' name with
    | some (head, rest) => (head, some rest)
    | none => (name, none)
  match imports.aliases.get? head, rest with
  | some target, some rest => [target ++ "." ++ rest]
  | some target, none => [target]
  | none, some _ => [name]
  | none, none =>
      (imports.namespaces ++ own.toList).map (fun outer => outer ++ "." ++ name) ++ [name]

def resolve? (catalog : Catalog) (imports : Imports) (own : Option String) (name : String) :
    Option String :=
  (meanings imports own name).find? catalog.contains

/-- The declared types that a type expression refers to, in the order of its names. -/
def resolveAll (catalog : Catalog) (imports : Imports) (own : Option String)
    (expression : String) : List String :=
  (namesIn expression).filterMap (resolve? catalog imports own)

end Resolution

end SolutionSurvey

import SolutionSurvey.Text.Blank

/-!
# Paths

A path is kept as it is written.  Doubled and trailing separators and the component `.` inside it
carry no meaning: paths are compared by their components, and a path is cut before a component
together with the separators around it.
-/

namespace SolutionSurvey

inductive Component where
  | root
  /-- The component `.` at the very start. -/
  | here
  /-- The component `..`. -/
  | up
  | name (text : String)
  deriving DecidableEq, Repr, Inhabited

namespace Component

def rank : Component → Nat
  | root => 0
  | here => 1
  | up => 2
  | name _ => 3

/-- The order of components: root, `.`, `..`, then names by their characters. -/
def order (left right : Component) : Ordering :=
  match left, right with
  | name left, name right => compare left right
  | left, right => compare left.rank right.rank

end Component

/-- A path as it is written.  What is no Unicode text in it has something else in its place. -/
structure Path where
  text : String
  deriving DecidableEq, Repr, Inhabited

namespace Path

/-- The stretches of a path between its separators. -/
def pieces (path : Path) : List String :=
  (Text.pieces (· == '/') path.text.toList).map String.ofList

/-- A stretch that is no component: an empty one, or `.`. -/
def isIdle (piece : String) : Bool := piece == "" || piece == "."

/-- The names that entries of a directory can have. -/
def properName (name : String) : Bool :=
  name != "" && name != "." && name != ".." && !name.toList.contains '/'

def componentOf (piece : String) : Component := if piece == ".." then .up else .name piece

/-- How a path starts: at the root, with `.`, or with its first component. -/
def start (path : Path) : Option Component :=
  match path.pieces with
  | "." :: _ => some .here
  | "" :: _ :: _ => some .root
  | _ => none

/-- The stretches after the start of a path. -/
def body (path : Path) : List String :=
  if path.start.isSome then path.pieces.tail else path.pieces

def components (path : Path) : List Component :=
  path.start.toList ++ (path.body.filter (!isIdle ·)).map componentOf

def same (left right : Path) : Bool := left.components == right.components

def orderAll : List Component → List Component → Ordering
  | [], [] => .eq
  | [], _ :: _ => .lt
  | _ :: _, [] => .gt
  | left :: lefts, right :: rights => (left.order right).then (orderAll lefts rights)

/-- The order of paths, component by component. -/
def order (left right : Path) : Ordering := orderAll left.components right.components

def isAbsolute (path : Path) : Bool := path.start == some .root

/-- Write a path from its start and the stretches after it. -/
def ofBody (start : Option Component) (body : List String) : Path :=
  let rest := "/".intercalate body
  match start with
  | some .root => ⟨"/" ++ rest⟩
  | some _ => ⟨if body.isEmpty then "." else "./" ++ rest⟩
  | none => ⟨rest⟩

/-- The stretches of a body without idle ones at the end. -/
def dropIdle (body : List String) : List String := (body.reverse.dropWhile isIdle).reverse

def parent? (path : Path) : Option Path :=
  match path.components.getLast? with
  | none | some .root => none
  | some .here => some ⟨""⟩
  | some _ => some (ofBody path.start (dropIdle (dropIdle path.body).dropLast))

/-- The last component, if it is a name. -/
def fileName? (path : Path) : Option String :=
  match path.components.getLast? with
  | some (.name text) => some text
  | _ => none

/-- The last component, or nothing where there is no name. -/
def fileName (path : Path) : String := path.fileName?.getD ""

/-- A file name before and after its last dot; a dot at the start does not count. -/
def splitName (name : String) : String × Option String :=
  let back := name.toList.reverse
  let extension := (back.takeWhile (· != '.')).reverse
  match (back.dropWhile (· != '.')).tail with
  | [] => (name, none)
  | stem => (String.ofList stem.reverse, some (String.ofList extension))

def extension? (path : Path) : Option String := path.fileName?.bind fun name => (splitName name).2

def stem (path : Path) : String := ((path.fileName?).map fun name => (splitName name).1).getD ""

/-- A path seen from another one. -/
def join (base path : Path) : Path :=
  if path.isAbsolute then path
  else
    match base.text.toList.getLast? with
    | none | some '/' => ⟨base.text ++ path.text⟩
    | some _ => ⟨base.text ++ "/" ++ path.text⟩

def depth (path : Path) : Nat := path.components.length

end Path

end SolutionSurvey

import SolutionSurvey.Path

/-!
# Directory trees

A tree holds files, directories and symbolic links.  Paths are followed from its root directory;
nothing is known of what lies outside, so absolute paths and paths that climb out lead nowhere.
-/

namespace SolutionSurvey

/-- What a file holds: a text, or bytes that need not be one. -/
inductive Content where
  | text (value : String)
  | bytes (value : ByteArray)
  deriving Inhabited

def Content.text? : Content → Option String
  | .text value => some value
  | .bytes value => String.fromUTF8? value

inductive Entry where
  | file (content : Content)
  | directory (entries : List (String × Entry))
  /-- A link to a path that starts at the directory of the link. -/
  | link (target : Path)
  deriving Inhabited

namespace FileTree

mutual

/-- Whether a check passes for every entry below an entry. -/
def everyBelow (check : String → Entry → Bool) : Entry → Bool
  | .directory entries => everyAmong check entries
  | _ => true

def everyAmong (check : String → Entry → Bool) : List (String × Entry) → Bool
  | [] => true
  | (name, entry) :: rest => check name entry && everyBelow check entry && everyAmong check rest

end

def areProper (entries : List (String × Entry)) : Bool :=
  everyAmong (fun name _ => Path.properName name) entries

/-- Whether no name occurs twice among the entries of a directory. -/
def differ (entries : List (String × Entry)) : Bool := decide (entries.map (·.1)).Nodup

def areApart (entries : List (String × Entry)) : Bool :=
  differ entries && everyAmong (fun _ entry =>
    match entry with
    | .directory inner => differ inner
    | _ => true) entries

end FileTree

structure FileTree where
  entries : List (String × Entry)
  /-- No entry has a name that a path could take for something else. -/
  wellNamed : FileTree.areProper entries
  /-- No directory lists a name twice. -/
  namesApart : FileTree.areApart entries

instance : Inhabited FileTree := ⟨⟨[], rfl, rfl⟩⟩

/-- Something found in a tree: what it is, and the directories around it, innermost first. -/
structure Location where
  entry : Entry
  around : List (List (String × Entry))
  deriving Inhabited

namespace Location

def entries? (location : Location) : Option (List (String × Entry)) :=
  match location.entry with
  | .directory entries => some entries
  | _ => none

/-- Go on along the stretches of a path; `follow` goes on along a link. -/
def walkWith (follow : Location → List String → Option Location) (location : Location) :
    List String → Option Location
  | [] => some location
  | piece :: rest =>
      match location.entry with
      | .directory entries =>
          if Path.isIdle piece then walkWith follow location rest
          else if piece == ".." then
            match location.around with
            | [] => none
            | outer :: around => walkWith follow ⟨.directory outer, around⟩ rest
          else
            match entries.lookup piece with
            | none => none
            | some (.link target) =>
                if target.isAbsolute then none else follow location (target.pieces ++ rest)
            | some entry => walkWith follow ⟨entry, entries :: location.around⟩ rest
      | _ => none

/-- Go on along the stretches of a path, following so many links at most. -/
def walk : Nat → Location → List String → Option Location
  | 0 => walkWith fun _ _ => none
  | links + 1 => walkWith (walk links)

end Location

namespace FileTree

/-- How many links are followed on one path. -/
def linkLimit : Nat := 40

def root (tree : FileTree) : Location := ⟨.directory tree.entries, []⟩

def find? (tree : FileTree) (path : Path) : Option Location :=
  if path.text == "" || path.isAbsolute then none else tree.root.walk linkLimit path.pieces

def holds (tree : FileTree) (path : Path) : Bool := (tree.find? path).isSome

def isFile (tree : FileTree) (path : Path) : Bool :=
  match tree.find? path with
  | some ⟨.file _, _⟩ => true
  | _ => false

def isDirectory (tree : FileTree) (path : Path) : Bool :=
  match tree.find? path with
  | some ⟨.directory _, _⟩ => true
  | _ => false

def list? (tree : FileTree) (path : Path) : Option (List String) :=
  (tree.find? path).bind fun location => location.entries?.map fun entries => entries.map (·.1)

def content? (tree : FileTree) (path : Path) : Option Content :=
  match tree.find? path with
  | some ⟨.file content, _⟩ => some content
  | _ => none

mutual

/-- How many directories deep an entry goes. -/
def height : Entry → Nat
  | .directory entries => heightOfAll entries + 1
  | _ => 0

def heightOfAll : List (String × Entry) → Nat
  | [] => 0
  | (_, entry) :: rest => max (height entry) (heightOfAll rest)

end

/-- No path that leads to something passes through more names than this: between two links it only
goes down. -/
def deepest (tree : FileTree) : Nat := (linkLimit + 1) * (heightOfAll tree.entries + 1)

/-! ### Building a tree -/

/-- Put an entry into a directory in place of what bore its name. -/
def place (name : String) (entry : Entry) (entries : List (String × Entry)) :
    List (String × Entry) :=
  if entries.any (·.1 == name) then
    entries.map fun known => if known.1 == name then (name, entry) else known
  else entries ++ [(name, entry)]

/-- Put an entry at the end of a row of names, making the directories on the way. -/
def insertAt (entry : Entry) (entries : List (String × Entry)) : List String →
    List (String × Entry)
  | [] => entries
  | [name] =>
      match entry, entries.lookup name with
      | .directory [], some (.directory _) => entries
      | entry, _ => place name entry entries
  | name :: rest =>
      let inner :=
        match entries.lookup name with
        | some (.directory inner) => inner
        | _ => []
      place name (.directory (insertAt entry inner rest)) entries

/-- The tree of some entries, if their names can stand in one. -/
def ofEntries? (entries : List (String × Entry)) : Option FileTree :=
  if sound : areProper entries ∧ areApart entries then some ⟨entries, sound.1, sound.2⟩ else none

def ofList? (entries : List (Path × Entry)) : Option FileTree :=
  ofEntries? (entries.foldl (fun placed (path, entry) =>
    insertAt entry placed (path.pieces.filter Path.properName)) [])

end FileTree

end SolutionSurvey

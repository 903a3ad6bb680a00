import SolutionSurvey.FileTree
import SolutionSurvey.Settings

/-!
# The source files of a directory

All files below a directory that have the right extension are its sources, except those in excluded
directories.  A directory that cannot be listed has none.
-/

namespace SolutionSurvey

/-- What a system lets a survey see of a tree.  Paths can be too long to be looked up, directories
can be closed to the reader, single entries can fail to be read, and names need not be Unicode
texts. -/
structure Access where
  looksUp : Path → Bool
  lists : Path → Bool
  shows : Path → String → Bool
  isText : String → Bool

namespace Access

/-- Everything is open and every name is a text. -/
def full : Access := ⟨fun _ => true, fun _ => true, fun _ _ => true, fun _ => true⟩

/-- Paths of so many bytes can be looked up, and no longer ones. -/
def upTo (limit : Nat) : Access where
  looksUp path := path.text.utf8ByteSize ≤ limit
  lists path := path.text.utf8ByteSize ≤ limit
  shows _ _ := true
  isText _ := true

/-- The longest path that is commonly looked up, in bytes. -/
def longest : Nat := 4095

variable (access : Access) (tree : FileTree)

def list? (directory : Path) : Option (List String) :=
  if access.lists directory then
    (tree.list? directory).map fun names => names.filter (access.shows directory)
  else none

def isDirectory (path : Path) : Bool := access.looksUp path && tree.isDirectory path

end Access

namespace Sources

def lower (text : String) : List Char := text.toList.map Char.toLower

/-- Whether two texts agree but for the case of ASCII letters. -/
def agree (left right : String) : Bool := lower left == lower right

def hasExtension (access : Access) (extension : String) (path : Path) : Bool :=
  (path.extension?.map fun own => access.isText own && agree extension own).getD false

def isLeftOut (access : Access) (settings : Settings) (path : Path) : Bool :=
  (path.fileName?.map fun name => access.isText name && settings.excludes name).getD false

section Search

variable (access : Access) (tree : FileTree) (settings : Settings)

/-- The sources below a directory, so many directories deep. -/
def below : Nat → Path → List Path
  | 0, _ => []
  | depth + 1, directory =>
      ((access.list? tree directory).getD []).flatMap fun name =>
        let path := directory.join ⟨name⟩
        if access.isDirectory tree path then
          if isLeftOut access settings path then [] else below depth path
        else if hasExtension access settings.extension path then [path]
        else []

/-- The sources that can be found below a directory, ordered by path. -/
def collectWith (directory : Path) : List Path :=
  (below access tree settings (tree.deepest + 1) directory).mergeSort fun left right =>
    (left.order right).isLE

/-- The sources of a directory where nothing is closed. -/
def collect (directory : Path) : List Path := collectWith .full tree settings directory

end Search

end Sources

end SolutionSurvey

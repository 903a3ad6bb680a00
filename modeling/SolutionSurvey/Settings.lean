/-!
# Settings of a survey
-/

namespace SolutionSurvey

inductive BrokenFiles where
  /-- Leave the file out. -/
  | skip
  /-- Give the whole survey up. -/
  | abort
  deriving DecidableEq, Repr, Inhabited

structure Settings where
  /-- The names of directories that are not entered. -/
  excluded : List String
  /-- The extension of source files, without the dot. -/
  extension : String
  brokenFiles : BrokenFiles
  findDuplicates : Bool
  findDependencies : Bool
  deriving DecidableEq, Repr

namespace Settings

def standard : Settings :=
  { excluded := ["bin", "obj"], extension := "cs", brokenFiles := .skip, findDuplicates := true
    findDependencies := true }

/-- Exclude one more name, if it is not excluded yet. -/
def excludeOne (settings : Settings) (name : String) : Settings :=
  if settings.excluded.contains name then settings
  else { settings with excluded := settings.excluded ++ [name] }

def exclude (settings : Settings) (names : List String) : Settings :=
  names.foldl excludeOne settings

/-- Whether directories of a name are left out: hidden ones, and those whose names are excluded. -/
def excludes (settings : Settings) (name : String) : Bool :=
  name.toList.head? == some '.' || settings.excluded.contains name

end Settings

end SolutionSurvey

import SolutionSurvey.CSharp.Lexis
import SolutionSurvey.Command.Program

/-!
# The executable

The working directory is taken in as a directory tree, links included, and the program is run on it.
Only files that a survey may read are taken in with what they hold.
-/

namespace SolutionSurvey.Executable

/-- Whether a survey may read a file: a source, or the file that the survey starts from. -/
def mayRead (solution : String) (name : String) : Bool :=
  Sources.hasExtension .full Settings.standard.extension ⟨name⟩ ||
    (Path.mk solution).fileName? == some name

/-- The target of a link that lies so deep below the root, seen from the directory of the link. -/
def linkTarget (root target : String) (depth : Nat) : Path :=
  match (Text.after? root target).map String.toList with
  | some [] => ⟨String.join (List.replicate depth "../") ++ "."⟩
  | some ('/' :: inside) =>
      ⟨String.join (List.replicate depth "../") ++ String.ofList inside⟩
  | _ => ⟨target⟩

/-- What a file holds, if a survey may read it. -/
def contentOf (wanted : String → Bool) (found : IO.FS.DirEntry) : IO Content := do
  if wanted found.fileName then return .bytes (← IO.FS.readBinFile found.path)
  else return .text ""

/-- The entries of a directory on disk; one that cannot be listed has none. -/
partial def entriesOf (wanted : String → Bool) (root directory : String) (depth : Nat) :
    IO (List (String × Entry)) := do
  let path ← IO.FS.realPath directory
  let listing ← try path.readDir catch _ => pure #[]
  let mut entries := #[]
  for found in listing do
    let metadata ← found.path.symlinkMetadata
    match metadata.type with
    | .dir =>
        let inner ← entriesOf wanted root found.path.toString (depth + 1)
        entries := entries.push (found.fileName, Entry.directory inner)
    | .symlink =>
        let target ← IO.FS.realPath found.path
        entries := entries.push (found.fileName, Entry.link (linkTarget root target.toString depth))
    | _ => entries := entries.push (found.fileName, Entry.file (← contentOf wanted found))
  return entries.toList

/-- The directory tree below the working directory. -/
def workingTree (wanted : String → Bool) : IO FileTree := do
  let root ← IO.FS.realPath "."
  let entries ← entriesOf wanted root.toString root.toString 0
  return (FileTree.ofEntries? entries).getD default

def environment : IO CommandLine.Environment := do
  let path ← IO.getEnv CommandLine.Environment.pathVariable
  let format ← IO.getEnv CommandLine.Environment.formatVariable
  let strict ← IO.getEnv CommandLine.Environment.strictVariable
  return ⟨path, format, strict⟩

end SolutionSurvey.Executable

open SolutionSurvey in
def main (arguments : List String) : IO UInt32 := do
  let environment ← Executable.environment
  let tree ←
    match CommandLine.parse environment arguments with
    | .error refusal => do
        IO.eprint refusal.message
        pure default
    | .ok line => Executable.workingTree (Executable.mayRead line.solution)
  let outcome := Program.run CSharp.parse tree environment arguments
  IO.print outcome.output
  IO.eprint (outcome.message.getD "")
  return outcome.code.toUInt32

import SolutionSurvey.Command.Line
import SolutionSurvey.Report.Rendering
import SolutionSurvey.Solution
import SolutionSurvey.Survey

/-!
# The program

The program reads its command line, surveys the solution and writes the report.
-/

namespace SolutionSurvey.Program

def name : String := "solution-metrics"

def version : String := "0.3.0"

def usage : String := "Usage: " ++ name ++ " [OPTIONS] <SOLUTION>\n"

structure Outcome where
  code : Nat
  output : String
  /-- The message on the error channel. -/
  message : Option String
  deriving DecidableEq, Repr, Inhabited

def render? (format : OutputFormat) (report : Report) : Option String :=
  match format with
  | .text => report.toText?
  | .json => some report.toJson.pretty

/-- The outcome of arguments that lead to no survey. -/
def Outcome.ofRefusal : Refusal → Outcome
  | .help => ⟨0, usage, none⟩
  | .version => ⟨0, name ++ " " ++ version ++ "\n", none⟩
  | _ => ⟨2, "", none⟩

def Outcome.ofFailure (cause : Failure) : Outcome :=
  ⟨cause.exitCode, "", some ("Error: " ++ cause.message ++ "\n")⟩

def survey (read : TreeReader) (tree : FileTree) (line : CommandLine) : Except Failure Report := do
  let solution ← Solution.ofPath tree ⟨line.solution⟩
  Survey.run read tree line.settings solution

def run (read : TreeReader) (tree : FileTree) (environment : CommandLine.Environment)
    (arguments : List String) : Outcome :=
  match CommandLine.parse environment arguments with
  | .error refusal => .ofRefusal refusal
  | .ok line =>
      match survey read tree line with
      | .error cause => .ofFailure cause
      | .ok report =>
          match render? line.format report with
          | some text => ⟨0, text ++ "\n", none⟩
          | none => ⟨101, "", none⟩

end SolutionSurvey.Program

import SolutionSurvey.Path

/-!
# Failures

What can go wrong in a survey, how it is worded, and the exit code it leads to.
-/

namespace SolutionSurvey

inductive Flaw where
  /-- The text cannot be read at a line. -/
  | near (line : Nat)
  | noTree
  | notUnicode
  | stated (reason : String)
  deriving DecidableEq, Repr, Inhabited

def Flaw.message : Flaw → String
  | near line => "syntax error near line " ++ toString line
  | noTree => "parser produced no tree"
  | notUnicode => "invalid UTF-8"
  | stated reason => reason

inductive AccessProblem where
  | notUnicode
  | isDirectory
  | stated (reason : String)
  deriving DecidableEq, Repr, Inhabited

def AccessProblem.message : AccessProblem → String
  | notUnicode => "stream did not contain valid UTF-8"
  | isDirectory => "Is a directory (os error 21)"
  | stated reason => reason

inductive Failure where
  | notFound (path : Path)
  | unparsable (path : Path) (flaw : Flaw)
  | noGrammar (reason : String)
  | several (causes : List Failure)
  | access (problem : AccessProblem)
  deriving Repr, Inhabited

namespace Failure

mutual

def message : Failure → String
  | notFound path => "not found: " ++ path.text
  | unparsable path flaw => "failed to parse " ++ path.text ++ ": " ++ flaw.message
  | noGrammar reason => "failed to load C# grammar: " ++ reason
  | several causes =>
      toString causes.length ++ " analysis failures: " ++ "; ".intercalate (messages causes)
  | access problem => "IO error: " ++ problem.message

def messages : List Failure → List String
  | [] => []
  | cause :: rest => message cause :: messages rest

end

def exitCode : Failure → Nat
  | notFound _ => 2
  | unparsable _ _ => 3
  | noGrammar _ => 4
  | several _ => 5
  | access _ => 1

/-- The failures of a pass as one failure; there is none if nothing failed. -/
def gather : List Failure → Option Failure
  | [] => none
  | [cause] => some cause
  | causes => some (several causes)

end Failure

end SolutionSurvey

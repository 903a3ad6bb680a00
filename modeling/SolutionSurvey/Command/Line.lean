import SolutionSurvey.Settings
import SolutionSurvey.Text.Affix
import SolutionSurvey.Text.Blank

/-!
# The command line

Arguments are read from left to right.  An option that wants a value takes the next argument; what
was read is judged when the next option or positional argument is reached, or at the end.
Environment variables fill in what the arguments leave open.
-/

namespace SolutionSurvey

inductive OutputFormat where
  | text
  | json
  deriving DecidableEq, Repr, Inhabited

/-- Why arguments do not lead to a survey. -/
inductive Refusal where
  | missingArgument
  | unknownArgument
  | invalidValue
  /-- An option that counts once is given again. -/
  | conflict
  | tooManyValues
  /-- The usage is asked for. -/
  | help
  | version
  deriving DecidableEq, Repr, Inhabited

def Refusal.message : Refusal → String
  | missingArgument => "error: a solution manifest or a project file is required\n"
  | unknownArgument => "error: there is an argument that is not known\n"
  | invalidValue => "error: there is an argument without a valid value\n"
  | conflict => "error: there is an argument that cannot be given twice\n"
  | tooManyValues => "error: there is an argument that takes no value\n"
  | help | version => ""

structure CommandLine where
  solution : String
  format : OutputFormat
  strict : Bool
  exclude : List String
  noDuplicates : Bool
  noDependencies : Bool
  verbose : Bool
  deriving DecidableEq, Repr, Inhabited

namespace CommandLine

def settings (line : CommandLine) : Settings :=
  { Settings.standard with
    findDuplicates := !line.noDuplicates
    findDependencies := !line.noDependencies
    brokenFiles := if line.strict then .abort else .skip }.exclude line.exclude

def logLevel (line : CommandLine) : String := if line.verbose then "debug" else "warn"

/-! ### Reading arguments -/

inductive Flag where
  | strict
  | noDuplicates
  | noDependencies
  | verbose
  | help
  | version
  deriving DecidableEq, Repr

inductive Setting where
  | format
  | exclude
  deriving DecidableEq, Repr

inductive Switch where
  | flag (flag : Flag)
  | setting (setting : Setting)
  deriving DecidableEq, Repr

def long? : String → Option Switch
  | "format" => some (.setting .format)
  | "exclude" => some (.setting .exclude)
  | "strict" => some (.flag .strict)
  | "no-duplicates" => some (.flag .noDuplicates)
  | "no-dependencies" => some (.flag .noDependencies)
  | "verbose" => some (.flag .verbose)
  | "help" => some (.flag .help)
  | "version" => some (.flag .version)
  | _ => none

def short? : Char → Option Switch
  | 'f' => some (.setting .format)
  | 'v' => some (.flag .verbose)
  | 'h' => some (.flag .help)
  | 'V' => some (.flag .version)
  | _ => none

/-- What was read but not judged yet. -/
inductive Pending where
  | nothing
  | solution (value : String)
  | setting (setting : Setting) (value : Option String)
  deriving DecidableEq, Repr

structure Given where
  solution : Option String
  format : Option OutputFormat
  strict : Option Bool
  exclude : List String
  noDuplicates : Bool
  noDependencies : Bool
  verbose : Bool
  pending : Pending
  deriving DecidableEq, Repr

def Given.nothing : Given := ⟨none, none, none, [], false, false, false, .nothing⟩

namespace Given

def format? : String → Except Refusal OutputFormat
  | "text" => .ok .text
  | "json" => .ok .json
  | _ => .error .invalidValue

def solution? (value : String) : Except Refusal String :=
  if value == "" then .error .invalidValue else .ok value

def set (given : Given) (setting : Setting) (value : String) : Except Refusal Given :=
  match setting with
  | .exclude =>
      let names := (Text.pieces (· == ',') value.toList).map String.ofList
      .ok { given with exclude := given.exclude ++ names }
  | .format =>
      if given.format.isSome then .error .conflict
      else do
        let format ← format? value
        return { given with format := some format }

/-- Judge what is pending. -/
def settle (given : Given) : Except Refusal Given :=
  let settled := { given with pending := .nothing }
  match given.pending with
  | .nothing => .ok settled
  | .solution value => do
      let solution ← solution? value
      return { settled with solution := some solution }
  | .setting _ none => .error .invalidValue
  | .setting setting (some value) => settled.set setting value

def raise (given : Given) (flag : Flag) : Except Refusal Given := do
  let given ← given.settle
  match flag with
  | .strict =>
      if given.strict.isSome then throw .conflict else return { given with strict := some true }
  | .noDuplicates =>
      if given.noDuplicates then throw .conflict else return { given with noDuplicates := true }
  | .noDependencies =>
      if given.noDependencies then throw .conflict else return { given with noDependencies := true }
  | .verbose => if given.verbose then throw .conflict else return { given with verbose := true }
  | .help => throw .help
  | .version => throw .version

/-- Take in an option that wants a value; a value may be attached to it. -/
def expect (given : Given) (setting : Setting) (attached : Option String) :
    Except Refusal Given := do
  let given ← given.settle
  match attached with
  | some value => given.set setting value
  | none => return { given with pending := .setting setting none }

def addLong (given : Given) (text : String) : Except Refusal Given :=
  let (name, attached) :=
    match Text.splitAtFirst? '=' text with
    | some (name, value) => (name, some value)
    | none => (text, none)
  match long? name with
  | none => .error .unknownArgument
  | some (.setting setting) => given.expect setting attached
  | some (.flag flag) =>
      if attached.isSome then .error .tooManyValues else given.raise flag

/-- Take in options of one letter; the first that wants a value takes the rest as its value. -/
def addShort (given : Given) : List Char → Except Refusal Given
  | [] => .ok given
  | c :: rest =>
      match short? c with
      | none => .error .unknownArgument
      | some (.flag flag) => do addShort (← given.raise flag) rest
      | some (.setting setting) =>
          match rest with
          | [] => given.expect setting none
          | '=' :: value => given.expect setting (some (String.ofList value))
          | value => given.expect setting (some (String.ofList value))

/-- Take in an argument that is no option. -/
def addPlain (given : Given) (argument : String) : Except Refusal Given :=
  let isFirst :=
    given.solution.isNone && (match given.pending with | .solution _ => false | _ => true)
  if isFirst then do
    let given ← given.settle
    return { given with pending := .solution argument }
  else .error .unknownArgument

def add (given : Given) (argument : String) : Except Refusal Given :=
  match argument.toList with
  | '-' :: '-' :: name => given.addLong (String.ofList name)
  | '-' :: c :: rest => given.addShort (c :: rest)
  | _ =>
      match given.pending with
      | .setting setting none => .ok { given with pending := .setting setting (some argument) }
      | _ => given.addPlain argument

/-- Take in all arguments; after `--` none is an option. -/
def addAll (given : Given) : List String → Except Refusal Given
  | [] => given.settle
  | "--" :: rest => do (← rest.foldlM addPlain given).settle
  | argument :: rest => do addAll (← given.add argument) rest

end Given

/-! ### The environment -/

/-- The variables that fill in what the arguments leave open. -/
structure Environment where
  path : Option String
  format : Option String
  strict : Option String
  deriving DecidableEq, Repr, Inhabited

namespace Environment

def empty : Environment := ⟨none, none, none⟩

def pathVariable : String := "SOLUTION_METRICS_PATH"
def formatVariable : String := "SOLUTION_METRICS_FORMAT"
def strictVariable : String := "SOLUTION_METRICS_STRICT"

def ofLookup (lookup : String → Option String) : Environment :=
  ⟨lookup pathVariable, lookup formatVariable, lookup strictVariable⟩

def switch? : String → Except Refusal Bool
  | "true" => .ok true
  | "false" => .ok false
  | _ => .error .invalidValue

/-- A value from the arguments, or else one read from a variable. -/
def fill {α : Type} (given : Option α) (fallback : Option String)
    (read : String → Except Refusal α) : Except Refusal (Option α) :=
  match given, fallback with
  | some value, _ => .ok (some value)
  | none, some text => (read text).map some
  | none, none => .ok none

end Environment

def parse (environment : Environment) (arguments : List String) : Except Refusal CommandLine := do
  let given ← Given.nothing.addAll arguments
  let solution ← Environment.fill given.solution environment.path Given.solution?
  let format ← Environment.fill given.format environment.format Given.format?
  let strict ← Environment.fill given.strict environment.strict Environment.switch?
  let some solution := solution | throw .missingArgument
  .ok
    { solution
      format := format.getD .text
      strict := strict.getD false
      exclude := given.exclude
      noDuplicates := given.noDuplicates
      noDependencies := given.noDependencies
      verbose := given.verbose }

end CommandLine

end SolutionSurvey

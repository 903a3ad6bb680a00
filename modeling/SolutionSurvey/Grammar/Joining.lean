import SolutionSurvey.Grammar.Confusion
import SolutionSurvey.Grammar.Decision
import SolutionSurvey.Grammar.Kernel

/-!
# Joining kernels

Kernels of one core are joined when this changes neither which terminals are found nor what is done
on a terminal that both expect.  Kernels that are joined also lead to kernels that are joined, which
may part them again.
-/

namespace SolutionSurvey.Grammar

/-- What a kernel does, apart from where it leads. -/
structure Outlook where
  /-- The completed productions, each with the terminals that may follow it. -/
  completed : Array (Nat × TokenSet)
  expected : TokenSet
  /-- The terminals that would hide an expected one. -/
  barred : TokenSet
  deriving Inhabited

/-- What may stand anywhere in a text. -/
structure Anywhere where
  /-- The terminals that stand anywhere or open a rule that does. -/
  terminals : TokenSet
  /-- The terminal that stands for the end of such a rule. -/
  ending : Nat

/-- What kernels are joined by. -/
structure Setting where
  tables : Tables
  spelling : Spelling
  anywhere : Anywhere
  /-- For each terminal those that it would hide. -/
  hiddenBy : Array TokenSet

/-- The terminals that must not be looked for where the given ones are. -/
def Setting.barred (setting : Setting) (expected : TokenSet) : TokenSet :=
  TokenSet.ofList ((List.range (setting.hiddenBy.size + 1)).filter fun token =>
    !expected.contains token &&
      (token == setting.anywhere.ending || setting.spelling.contextual.contains token ||
        (setting.hiddenBy.getD token .empty).meets expected))

namespace Outlook

/-- Whether nothing may stand anywhere any more, since such a rule has just ended. -/
def isAtEnding (anywhere : Anywhere) (core : Core) (completed : Array (Nat × TokenSet)) : Bool :=
  !core.items.isEmpty && core.passages.isEmpty &&
    completed.all fun entry => entry.2.contains anywhere.ending

/-- The terminals that a core expects, given what may follow its completed productions. -/
def expectedOf (tables : Tables) (anywhere : Anywhere) (core : Core)
    (completed : Array (Nat × TokenSet)) : TokenSet :=
  let begun := core.passages.foldl (fun set passage =>
    if tables.isTerminal passage.symbol then set.insert passage.symbol else set)
    (if isAtEnding anywhere core completed then .empty else anywhere.terminals)
  completed.foldl (fun set entry => set.union entry.2) begun

/-- The outlook of two outlooks of one core that have been joined. -/
def join (left right : Outlook) : Outlook :=
  ⟨left.completed.zipWith (fun mine other => (mine.1, mine.2.union other.2)) right.completed,
    left.expected.union right.expected, left.barred.union right.barred⟩

def verdict (tables : Tables) (core : Core) (outlook : Outlook) (token : Nat) : Verdict :=
  core.decide tables
    (outlook.completed.toList.filterMap fun (production, follow) =>
      if follow.contains token then some production else none) token

/-- The terminals that may follow a completed production in one of two outlooks only. -/
def differing (left right : Outlook) : TokenSet :=
  (left.completed.zip right.completed).foldl (fun set (mine, other) =>
    set.union (mine.2.without other.2) |>.union (other.2.without mine.2)) .empty

/-- Whether two outlooks of one core do different things on a terminal that both expect. -/
def disagree (tables : Tables) (core : Core) (left right : Outlook) : Bool :=
  let doubtful := (differing left right).common (left.expected.common right.expected)
  !doubtful.isEmpty &&
    (List.range tables.numbering.terminals.size).any fun token =>
      doubtful.contains token && left.verdict tables core token != right.verdict tables core token

/-- Whether two outlooks of one core have to be kept apart. -/
def atOdds (tables : Tables) (core : Core) (left right : Outlook) : Bool :=
  left.barred.meets right.expected || right.barred.meets left.expected ||
    disagree tables core left right

end Outlook

/-- A class of outlooks of one core that are not at odds, all joined. -/
structure OutlookClass where
  number : Nat
  outlook : Outlook
  deriving Inhabited

/-- The classes found so far. -/
structure Grouping where
  pool : TokenPool
  /-- The class of each outlook, which is given by a core and numbered follow sets. -/
  known : Std.HashMap Kernel Nat
  /-- What is barred beside each numbered set of expected terminals. -/
  barred : Std.HashMap Nat TokenSet
  /-- The classes of each core. -/
  ofCore : Array (List OutlookClass)
  /-- For each class the places of the passages that are taken. -/
  taken : Array (Array Nat)
  /-- The class of each kernel. -/
  classOf : Array Nat

namespace Grouping

/-- The places of the passages of a core that an outlook lets a reader take. -/
def takenPassages (tables : Tables) (core : Core) (outlook : Outlook) : Array Nat :=
  let follow := outlook.completed.foldl (fun set entry => set.union entry.2) TokenSet.empty
  (Array.range core.passages.size).filter fun place =>
    let symbol := (core.passages.getD place default).symbol
    !tables.isTerminal symbol || !follow.contains symbol ||
      (outlook.verdict tables core symbol).reads

/-- Join an outlook to the first class that it is not at odds with. -/
def place (tables : Tables) (core : Core) (outlook : Outlook) (fresh : Nat) :
    List OutlookClass → List OutlookClass × Nat
  | [] => ([⟨fresh, outlook⟩], fresh)
  | known :: rest =>
      if outlook.atOdds tables core known.outlook then
        let (rest, number) := place tables core outlook fresh rest
        (known :: rest, number)
      else (⟨known.number, known.outlook.join outlook⟩ :: rest, known.number)

def outlook (setting : Setting) (grouping : Grouping) (core : Core)
    (completed : Array (Nat × TokenSet)) : Grouping × Outlook :=
  let expected := Outlook.expectedOf setting.tables setting.anywhere core completed
  let (pool, number) := grouping.pool.intern expected
  match grouping.barred[number]? with
  | some barred => ({ grouping with pool }, ⟨completed, expected, barred⟩)
  | none =>
      let barred := setting.barred expected
      ({ grouping with pool, barred := grouping.barred.insert number barred },
        ⟨completed, expected, barred⟩)

/-- Find the class of one more kernel. -/
def add (setting : Setting) (cores : Array Core) (grouping : Grouping) (kernel : Kernel) :
    Grouping :=
  let core := cores.getD kernel.core default
  let (pool, sets) := Kernels.flows grouping.pool kernel.follow (core.completions.map (·.2))
  let key : Kernel := ⟨kernel.core, sets⟩
  let grouping := { grouping with pool }
  match grouping.known[key]? with
  | some number => { grouping with classOf := grouping.classOf.push number }
  | none =>
      let completed :=
        core.completions.zipWith (fun entry set => (entry.1, grouping.pool.set set)) sets
      let (grouping, outlook) := outlook setting grouping core completed
      let fresh := grouping.taken.size
      let (classes, number) :=
        place setting.tables core outlook fresh (grouping.ofCore.getD kernel.core [])
      { grouping with
        known := grouping.known.insert key number
        ofCore := grouping.ofCore.setIfInBounds kernel.core classes
        taken :=
          if number == fresh then grouping.taken.push (takenPassages setting.tables core outlook)
          else grouping.taken
        classOf := grouping.classOf.push number }

def ofKernels (setting : Setting) (kernels : Kernels) : Grouping :=
  kernels.kernels.foldl (add setting kernels.cores)
    ⟨kernels.pool, ∅, ∅, Array.replicate kernels.cores.size [], #[], #[]⟩

end Grouping

/-- Part the members of each class that lead to different classes. -/
def refineOnce (targets : Array (Array Nat)) (classOf : Array Nat) : Array Nat × Nat :=
  let (classes, known) := targets.foldl (fun (classes, known) targets =>
    let own := classOf.getD classes.size 0
    let key := targets.foldl (fun key target => key.push (classOf.getD target 0)) #[own]
    match known[key]? with
    | some number => (classes.push number, known)
    | none => (classes.push known.size, known.insert key known.size))
    ((#[], ∅) : Array Nat × Std.HashMap (Array Nat) Nat)
  (classes, known.size)

/-- Part classes until all members of a class lead to the same classes. -/
def refine (targets : Array (Array Nat)) : Nat → Array Nat → Nat → Array Nat
  | 0, classOf, _ => classOf
  | fuel + 1, classOf, count =>
      let (finer, size) := refineOnce targets classOf
      if size == count then finer else refine targets fuel finer size

/-- The class of each kernel, numbered by first occurrence. -/
def joinKernels (setting : Setting) (kernels : Kernels) : Array Nat :=
  let grouping := Grouping.ofKernels setting kernels
  let targets := kernels.targets.zipWith (fun targets number =>
    (grouping.taken.getD number #[]).map fun place => targets.getD place 0) grouping.classOf
  refine targets kernels.kernels.size grouping.classOf grouping.taken.size

end SolutionSurvey.Grammar

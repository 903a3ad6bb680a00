import SolutionSurvey.Grammar.Joining

/-!
# Reading states

A state of the reader is a class of joined kernels.  In each state a terminal has a list of actions:
the completed productions to reduce, and then possibly one shift.
-/

namespace SolutionSurvey.Grammar

inductive Action where
  | reduce (production : Nat)
  /-- Read the terminal; `again` marks the second reading of a repetition, which a reduction has
  already taken up. -/
  | shift (target : Nat) (again : Bool)
  /-- Read the terminal as one that may stand anywhere. -/
  | pass
  | accept
  /-- Skip the terminal, having lost the thread. -/
  | recover
  deriving DecidableEq, Repr, Inhabited

structure State where
  /-- The terminals that are looked for. -/
  expected : TokenSet
  /-- Whether the state stands at the end of a rule that may stand anywhere. -/
  atEnding : Bool
  /-- The actions on each terminal that has any. -/
  actions : Thunk (Std.HashMap Nat (Array Action))
  /-- The state entered by each nonterminal. -/
  entered : Thunk (Std.HashMap Nat Nat)

instance : Inhabited State :=
  ⟨⟨.empty, false, Thunk.mk fun _ => ∅, Thunk.mk fun _ => ∅⟩⟩

structure Automaton where
  tables : Tables
  states : Array State

namespace Automaton

def lost : Nat := 0

def start : Nat := 1

/-- The items after the first terminal of each production that may stand anywhere, with that
terminal. -/
def openings (tables : Tables) : List (Nat × Nat) :=
  tables.anywhere.toList.flatMap fun head =>
    (tables.ofHead.getD head #[]).toList.filterMap fun index =>
      ((tables.productions.getD index default).steps[0]?).map fun step =>
        (step.symbol, tables.itemAfterwards.getD (tables.firstItem.getD index 0) 0)

/-- The terminals that open rules that may stand anywhere. -/
def openers (tables : Tables) : List Nat := ((openings tables).map (·.1)).eraseDups

/-- The core entered by a terminal that opens rules that may stand anywhere. -/
def openedItems (tables : Tables) (token : Nat) : Array Nat :=
  (((openings tables).filterMap fun (first, item) =>
    if first == token then some item else none).mergeSort).eraseDups.toArray

/-- The kernels from which all others arise: the lost thread, the start and the opened rules. -/
def seeds (tables : Tables) : List (Array Nat × TokenSet) :=
  (#[], .empty) :: (#[0], .singleton 0) ::
    (openers tables).map fun token =>
      (openedItems tables token, .singleton (Tables.ending tables.numbering))

def anywhere (tables : Tables) : Anywhere :=
  ⟨.ofList (openers tables ++ tables.anywhereLexemes.toList), Tables.ending tables.numbering⟩

/-- What the kernels of a class have in common and what may follow their completed productions
together. -/
structure Joined where
  core : Core
  completed : Array (Nat × TokenSet)
  /-- The state that each passage of the core leads to. -/
  targets : Array Nat
  deriving Inhabited

namespace Joined

/-- The first kernel of each class, and the numbered sets that may follow the completed productions
of all its kernels. -/
def gather (kernels : Kernels) (classOf : Array Nat) : Array (Nat × Array Nat) × TokenPool :=
  (List.range kernels.kernels.size).foldl (fun (found, pool) number =>
    let inflows := (kernels.core number).completions.map (·.2)
    let follow := (kernels.kernels.getD number default).follow
    let (pool, sets) := Kernels.flows pool follow inflows
    let mine := classOf.getD number 0
    match found[mine]? with
    | none => (found.push (number, sets), pool)
    | some (first, known) =>
        if known == sets then (found, pool)
        else
          let (pool, joined) := (known.zip sets).foldl (fun (pool, joined) (left, right) =>
            let (pool, set) := pool.union left right
            (pool, joined.push set)) (pool, #[])
          (found.setIfInBounds mine (first, joined), pool)) (#[], kernels.pool)

/-- All classes of kernels, in the order of their numbers. -/
def ofKernels (kernels : Kernels) (classOf : Array Nat) : Array Joined :=
  let (found, pool) := gather kernels classOf
  found.map fun (first, sets) =>
    let core := kernels.core first
    { core
      completed := core.completions.zipWith (fun entry set => (entry.1, pool.set set)) sets
      targets := (kernels.targets.getD first #[]).map fun target => classOf.getD target 0 }

/-- The actions on a terminal that follow from the items. -/
def settled (tables : Tables) (joined : Joined) (token : Nat) : Array Action :=
  let ready := joined.completed.toList.filterMap fun (production, follow) =>
    if follow.contains token then some production else none
  let verdict := joined.core.decide tables ready token
  let reductions := verdict.reductions.map fun production =>
    if production == 0 then Action.accept else .reduce production
  let shift :=
    match verdict.reads, joined.core.passages.findIdx? (·.symbol == token) with
    | true, some place => [Action.shift (joined.targets.getD place lost) verdict.again]
    | _, _ => []
  (reductions ++ shift).toArray

end Joined

/-- The actions on a terminal that the items have no action on: one that may stand anywhere is
passed over, and one that opens such a rule opens it. -/
def unexpected (tables : Tables) (opened : List (Nat × Nat)) (token : Nat) : Array Action :=
  if tables.anywhereLexemes.contains token then #[.pass]
  else
    match opened.find? (·.1 == token) with
    | some (_, target) => #[.shift target false]
    | none => #[]

def tabulate (tokens : List Nat) (actions : Nat → Array Action) : Std.HashMap Nat (Array Action) :=
  tokens.foldl (fun found token =>
    let mine := actions token
    if mine.isEmpty then found else found.insert token mine) ∅

/-- Nothing else may stand at the end of a rule that may stand anywhere. -/
def stateOf (tables : Tables) (opened : List (Nat × Nat)) (joined : Joined) : State :=
  let anywhere := anywhere tables
  let atEnding := Outlook.isAtEnding anywhere joined.core joined.completed
  let expected := Outlook.expectedOf tables anywhere joined.core joined.completed
  { expected
    atEnding
    actions := Thunk.mk fun _ =>
      tabulate ((List.range (anywhere.ending + 1)).filter expected.contains) fun token =>
        let actions := joined.settled tables token
        if actions.isEmpty && !atEnding then unexpected tables opened token else actions
    entered := Thunk.mk fun _ =>
      ((joined.core.passages.zip joined.targets).foldl (fun found (passage, target) =>
        found.insert passage.symbol target) ∅) }

/-- Where the thread is lost, all landmarks are looked for and at least skipped. -/
def lostState (tables : Tables) (opened : List (Nat × Nat)) (landmarks : TokenSet) : State :=
  let expected := landmarks.union (anywhere tables).terminals
  { expected
    atEnding := false
    actions := Thunk.mk fun _ =>
      tabulate ((List.range tables.numbering.terminals.size).filter expected.contains) fun token =>
        let actions := unexpected tables opened token
        if actions.isEmpty then #[.recover] else actions
    entered := Thunk.mk fun _ => ∅ }

def ofTables (tables : Tables) (spelling : Spelling) (landmarks : TokenSet) : Automaton :=
  let kernels := Kernels.ofSeeds tables (seeds tables)
  let setting : Setting := ⟨tables, spelling, anywhere tables, spelling.hiddenBy tables⟩
  let classOf := joinKernels setting kernels
  let opened := (openers tables).zipIdx.map fun (token, place) =>
    (token, classOf.getD (start + 1 + place) lost)
  let states := (Joined.ofKernels kernels classOf).map (stateOf tables opened)
  { tables, states := states.setIfInBounds lost (lostState tables opened landmarks) }

def state (automaton : Automaton) (number : Nat) : State := automaton.states.getD number default

def isAtEnding (automaton : Automaton) (number : Nat) : Bool := (automaton.state number).atEnding

/-- The actions of a state on a terminal. -/
def actions (automaton : Automaton) (number token : Nat) : Array Action :=
  (automaton.state number).actions.get.getD token #[]

/-- The actions at the end of a rule that may stand anywhere. -/
def endingActions (automaton : Automaton) (number : Nat) : Array Action :=
  automaton.actions number (Tables.ending automaton.tables.numbering)

/-- The state entered by a symbol: the target of the last action for a terminal.  What may stand
anywhere leaves the state as it is. -/
def next (automaton : Automaton) (number symbol : Nat) : Option Nat :=
  if automaton.tables.isTerminal symbol then
    match (automaton.actions number symbol).back? with
    | some (.shift target _) => some target
    | some .pass => some number
    | _ => none
  else
    let state := automaton.state number
    let head := symbol - automaton.tables.numbering.terminals.size
    if !state.atEnding && automaton.tables.anywhere.contains head then some number
    else state.entered.get[symbol]?

def valid (automaton : Automaton) (number : Nat) : TokenSet := (automaton.state number).expected

end Automaton

end SolutionSurvey.Grammar

import SolutionSurvey.Reading.Stack

/-!
# Reading a text into a tree

The reader advances every branch of its stack token by token.  Where a state leaves several
actions, the branch divides; branches that come to the same state at the same place are merged, and
those that are clearly worse than another are given up.  When no branch can go on, the best one
first tries a single missing token, then skips text until an earlier state can continue.
-/

namespace SolutionSurvey.Reading

open SolutionSurvey.Grammar

/-- A token found in a text. -/
structure Scanned where
  token : Nat
  start : Position
  stop : Position
  /-- The context after a contextual token. -/
  context : Option Context
  deriving Inhabited

/-- How the tokens of a language are read. -/
structure Lexis where
  /-- The tokens that depend on the context. -/
  contextual : TokenSet
  readContextual : TokenSet → Context → Position → Option Scanned
  /-- The longest of the wanted tokens at a place, blanks before it passed over. -/
  readPlain : TokenSet → Position → Option Scanned
  skipBlanks : Position → Position
  /-- How far the text was looked at when no token could be read. -/
  readUpTo : Position → Position
  /-- The lexeme of plain words, of which some are keywords. -/
  word : Nat
  keyword? : String → Option Nat

structure Reader where
  automaton : Automaton
  stack : Stack
  finished : Option Tree
  acceptances : Nat

abbrev ReadM := StateM Reader

namespace Reader

/-- How many branches are kept. -/
def branchLimit : Nat := 6

/-- How far the limit may be exceeded for a moment. -/
def branchOverflow : Nat := 4

/-- How deep below a lost thread a state to continue from is looked for. -/
def landingDepth : Nat := 16

/-- From this difference in cost on, a worse branch is given up. -/
def decisiveCost : Nat := 18 * Tree.costPerSkippedTree

def tables (reader : Reader) : Tables := reader.automaton.tables

def getStack : ReadM Stack := return (← get).stack

def modifyStack (change : Stack → Stack) : ReadM Unit :=
  modify fun reader => { reader with stack := change reader.stack }

def updateStack {α : Type} (change : Stack → Stack × α) : ReadM α :=
  modifyGet fun reader =>
    let (stack, answer) := change reader.stack
    (answer, { reader with stack })

def actionsOf (state token : Nat) : ReadM (Array Action) :=
  return (← get).automaton.actions state token

/-- The actions on the token ahead; none ahead means the end of a rule that may stand anywhere. -/
def actionsAhead (state : Nat) (ahead : Option Tree) : ReadM (Array Action) := do
  let automaton := (← get).automaton
  match (ahead.map Tree.symbol : Option Symbol) with
  | some (.grammar token) => return automaton.actions state token
  | some _ => return #[]
  | none => return automaton.endingActions state

def nextState (state symbol : Nat) : ReadM (Option Nat) :=
  return (← get).automaton.next state symbol

/-! ### Tokens -/

/-- Tell keywords apart from plain words: a keyword counts as one where the state wants it. -/
def recognise (lexis : Lexis) (state : Nat) (scanned : Scanned) : ReadM Tree := do
  let tables := (← get).tables
  let plain := Tree.token tables scanned.token scanned.start scanned.stop false scanned.context
  if scanned.token != lexis.word then return plain
  match lexis.keyword? (scanned.start.textTo scanned.stop) with
  | none => return plain
  | some keyword =>
      let actions ← actionsOf state keyword
      let token := if actions.isEmpty then scanned.token else keyword
      return Tree.token tables token scanned.start scanned.stop true scanned.context

/-- The place from which a token can be read again, having skipped what cannot. -/
def skipUnreadable (lexis : Lexis) (wanted : TokenSet) : Nat → Position → Position → Position
  | 0, _, last => last
  | fuel + 1, place, last =>
      match lexis.readPlain wanted place with
      | some _ => last
      | none =>
          let reached := lexis.readUpTo place
          let reached := if reached.bytes == last.bytes then reached.step else reached
          if reached.atEnd then reached else skipUnreadable lexis wanted fuel reached reached

/-- The token ahead of a branch; none at the end of a rule that may stand anywhere. -/
def lex (lexis : Lexis) (number state : Nat) : ReadM (Option Tree) := do
  let reader ← get
  if reader.automaton.isAtEnding state then return none
  let place := reader.stack.position number
  let context := (reader.stack.branch number).context
  let wanted := reader.automaton.valid state
  let contextual ←
    if wanted.meets lexis.contextual then
      match lexis.readContextual wanted context place with
      | none => pure none
      | some scanned =>
          if scanned.stop.bytes ≤ place.bytes && scanned.context == some context then do
            let target ← nextState state scanned.token
            let reader ← get
            if state == Automaton.lost || !reader.stack.hasAdvanced number || target == some state
            then pure none
            else pure (some scanned)
          else pure (some scanned)
    else pure none
  match contextual with
  | some scanned =>
      return some (Tree.token reader.tables scanned.token scanned.start scanned.stop false
        scanned.context)
  | none =>
      match lexis.readPlain wanted place with
      | some scanned => return some (← recognise lexis state scanned)
      | none =>
          let all := reader.automaton.valid Automaton.lost
          match lexis.readPlain all place with
          | some scanned => return some (← recognise lexis state scanned)
          | none =>
              let first := lexis.skipBlanks place
              let stop := skipUnreadable lexis all (2 * place.rest.length + 2) place first
              return some (Tree.unreadable first stop)

/-! ### Comparing branches -/

/-- The figures by which branches are compared. -/
structure Standing where
  cost : Nat
  count : Nat
  weight : Int
  lost : Bool

def standing (stack : Stack) (number : Nat) : Standing :=
  let paused := stack.isPaused number
  { cost := stack.errorCost number + (if paused then Tree.costPerSkippedTree else 0)
    count := stack.countSinceError number
    weight := (stack.top number).weight
    lost := paused || stack.state number == Automaton.lost }

inductive Preference where
  | takeFirst
  | preferFirst
  | neither
  | preferSecond
  | takeSecond
  deriving DecidableEq, Repr

def prefer (first second : Standing) : Preference :=
  if !first.lost && second.lost then
    if first.cost < second.cost then .takeFirst else .preferFirst
  else if first.lost && !second.lost then
    if second.cost < first.cost then .takeSecond else .preferSecond
  else if first.cost < second.cost then
    if (second.cost - first.cost) * (1 + first.count) > decisiveCost then .takeFirst
    else .preferFirst
  else if second.cost < first.cost then
    if (first.cost - second.cost) * (1 + second.count) > decisiveCost then .takeSecond
    else .preferSecond
  else if second.weight < first.weight then .preferFirst
  else if first.weight < second.weight then .preferSecond
  else .neither

/-- Whether another branch, or the finished tree, makes it pointless to go on with a branch at the
given cost. -/
def betterExists (reader : Reader) (number : Nat) (cost : Nat) : Bool :=
  let stack := reader.stack
  if ((reader.finished).map fun tree => decide (tree.cost ≤ cost)).getD false then true
  else
    let place := stack.position number
    let mine : Standing := ⟨cost, stack.countSinceError number, (stack.top number).weight, false⟩
    (List.range stack.branches.size).any fun other =>
      other != number && stack.isActive other && place.bytes ≤ (stack.position other).bytes &&
        (match prefer mine (standing stack other) with
          | .takeSecond => true
          | .preferSecond => stack.canMerge other number
          | _ => false)

/-- A branch never counts its trees from a place it no longer reaches. -/
def refreshCounts (stack : Stack) : Stack :=
  { stack with
    branches := stack.branches.map fun branch =>
      { branch with countAtError := min branch.countAtError (stack.vertex branch.vertex).count } }

/-! ### Reducing -/

def splitTrailing (trees : List Tree) : List Tree × List Tree :=
  let trailing := (trees.reverse.takeWhile Tree.extra).reverse
  (trees.take (trees.length - trailing.length), trailing)

/-- Of several ways to form a node over the same text keep the best. -/
def bestNode (tables : Tables) (symbol : Symbol) (production : Nat) (place : Position) :
    Tree → List Tree → List (List Tree) → Tree × List Tree
  | best, trailing, [] => (best, trailing)
  | best, trailing, trees :: rest =>
      let (children, others) := splitTrailing trees
      let candidate := Tree.form tables symbol (some production) place children
      if Tree.prefersSecond tables best candidate then
        bestNode tables symbol production place candidate others rest
      else bestNode tables symbol production place best trailing rest

def mergeIntoEarlier (stack : Stack) (number : Nat) (mine : Nat) : Stack × Bool :=
  match (List.range mine).find? fun other => other != number && stack.canMerge other mine with
  | none => (stack, false)
  | some other => stack.merge other mine

/-- Form the nodes of a production over the trees popped from a branch, and push each one. -/
def reduceSlices (number production : Nat) (atEnding : Bool) (limit : Nat) :
    Nat → List Slice → Nat → ReadM Unit
  | 0, _, _ => pure ()
  | _ + 1, [], _ => pure ()
  | fuel + 1, slice :: rest, removed => do
      let reader ← get
      let tables := reader.tables
      let same := rest.takeWhile fun other => other.branch == slice.branch
      let rest := rest.drop same.length
      let mine := slice.branch - removed
      if mine > limit then
        modifyStack (·.remove mine)
        reduceSlices number production atEnding limit fuel rest (removed + 1)
      else
        let rule := tables.productions.getD production default
        let symbol := tables.numbering.symbolOfHead rule.head
        let place := reader.stack.position mine
        let (children, trailing) := splitTrailing slice.trees
        let first := Tree.form tables (.grammar symbol) (some production) place children
        let (best, trailing) := bestNode tables (.grammar symbol) production place first trailing
          (same.map (·.trees))
        let below := reader.stack.state mine
        let target := (← nextState below symbol).getD Automaton.lost
        let best := if atEnding && target == below then best.withExtra true else best
        let best := best.favour rule.weight
        modifyStack fun stack =>
          trailing.foldl (fun stack tree => stack.push mine (some tree) target)
            (stack.push mine (some best) target)
        let merged ← updateStack fun stack => mergeIntoEarlier stack number mine
        reduceSlices number production atEnding limit fuel rest
          (if merged then removed + 1 else removed)

/-- Reduce a production on a branch.  The results are new branches; the number of the first one is
given, unless all were merged into earlier ones. -/
def reduce (number production : Nat) (atEnding : Bool) : ReadM (Option Nat) := do
  let before ← getStack
  let initial := before.branches.size
  let halted := ((List.range initial).filter before.isHalted).length
  let length := (((← get).tables.productions.getD production default).steps).size
  let slices ← updateStack fun stack => stack.popCount number length
  reduceSlices number production atEnding (branchLimit + branchOverflow + halted)
    (slices.size + 1) slices.toList 0
  return if (← getStack).branches.size > initial then some initial else none

/-- Finish a branch at the end of the text. -/
def accept (number : Nat) (ahead : Tree) : ReadM Unit := do
  modifyStack fun stack => stack.push number (some ahead) Automaton.start
  let slices ← updateStack fun stack => stack.popAll number
  for slice in slices do
    let tables := (← get).tables
    let trailing := slice.trees.reverse.takeWhile Tree.extra
    let upper := slice.trees.take (slice.trees.length - trailing.length)
    match upper.getLast? with
    | none => pure ()
    | some root =>
        let trees := upper.dropLast ++ root.children ++ trailing.reverse
        let tree := Tree.form tables root.symbol root.label.production root.label.start trees
        modify fun reader =>
          { reader with
            acceptances := reader.acceptances + 1
            finished :=
              match reader.finished with
              | none => some tree
              | some known => if Tree.prefersSecond tables known tree then some tree else known }
  match slices[0]? with
  | none => pure ()
  | some slice => modifyStack fun stack => stack.remove slice.branch
  modifyStack fun stack => stack.halt number

/-! ### Going on after an error -/

/-- The reductions open to a state on some terminals, and whether one of them could be read. -/
def openReductions (state : Nat) : List Nat → Array Nat → Bool → ReadM (Array Nat × Bool)
  | [], found, canShift => return (found, canShift)
  | token :: rest, found, canShift => do
      let actions ← actionsOf state token
      let tables := (← get).tables
      let shape (production : Nat) : Nat × Nat :=
        let rule := tables.productions.getD production default
        (rule.head, rule.steps.size)
      let (found, canShift) := actions.foldl (fun (found, canShift) action =>
        match action with
        | .reduce production =>
            if (shape production).2 == 0 || found.any fun known => shape known == shape production
            then (found, canShift)
            else (found.push production, canShift)
        | .shift _ again => (found, canShift || !again)
        | .recover => (found, true)
        | _ => (found, canShift)) (found, canShift)
      openReductions state rest found canShift

def mergeFrom (initial version : Nat) (stack : Stack) : Stack × Bool :=
  match (List.range version).find? fun other => initial ≤ other && stack.canMerge other version with
  | none => (stack, false)
  | some other => stack.merge other version

def reduceAll (starting : Nat) (ahead : Option Nat) (initial : Nat) :
    Nat → Nat → Nat → Bool → ReadM Bool
  | 0, _, _, canShift => return canShift
  | fuel + 1, round, version, canShift => do
      let size := (← getStack).branches.size
      if version ≥ size then return canShift
      if ← updateStack (mergeFrom initial version) then
        reduceAll starting ahead initial fuel (round + 1) version canShift
      else
        let reader ← get
        let state := reader.stack.state version
        let tokens :=
          match ahead with
          | some token => [token]
          | none => (List.range reader.tables.numbering.terminals.size).tail.filter fun token =>
              (reader.automaton.valid state).contains token
        let (reductions, shifts) ← openReductions state tokens #[] false
        let mut last : Option Nat := none
        for production in reductions do
          last := (← reduce version production false)
        let nextVersion := if version == starting then size else version + 1
        if shifts then
          reduceAll starting ahead initial fuel (round + 1) nextVersion true
        else
          match last with
          | some reduced =>
              if round < branchLimit then
                modifyStack fun stack => stack.replace reduced version
                reduceAll starting ahead initial fuel (round + 1) version canShift
              else
                if ahead.isSome then modifyStack fun stack => stack.remove version
                reduceAll starting ahead initial fuel (round + 1) nextVersion canShift
          | none =>
              if ahead.isSome then modifyStack fun stack => stack.remove version
              reduceAll starting ahead initial fuel (round + 1) nextVersion canShift

def performReductions (starting : Nat) (ahead : Option Nat) : ReadM Bool := do
  let initial := (← getStack).branches.size
  reduceAll starting ahead initial 400 0 starting false

/-- The token of a tree ahead for looking up reductions; the end of the text counts as any. -/
def tokenAhead (ahead : Tree) : Option Nat :=
  match ahead.symbol with
  | .grammar 0 => none
  | .grammar token => some token
  | _ => none

def reducesOn (state : Nat) (ahead : Tree) : ReadM Bool := do
  let isReduce : Action → Bool
    | .reduce _ => true
    | _ => false
  match ahead.symbol with
  | .grammar 0 =>
      let onEnd ← actionsOf state 0
      let onEnding ← actionsAhead state none
      return onEnd.any isReduce || onEnding.any isReduce
  | .grammar token => return (← actionsOf state token).any isReduce
  | _ => return false

/-- Try the terminals in turn as the one that the text lacks on a branch. -/
def insertMissing (number : Nat) (ahead : Tree) : List Nat → ReadM Bool
  | [] => return false
  | token :: rest => do
      let state := (← getStack).state number
      match ← nextState state token with
      | none => insertMissing number ahead rest
      | some target =>
          if target == state then insertMissing number ahead rest
          else if !(← reducesOn target ahead) then insertMissing number ahead rest
          else
            let place := (← getStack).position number
            let tables := (← get).tables
            let version ← updateStack fun stack => stack.copy number
            modifyStack fun stack =>
              stack.push version (some (Tree.missingToken tables token place)) target
            if ← performReductions version (tokenAhead ahead) then return true
            else insertMissing number ahead rest

/-- Replace the trees above a state by an error and go on from that state. -/
def landOn (number depth goal : Nat) : ReadM Bool := do
  let slices ← updateStack fun stack => stack.popCount number depth
  let mut previous : Option Nat := none
  for slice in slices do
    if previous != some slice.branch then
      if (← getStack).state slice.branch != goal then
        modifyStack fun stack => stack.halt slice.branch
      else
        let errors ← updateStack fun stack => stack.popError slice.branch
        let earlier := (errors.head?.map Tree.children).getD []
        let (children, trailing) := splitTrailing (earlier ++ slice.trees)
        let tables := (← get).tables
        unless children.isEmpty do
          let place := (← getStack).position slice.branch
          let tree := (Tree.form tables .error none place children).withExtra true
          modifyStack fun stack => stack.push slice.branch (some tree) goal
        for tree in trailing do
          modifyStack fun stack => stack.push slice.branch (some tree) goal
        previous := some slice.branch
  return previous.isSome

/-- Go back to the nearest state below the lost thread in which the token ahead can be read. -/
def tryLandings (number : Nat) (ahead : Tree) (initial : Nat) (current : Nat) (progressed : Bool) :
    List Landing → ReadM Bool
  | [] => return false
  | landing :: rest => do
      let reader ← get
      let stack := reader.stack
      let place := stack.position number
      if landing.state == Automaton.lost || landing.position.bytes == place.bytes then
        tryLandings number ahead initial current progressed rest
      else if (List.range initial).any fun other =>
          stack.state other == landing.state && (stack.position other).bytes == place.bytes then
        tryLandings number ahead initial current progressed rest
      else
        let cost := current + landing.depth * Tree.costPerSkippedTree +
          (place.bytes - landing.position.bytes) * Tree.costPerSkippedByte +
          (place.row - landing.position.row) * Tree.costPerSkippedLine
        if reader.betterExists number cost then return false
        else
          let actions ← actionsAhead landing.state (some ahead)
          let depth := if progressed then landing.depth + 1 else landing.depth
          let landed ←
            if actions.isEmpty then pure false else landOn number depth landing.state
          if landed then return true
          else tryLandings number ahead initial current progressed rest

def removeHalted (initial : Nat) (stack : Stack) : Stack :=
  { stack with
    branches := stack.branches.extract 0 initial ++
      (stack.branches.extract initial stack.branches.size).filter fun branch =>
        match branch.status with
        | .active => true
        | _ => false }

/-- Skip the token ahead, joining it to what was skipped before. -/
def skipToken (number : Nat) (ahead : Tree) (progressed : Bool) : ReadM Unit := do
  let tables := (← get).tables
  let standsAnywhere :=
    match ahead.symbol with
    | .grammar token => tables.anywhereLexemes.contains token
    | _ => false
  let ahead := if standsAnywhere then ahead.withExtra true else ahead
  let skipped := Tree.form tables .skipping none ahead.label.start [ahead]
  let skipped ←
    if !progressed then pure skipped
    else
      let slices ← updateStack fun stack => stack.popCount number 1
      match slices[0]? with
      | none => pure skipped
      | some slice =>
          modifyStack fun stack =>
            { stack with branches := stack.branches.extract 0 (slice.branch + 1) }
          modifyStack fun stack => stack.replace slice.branch number
          pure (Tree.form tables .skipping none ahead.label.start (slice.trees ++ [skipped]))
  modifyStack fun stack => stack.push number (some skipped) Automaton.lost
  match ahead.label.context with
  | none => pure ()
  | some context =>
      modifyStack fun stack => stack.modifyBranch number fun branch => { branch with context }

/-- Deal with a token on a branch whose thread is lost. -/
def recover (number : Nat) (ahead : Tree) : ReadM Unit := do
  modifyStack refreshCounts
  let stack ← getStack
  let initial := stack.branches.size
  let progressed := stack.countSinceError number > 0
  let current := stack.errorCost number
  let landings := (((stack.branch number).landings).getD #[]).toList
  let landed ←
    if ahead.isError then pure false
    else tryLandings number ahead initial current progressed landings
  modifyStack (removeHalted initial)
  let stack ← getStack
  if landed && stack.branches.size > branchLimit then
    modifyStack fun stack => stack.halt number
  else if landed && ahead.label.context.isSome &&
      ahead.label.context != some (stack.branch number).context then
    modifyStack fun stack => stack.halt number
  else
    match ahead.symbol with
    | .grammar 0 =>
        let tables := (← get).tables
        let place := stack.position number
        modifyStack fun stack =>
          stack.push number (some (Tree.form tables .error none place [])) Automaton.start
        accept number ahead
    | _ =>
        let place := stack.position number
        let cost := current + Tree.costPerSkippedTree +
          (ahead.label.stop.bytes - place.bytes) * Tree.costPerSkippedByte +
          (ahead.label.stop.row - place.row) * Tree.costPerSkippedLine
        if (← get).betterExists number cost then modifyStack fun stack => stack.halt number
        else skipToken number ahead progressed

/-- Mark the branches that came out of the reductions as having lost the thread. -/
def loseThread (ahead : Tree) (number previous count : Nat) : Nat → Nat → Bool → ReadM Unit
  | 0, _, _ => pure ()
  | fuel + 1, version, inserted => do
      if version ≥ count then pure ()
      else
        let inserted ←
          if inserted then pure true
          else
            let reader ← get
            let valid := reader.automaton.valid (reader.stack.state version)
            insertMissing version ahead
              ((List.range reader.tables.numbering.terminals.size).tail.filter valid.contains)
        modifyStack fun stack => stack.push version none Automaton.lost
        loseThread ahead number previous count fuel
          (if version == number then previous else version + 1) inserted

def mergeLost (number previous : Nat) : Nat → ReadM Unit
  | 0 => pure ()
  | rest + 1 => do
      let _ ← updateStack fun stack => stack.merge number previous
      mergeLost number previous rest

/-- Deal with a token that no branch can read. -/
def handleError (number : Nat) (ahead : Tree) : ReadM Unit := do
  let previous := (← getStack).branches.size
  let _ ← performReductions number none
  let count := (← getStack).branches.size
  loseThread ahead number previous count (count + 1) number false
  mergeLost number previous (count - previous)
  modifyStack fun stack => stack.recordLandings number landingDepth
  recover number ahead

/-! ### Advancing -/

inductive Progress where
  /-- The token was dealt with. -/
  | done
  /-- Nodes were formed; the first of the new branches, if it was not merged away. -/
  | reduced (first : Option Nat)
  | stuck

def performActions (number state : Nat) (ahead : Option Tree) :
    List Action → Progress → ReadM Progress
  | [], progress => return progress
  | action :: rest, progress => do
      match action with
      | .reduce production =>
          let first ← reduce number production ahead.isNone
          let known :=
            match progress with
            | .reduced known => known
            | _ => none
          performActions number state ahead rest (.reduced (first.or known))
      | .shift _ true => performActions number state ahead rest progress
      | .shift target false =>
          shiftTo (fun tree => tree.withExtra false) target
      | .pass => shiftTo (fun tree => tree.withExtra true) state
      | .accept =>
          match ahead with
          | none => return .stuck
          | some tree =>
              accept number tree
              return .done
      | .recover =>
          match ahead with
          | none => return .stuck
          | some tree =>
              recover number tree
              return .done
where
  shiftTo (mark : Tree → Tree) (target : Nat) : ReadM Progress := do
    match ahead with
    | none => return .stuck
    | some tree =>
        modifyStack fun stack => stack.push number (some (mark tree)) target
        match tree.label.context with
        | none => pure ()
        | some context =>
            modifyStack fun stack => stack.modifyBranch number fun branch => { branch with context }
        return .done

/-- Take one branch past the token ahead of it, or pause it there. -/
def advance (lexis : Lexis) (number : Nat) : Nat → Nat → Option (Option Tree) → ReadM Unit
  | 0, _, _ => modifyStack fun stack => stack.halt number
  | fuel + 1, state, read => do
      let ahead ←
        match read with
        | some ahead => pure ahead
        | none => lex lexis number state
      let actions ← actionsAhead state ahead
      match ← performActions number state ahead actions.toList .stuck with
      | .done => pure ()
      | .reduced (some first) =>
          modifyStack fun stack => stack.replace first number
          let state := (← getStack).state number
          advance lexis number fuel state (ahead.map some)
      | .reduced none => modifyStack fun stack => stack.halt number
      | .stuck =>
          let asWord ←
            match ahead with
            | none => pure none
            | some tree =>
                if tree.label.keyword && tree.symbol != .grammar lexis.word then do
                  let actions ← actionsOf state lexis.word
                  if actions.isEmpty then pure none
                  else
                    pure (some (Tree.token (← get).tables lexis.word tree.label.start
                      tree.label.stop true tree.label.context))
                else pure none
          match asWord with
          | some tree => advance lexis number fuel state (some (some tree))
          | none =>
              match ahead with
              | some tree =>
                  if state == Automaton.lost then recover number tree
                  else modifyStack fun stack => stack.pause number ahead
              | none => modifyStack fun stack => stack.pause number ahead

/-- Advance a branch until it is further than every branch before it. -/
def advanceTo (lexis : Lexis) (number : Nat) : Nat → Nat → ReadM Nat
  | 0, last => do
      modifyStack fun stack => stack.halt number
      return last
  | fuel + 1, last => do
      let stack ← getStack
      if !stack.isActive number then return last
      advance lexis number (4 * stack.vertices.size + 1000) (stack.state number) none
      let place := ((← getStack).position number).bytes
      if last < place || (number > 0 && place == last) then return place
      else advanceTo lexis number fuel last

def advanceAll (lexis : Lexis) (width : Nat) : Nat → Nat → Nat → ReadM Nat
  | 0, _, last => return last
  | fuel + 1, number, last => do
      if number ≥ (← getStack).branches.size then return last
      let last ← advanceTo lexis number width last
      advanceAll lexis width fuel (number + 1) last

/-! ### Keeping the best branches -/

/-- Compare a branch with the ones before it. -/
def condenseOne (mine : Standing) : Nat → Nat → Nat → Stack → Stack × Nat
  | 0, _, number, stack => (stack, number)
  | fuel + 1, other, number, stack =>
      if other ≥ number then (stack, number + 1)
      else
        match prefer (standing stack other) mine with
        | .takeFirst => (stack.remove number, number)
        | .preferFirst | .neither =>
            let (stack, merged) := stack.merge other number
            if merged then (stack, number) else condenseOne mine fuel (other + 1) number stack
        | .preferSecond =>
            let (stack, merged) := stack.merge other number
            if merged then (stack, number)
            else condenseOne mine fuel (other + 1) number (stack.swap number other)
        | .takeSecond => condenseOne mine fuel other (number - 1) (stack.remove other)

def condenseBranches : Nat → Nat → Option Nat → Stack → Stack × Option Nat
  | 0, _, least, stack => (stack, least)
  | fuel + 1, number, least, stack =>
      if number ≥ stack.branches.size then (stack, least)
      else if stack.isHalted number then
        condenseBranches fuel number least (stack.remove number)
      else
        let mine := standing stack number
        let least :=
          if mine.lost then least
          else some (match least with | none => mine.cost | some cost => min cost mine.cost)
        let (stack, number) := condenseOne mine (stack.branches.size + 1) 0 number stack
        condenseBranches fuel number least stack

def resume : Nat → Nat → Bool → Option Nat → ReadM (Option Nat)
  | 0, _, _, least => return least
  | left + 1, number, going, least => do
      let reader ← get
      let stack := reader.stack
      match (stack.branch number).status with
      | .paused ahead =>
          if !going && reader.acceptances < branchLimit then
            let cost := stack.errorCost number
            modifyStack fun stack =>
              stack.modifyBranch number fun branch => { branch with status := .active }
            match ahead with
            | none => modifyStack fun stack => stack.halt number
            | some tree => handleError number tree
            resume left (number + 1) true (some cost)
          else
            modifyStack fun stack => stack.remove number
            resume left number going least
      | _ => resume left (number + 1) true least

/-- Order the branches by promise, merge what agrees and drop what is clearly worse.  The answer is
the least cost of a branch that is still on its way. -/
def condense : ReadM (Option Nat) := do
  modifyStack refreshCounts
  let least ← updateStack fun stack =>
    condenseBranches (stack.branches.size + 2) 0 none stack
  modifyStack fun stack => { stack with branches := stack.branches.extract 0 branchLimit }
  resume (← getStack).branches.size 0 false least

def loop (lexis : Lexis) : Nat → Nat → ReadM Unit
  | 0, _ => pure ()
  | fuel + 1, last => do
      if (← getStack).branches.size == 0 then pure ()
      else
        let width := (← getStack).vertices.size + 64
        let last ← advanceAll lexis width 64 0 last
        let least ← condense
        let reader ← get
        let decided :=
          match reader.finished, least with
          | some _, none => true
          | some tree, some cost => decide (tree.cost < cost)
          | none, _ => false
        if decided then pure () else loop lexis fuel last

end Reader

def read (automaton : Automaton) (lexis : Lexis) (text : String) : Option Tree :=
  let reader : Reader := ⟨automaton, Stack.start (.start text), none, 0⟩
  ((Reader.loop lexis (4 * text.length + 64) 0).run reader).2.finished

end SolutionSurvey.Reading

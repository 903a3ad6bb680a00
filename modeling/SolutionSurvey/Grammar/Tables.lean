import SolutionSurvey.Grammar.Production
import SolutionSurvey.Grammar.TokenSet

/-!
# Tables of a grammar

Everything about a grammar that does not depend on the text being read: its productions, its items
(a production read up to some step), the terminals that can begin each symbol, and for each
nonterminal the items that become available when that nonterminal is expected.
-/

namespace SolutionSurvey.Grammar

/-- An item reached by reading the first symbol of an expected nonterminal, with the terminals that
may follow it.  When `inherits` holds, what may follow the expected nonterminal may follow too. -/
structure Contribution where
  item : Nat
  own : TokenSet
  inherits : Bool
  deriving Inhabited

/-- What decides how an item goes on.  Of the steps behind it only how their children are shown
matters, since their symbols have been read; the step read last also tells how tightly it binds. -/
structure Prospect where
  head : Nat
  weight : Int
  behind : List (Option (String × Bool) × Option String)
  level : Int
  side : Option Side
  ahead : List Step
  deriving BEq, Hashable

def Production.prospect (production : Production) (place : Nat) : Prospect :=
  let steps := production.steps.toList
  let last := if place == 0 then none else production.steps[place - 1]?
  ⟨production.head, production.weight,
    (steps.take place).map fun step => (step.shownAs, step.field),
    (last.map (·.level)).getD 0, last.bind (·.side), steps.drop place⟩

/-- For each item the first item with the same prospect. -/
def representatives (productions : Array Production) : Array Nat :=
  (productions.foldl (fun (found, known) production =>
    (List.range (production.steps.size + 1)).foldl (fun (found, known) place =>
      let prospect := production.prospect place
      match known[prospect]? with
      | some item => (found.push item, known)
      | none => (found.push found.size, known.insert prospect found.size)) (found, known))
    (#[], (∅ : Std.HashMap Prospect Nat))).1

/-- What can begin when a nonterminal is expected. -/
structure Corner where
  /-- The items reached by a first symbol. -/
  byFirst : Std.HashMap Nat (Array Contribution)
  /-- Productions without steps. -/
  empties : Array Contribution

instance : Inhabited Corner := ⟨⟨∅, #[]⟩⟩

structure Tables where
  numbering : Numbering
  productions : Array Production
  /-- The productions of each nonterminal. -/
  ofHead : Array (Array Nat)
  /-- The number of each production's first item. -/
  firstItem : Array Nat
  /-- The production of each item. -/
  itemProduction : Array Nat
  /-- The symbol that each item expects, or none when it is complete. -/
  itemNext : Array (Option Nat)
  /-- The item after the expected symbol has been read, as the item that stands for its kind. -/
  itemAfterwards : Array Nat
  /-- What can begin after the expected symbol, when the item does not end there. -/
  itemAfter : Array (Option TokenSet)
  /-- The terminals that can begin each symbol. -/
  first : Array TokenSet
  corners : Array (Thunk Corner)
  /-- Rules that may stand anywhere. -/
  anywhere : Array Nat
  /-- Lexemes that may stand anywhere. -/
  anywhereLexemes : Array Nat
  orderings : List (List Nat)

namespace Tables

def terminalCount (numbering : Numbering) : Nat := numbering.terminals.size

/-- The number that stands for the end of a rule that may stand anywhere. -/
def ending (numbering : Numbering) : Nat := numbering.terminals.size

/-- One round of finding the terminals at one edge of each nonterminal. -/
def edgeRound (numbering : Numbering) (productions : Array Production)
    (pick : Array Step → Option Step) (found : Array TokenSet) : Array TokenSet :=
  productions.foldl (fun found production =>
    match pick production.steps with
    | none => found
    | some step =>
        let symbol := numbering.symbolOfHead production.head
        let old := found.getD symbol .empty
        found.setIfInBounds symbol (old.union (found.getD step.symbol .empty))) found

def edgeFix (numbering : Numbering) (productions : Array Production)
    (pick : Array Step → Option Step) : Nat → Array TokenSet → Array TokenSet
  | 0, found => found
  | rounds + 1, found =>
      let next := edgeRound numbering productions pick found
      if next == found then found else edgeFix numbering productions pick rounds next

/-- The terminals at one edge of each symbol, where `pick` gives the step at that edge. -/
def edgeSets (numbering : Numbering) (productions : Array Production)
    (pick : Array Step → Option Step) : Array TokenSet :=
  let terminals := Array.ofFn fun token : Fin numbering.terminals.size => TokenSet.singleton token
  let heads := Array.replicate (numbering.heads.size + 1) TokenSet.empty
  edgeFix numbering productions pick (numbering.heads.size + 1) (terminals ++ heads)

/-- A nonterminal that can begin another, what can follow it there, and whether it can also be
all there is. -/
structure Edge where
  target : Nat
  own : TokenSet
  passes : Bool
  deriving Inhabited

def addEdge (edges : Array Edge) (edge : Edge) : Array Edge :=
  match edges.findIdx? (·.target == edge.target) with
  | none => edges.push edge
  | some place => edges.modify place fun known =>
      ⟨known.target, known.own.union edge.own, known.passes || edge.passes⟩

def edgesOf (numbering : Numbering) (productions : Array Production) (first : Array TokenSet)
    (mine : Array Nat) : Array Edge :=
  mine.foldl (fun edges index =>
    let production := productions.getD index default
    match production.steps[0]? with
    | none => edges
    | some step =>
        if step.symbol < numbering.terminals.size then edges
        else
          let target := step.symbol - numbering.terminals.size
          match production.steps[1]? with
          | none => addEdge edges ⟨target, .empty, true⟩
          | some second => addEdge edges ⟨target, first.getD second.symbol .empty, false⟩) #[]

/-- The nonterminals reached so far, with what may follow each. -/
structure Reach where
  order : Array Nat
  follow : Array (Option (TokenSet × Bool))

def Reach.widen (reach : Reach) (target : Nat) (own : TokenSet) (passes : Bool) : Reach × Bool :=
  match reach.follow.getD target none with
  | none =>
      (⟨reach.order.push target, reach.follow.setIfInBounds target (some (own, passes))⟩, true)
  | some (known, knownPasses) =>
      let wider := known.union own
      if wider == known && (knownPasses || !passes) then (reach, false)
      else
        ({ reach with
            follow := reach.follow.setIfInBounds target (some (wider, knownPasses || passes)) },
          true)

def reachFix (edges : Array (Array Edge)) : Nat → List Nat → Reach → Reach
  | 0, _, reach => reach
  | _ + 1, [], reach => reach
  | fuel + 1, head :: waiting, reach =>
      let (own, passes) := (reach.follow.getD head none).getD (.empty, false)
      let (reach, waiting) := (edges.getD head #[]).foldl (fun (reach, waiting) edge =>
        let wide := if edge.passes then edge.own.union own else edge.own
        let (reach, grew) := Reach.widen reach edge.target wide (edge.passes && passes)
        if grew then (reach, edge.target :: waiting) else (reach, waiting)) (reach, waiting)
      reachFix edges fuel waiting reach

def cornerOf (productions : Array Production) (ofHead : Array (Array Nat))
    (firstItem afterwards : Array Nat) (edges : Array (Array Edge)) (head : Nat) : Corner :=
  let start : Reach :=
    ⟨#[head], (Array.replicate edges.size none).setIfInBounds head (some (.empty, true))⟩
  let reach := reachFix edges (edges.size * 300) [head] start
  reach.order.foldl (fun corner reached =>
    let (own, inherits) := (reach.follow.getD reached none).getD (.empty, false)
    (ofHead.getD reached #[]).foldl (fun corner index =>
      let item := firstItem.getD index 0
      match (productions.getD index default).steps[0]? with
      | none => { corner with empties := corner.empties.push ⟨item, own, inherits⟩ }
      | some step =>
          { corner with
            byFirst := corner.byFirst.insert step.symbol
              ((corner.byFirst.getD step.symbol #[]).push
                ⟨afterwards.getD item 0, own, inherits⟩) }) corner)
    default

def ofDefinition (definition : Definition) : Tables :=
  let numbering := Numbering.ofDefinition definition
  let start : Production :=
    ⟨numbering.heads.size, #[⟨numbering.symbolOfHead 0, 0, none, none, none⟩], 0⟩
  let ruled := definition.rules.foldl (fun (found, head) rule =>
    (found ++ rule.2.productions numbering head, head + 1)) (#[start], 0)
  let productions := (numbering.bodies.foldl (fun (found, head) body =>
    (found ++ repetitionProductions numbering head body, head + 1)) ruled).1
  let ofHead := (productions.foldl (fun (found, index) production =>
    (found.modify production.head (·.push index), index + 1))
    (Array.replicate (numbering.heads.size + 1) #[], 0)).1
  let firstItem := (productions.foldl (fun (found, item) production =>
    (found.push item, item + production.steps.size + 1)) (#[], 0)).1
  let first := edgeSets numbering productions (·[0]?)
  let itemProduction := (productions.foldl (fun (found, index) production =>
    (found ++ Array.replicate (production.steps.size + 1) index, index + 1)) (#[], 0)).1
  let itemNext := productions.foldl (fun found production =>
    (found ++ production.steps.map fun step => some step.symbol).push none) #[]
  let itemAfter := productions.foldl (fun found production =>
    (found ++ (production.steps.extract 1 production.steps.size).map fun step =>
      some (first.getD step.symbol .empty)) ++
      Array.replicate (if production.steps.isEmpty then 1 else 2) none) #[]
  let standing := representatives productions
  let itemAfterwards := Array.ofFn fun item : Fin standing.size => standing.getD (item + 1) 0
  let edges := Array.ofFn fun head : Fin (numbering.heads.size + 1) =>
    edgesOf numbering productions first (ofHead.getD head #[])
  { numbering, productions, ofHead, firstItem, itemProduction, itemNext, itemAfterwards, itemAfter, first
    corners := Array.ofFn fun head : Fin numbering.heads.size =>
      Thunk.mk fun _ => cornerOf productions ofHead firstItem itemAfterwards edges head
    anywhere := (definition.anywhere.map fun name => numbering.rules.getD name 0).toArray
    anywhereLexemes :=
      (definition.anywhereLexemes.map fun name => numbering.lexemes.getD name 0).toArray
    orderings := definition.orderings.map fun names =>
      names.map fun name => numbering.rules.getD name 0 }

def isTerminal (tables : Tables) (symbol : Nat) : Bool := symbol < tables.numbering.terminals.size

def corner (tables : Tables) (symbol : Nat) : Corner :=
  match tables.corners[symbol - tables.numbering.terminals.size]? with
  | some thunk => thunk.get
  | none => default

end Tables

end SolutionSurvey.Grammar

import SolutionSurvey.Grammar.Tables
import SolutionSurvey.Reading.Position

/-!
# Trees under construction

While a text is read its tree holds every token and every rule, hidden ones included, and keeps the
figures by which readings are compared: what the errors in it cost and how strongly it is favoured.
-/

namespace SolutionSurvey.Reading

open SolutionSurvey.Grammar

/-- One interpolated string that is being read. -/
structure Interpolation where
  /-- How many dollar signs began it, and so how many braces open a hole. -/
  dollars : Nat
  /-- How many braces opened the current hole. -/
  braces : Nat
  /-- How many quotes began its text. -/
  quotes : Nat
  verbatim : Bool
  raw : Bool
  deriving DecidableEq, Repr, Inhabited

/-- What the reading of tokens depends on besides the text ahead. -/
structure Context where
  /-- The quotes that began the current raw string. -/
  quotes : Nat
  /-- The interpolated strings around this place, innermost first. -/
  nesting : List Interpolation
  deriving DecidableEq, Repr, Inhabited

def Context.outside : Context := ⟨0, []⟩

inductive Symbol where
  /-- A terminal or nonterminal of the grammar. -/
  | grammar (number : Nat)
  /-- Part of a stretch that is being skipped. -/
  | skipping
  /-- A stretch that could not be read. -/
  | error
  deriving DecidableEq, Repr, Inhabited

/-- The order of symbols by which readings that tie are told apart. -/
def Symbol.rank (count : Nat) : Symbol → Nat
  | .grammar number => number
  | .skipping => count
  | .error => count + 1

structure Label where
  symbol : Symbol
  /-- The production by which a node was formed. -/
  production : Option Nat
  start : Position
  stop : Position
  /-- The tree stands where anything may stand. -/
  extra : Bool
  /-- The token is not in the text. -/
  missing : Bool
  /-- The token is a keyword rather than a plain word. -/
  keyword : Bool
  /-- The reading context after a contextual token. -/
  context : Option Context
  visible : Bool
  cost : Nat
  weight : Int
  /-- Visible children, those of hidden children included. -/
  shownChildren : Nat
  /-- Visible trees below. -/
  shownBelow : Nat
  deriving Inhabited

inductive Tree where
  | node (label : Label) (children : List Tree)
  deriving Inhabited

namespace Tree

def label : Tree → Label
  | node label _ => label

def children : Tree → List Tree
  | node _ children => children

def symbol (tree : Tree) : Symbol := tree.label.symbol

def extra (tree : Tree) : Bool := tree.label.extra

def cost (tree : Tree) : Nat := tree.label.cost

def isError (tree : Tree) : Bool := tree.symbol == .error

def bytes (tree : Tree) : Nat := tree.label.stop.bytes - tree.label.start.bytes

def withExtra (tree : Tree) (extra : Bool) : Tree :=
  match tree with
  | node label children => node { label with extra } children

/-! ### What errors cost -/

def costPerRecovery : Nat := 500
def costPerMissing : Nat := 110
def costPerSkippedTree : Nat := 100
def costPerSkippedByte : Nat := 1
def costPerSkippedLine : Nat := 30

def token (tables : Tables) (number : Nat) (start stop : Position) (keyword : Bool)
    (context : Option Context) : Tree :=
  node
    { symbol := .grammar number, production := none, start, stop, extra := number == 0
      missing := false, keyword, context
      visible := ((tables.numbering.terminals[number]?).map (·.visible)).getD false
      cost := 0, weight := 0, shownChildren := 0, shownBelow := 0 } []

def missingToken (tables : Tables) (number : Nat) (place : Position) : Tree :=
  node
    { symbol := .grammar number, production := none, start := place, stop := place, extra := false
      missing := true, keyword := false, context := none
      visible := ((tables.numbering.terminals[number]?).map (·.visible)).getD false
      cost := costPerMissing + costPerRecovery, weight := 0, shownChildren := 0, shownBelow := 0 } []

/-- Characters that begin no token. -/
def unreadable (start stop : Position) : Tree :=
  node
    { symbol := .error, production := none, start, stop, extra := false, missing := false
      keyword := false, context := none, visible := true, cost := 0, weight := 0
      shownChildren := 0, shownBelow := 0 } []

/-- The names under which the children of a production are shown, extras standing between them. -/
def shownNames (production : Option Production) : List Tree → Nat → List (Option (String × Bool))
  | [], _ => []
  | child :: rest, place =>
      if child.extra then none :: shownNames production rest place
      else
        ((production.bind fun production => production.steps[place]?).bind (·.shownAs)) ::
          shownNames production rest (place + 1)

/-- The sums over the children of a node. -/
structure Totals where
  cost : Nat
  weight : Int
  shownChildren : Nat
  shownBelow : Nat

def Totals.add (skips : Bool) (totals : Totals) (child : Tree) (renamed : Bool) : Totals :=
  let label := child.label
  let own := if child.symbol == .skipping then 0 else child.cost
  let skipped :=
    if skips && !child.extra && !(child.isError && child.children.isEmpty) then
      if label.visible then costPerSkippedTree
      else if child.children.isEmpty then 0
      else costPerSkippedTree * label.shownChildren
    else 0
  let shown := if renamed || label.visible then 1 else 0
  { cost := totals.cost + own + skipped
    weight := totals.weight + label.weight
    shownChildren := totals.shownChildren +
      (if renamed || label.visible then 1 else label.shownChildren)
    shownBelow := totals.shownBelow + label.shownBelow + shown }

/-- A node over the given children; without children it is empty and stands at `place`. -/
def form (tables : Tables) (symbol : Symbol) (index : Option Nat) (place : Position)
    (children : List Tree) : Tree :=
  let skips := symbol == .error || symbol == .skipping
  let production := index.bind fun index => tables.productions[index]?
  let names := shownNames production children 0
  let totals := (children.zip names).foldl (fun totals (child, name) =>
    Totals.add skips totals child name.isSome) ⟨0, 0, 0, 0⟩
  let start := ((children.head?).map (·.label.start)).getD place
  let stop := ((children.getLast?).map (·.label.stop)).getD place
  let lostText :=
    if skips then
      costPerRecovery + costPerSkippedByte * (stop.bytes - start.bytes) +
        costPerSkippedLine * (stop.row - start.row)
    else 0
  let visible :=
    match symbol with
    | .grammar number =>
        ((tables.numbering.heads[number - tables.numbering.terminals.size]?).map
          (·.visible)).getD false
    | .skipping => false
    | .error => true
  node
    { symbol, production := index, start, stop, extra := false, missing := false, keyword := false
      context := none, visible, cost := totals.cost + lostText, weight := totals.weight
      shownChildren := totals.shownChildren, shownBelow := totals.shownBelow } children

def favour (weight : Int) : Tree → Tree
  | node label children => node { label with weight := label.weight + weight } children

/-- How many visible trees a tree brings, itself included. -/
def count (tree : Tree) : Nat :=
  tree.label.shownBelow + (if tree.label.visible then 1 else 0) +
    (if tree.symbol == .skipping then 1 else 0)

mutual

/-- Compare two trees by their symbols from the root down, a node with fewer children first. -/
def order (total : Nat) : Tree → Tree → Ordering
  | node left leftChildren, node right rightChildren =>
      (compare (left.symbol.rank total) (right.symbol.rank total)).then
        ((compare leftChildren.length rightChildren.length).then
          (orderAll total leftChildren rightChildren))

def orderAll (total : Nat) : List Tree → List Tree → Ordering
  | left :: lefts, right :: rights => (order total left right).then (orderAll total lefts rights)
  | _, _ => .eq

end

/-- Whether the second of two readings of the same text is to be taken. -/
def prefersSecond (tables : Tables) (first second : Tree) : Bool :=
  if second.cost < first.cost then true
  else if first.cost < second.cost then false
  else if first.label.weight < second.label.weight then true
  else if second.label.weight < first.label.weight then false
  else if first.cost > 0 then true
  else order (tables.numbering.terminals.size + tables.numbering.heads.size) first second == .gt

end Tree

end SolutionSurvey.Reading

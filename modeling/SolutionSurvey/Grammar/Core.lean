import SolutionSurvey.Grammar.Tables
import SolutionSurvey.Grammar.TokenPool
import Std.Data.TreeMap

/-!
# Cores

What a reader may be in the middle of is a set of items.  The items alone are a core; a symbol that
is read leads from one core to the next.  What may follow the items there is made up of terminals
known beforehand and of what may follow the items of the first core.
-/

namespace SolutionSurvey.Grammar

/-- What may follow an item: a numbered set of its own, and all that may follow the items in the
given places of the core it comes from. -/
structure Inflow where
  own : Nat
  places : List Nat
  deriving Inhabited

/-- The way from a core to the next by a symbol, with an inflow for each item of the latter. -/
structure Passage where
  symbol : Nat
  target : Nat
  inflows : Array Inflow
  deriving Inhabited

structure Core where
  /-- The items, by ascending number. -/
  items : Array Nat
  /-- The ways on, by ascending symbol. -/
  passages : Array Passage
  /-- The completed productions, those without any symbol included. -/
  completions : Array (Nat × Inflow)
  deriving Inhabited

namespace Core

/-- What may follow an item before its own terminals are numbered. -/
structure Source where
  own : TokenSet
  places : List Nat

def Source.join (left right : Source) : Source :=
  ⟨left.own.union right.own, right.places.foldl (fun places place => places.insert place) left.places⟩

/-- The items reached by reading each symbol. -/
abbrev Successors := Std.TreeMap Nat (Std.TreeMap Nat Source)

def addSuccessor (successors : Successors) (symbol item : Nat) (source : Source) : Successors :=
  successors.alter symbol fun items =>
    some ((items.getD ∅).alter item fun
      | none => some source
      | some known => some (known.join source))

/-- What can come after the symbol expected by the item in a place. -/
def outer (tables : Tables) (item place : Nat) : Source :=
  match tables.itemAfter.getD item none with
  | some first => ⟨first, []⟩
  | none => ⟨.empty, [place]⟩

def Source.ofContribution (outer : Source) (part : Contribution) : Source :=
  if part.inherits then outer.join ⟨part.own, []⟩ else ⟨part.own, []⟩

def successorsOfItem (tables : Tables) (successors : Successors) (item place : Nat) : Successors :=
  match tables.itemNext.getD item none with
  | none => successors
  | some next =>
      let successors :=
        addSuccessor successors next (tables.itemAfterwards.getD item 0) ⟨.empty, [place]⟩
      if tables.isTerminal next then successors
      else
        let outer := outer tables item place
        (tables.corner next).byFirst.fold (fun successors symbol parts =>
          parts.foldl (fun successors part =>
            addSuccessor successors symbol part.item (.ofContribution outer part)) successors)
          successors

def completionsOfItem (tables : Tables) (item place : Nat) : List (Nat × Source) :=
  match tables.itemNext.getD item none with
  | none => [(tables.itemProduction.getD item 0, ⟨.empty, [place]⟩)]
  | some next =>
      if tables.isTerminal next then []
      else
        let outer := outer tables item place
        (tables.corner next).empties.toList.map fun part =>
          (tables.itemProduction.getD part.item 0, .ofContribution outer part)

/-- The cores found so far.  Those whose ways on are known come first. -/
structure Search where
  pool : TokenPool
  found : Array (Array Nat)
  known : Std.HashMap (Array Nat) Nat
  done : Array Core
  deriving Inhabited

namespace Search

def intern (search : Search) (items : Array Nat) : Search × Nat :=
  match search.known[items]? with
  | some number => (search, number)
  | none =>
      let number := search.found.size
      ({ search with
          found := search.found.push items, known := search.known.insert items number }, number)

def inflow (search : Search) (source : Source) : Search × Inflow :=
  let (pool, own) := search.pool.intern source.own
  ({ search with pool }, ⟨own, source.places⟩)

def passage (search : Search) (symbol : Nat) (items : Std.TreeMap Nat Source) : Search × Passage :=
  let (search, target) := search.intern items.keysArray
  let (search, inflows) := items.foldl (fun (search, inflows) _ source =>
    let (search, inflow) := inflow search source
    (search, inflows.push inflow)) (search, #[])
  (search, ⟨symbol, target, inflows⟩)

/-- Find the ways on from a core. -/
def extend (tables : Tables) (search : Search) (items : Array Nat) : Search :=
  let (successors, _) := items.foldl (fun (successors, place) item =>
    (successorsOfItem tables successors item place, place + 1)) ((∅ : Successors), 0)
  let (search, passages) := successors.foldl (fun (search, passages) symbol items =>
    let (search, passage) := passage search symbol items
    (search, passages.push passage)) (search, #[])
  let sources := items.toList.zipIdx.flatMap fun (item, place) => completionsOfItem tables item place
  let (search, completions) := sources.foldl (fun (search, completions) (production, source) =>
    let (search, inflow) := inflow search source
    (search, completions.push (production, inflow))) (search, #[])
  { search with done := search.done.push ⟨items, passages, completions⟩ }

def extendAll (tables : Tables) : Nat → Search → Search
  | 0, search => search
  | fuel + 1, search =>
      match search.found[search.done.size]? with
      | none => search
      | some items => extendAll tables fuel (extend tables search items)

/-- No grammar here has as many cores. -/
def limit : Nat := 65536

/-- All cores that can be reached from the given ones, which are numbered first. -/
def ofSeeds (tables : Tables) (seeds : List (Array Nat)) : Search :=
  let start := seeds.foldl (fun search items => (intern search items).1)
    ({ pool := .start, found := #[], known := ∅, done := #[] } : Search)
  extendAll tables limit start

end Search

end Core

end SolutionSurvey.Grammar

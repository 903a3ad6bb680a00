import SolutionSurvey.Grammar.Core

/-!
# Kernels

A kernel is a core together with what may follow each of its items.  The kernels that arise while
texts are read are all found by following the passages between cores.
-/

namespace SolutionSurvey.Grammar

structure Kernel where
  core : Nat
  /-- The number of the token set that may follow each item. -/
  follow : Array Nat
  deriving BEq, Hashable, Inhabited

/-- The kernels found so far, and for those already followed the kernels they lead to. -/
structure Kernels where
  cores : Array Core
  pool : TokenPool
  kernels : Array Kernel
  known : Std.HashMap Kernel Nat
  /-- The kernel that each passage of a kernel's core leads to. -/
  targets : Array (Array Nat)
  deriving Inhabited

namespace Kernels

def core (kernels : Kernels) (number : Nat) : Core :=
  kernels.cores.getD (kernels.kernels.getD number default).core default

def intern (kernels : Kernels) (kernel : Kernel) : Kernels × Nat :=
  match kernels.known[kernel]? with
  | some number => (kernels, number)
  | none =>
      let number := kernels.kernels.size
      ({ kernels with
          kernels := kernels.kernels.push kernel
          known := kernels.known.insert kernel number }, number)

/-- What an inflow amounts to when it comes from items with the given follow sets. -/
def flow (pool : TokenPool) (follow : Array Nat) (inflow : Inflow) : TokenPool × Nat :=
  inflow.places.foldl (fun (pool, set) place => pool.union set (follow.getD place 0))
    (pool, inflow.own)

def flows (pool : TokenPool) (follow : Array Nat) (inflows : Array Inflow) :
    TokenPool × Array Nat :=
  inflows.foldl (fun (pool, sets) inflow =>
    let (pool, set) := flow pool follow inflow
    (pool, sets.push set)) (pool, Array.emptyWithCapacity inflows.size)

def followPassage (kernels : Kernels) (follow : Array Nat) (passage : Passage) : Kernels × Nat :=
  let (pool, sets) := flows kernels.pool follow passage.inflows
  { kernels with pool }.intern ⟨passage.target, sets⟩

/-- Follow the passages of a kernel. -/
def extend (kernels : Kernels) (kernel : Kernel) : Kernels :=
  let passages := (kernels.cores.getD kernel.core default).passages
  let (kernels, targets) := passages.foldl (fun (kernels, targets) passage =>
    let (kernels, target) := followPassage kernels kernel.follow passage
    (kernels, targets.push target)) (kernels, Array.emptyWithCapacity passages.size)
  { kernels with targets := kernels.targets.push targets }

def extendAll : Nat → Kernels → Kernels
  | 0, kernels => kernels
  | fuel + 1, kernels =>
      match kernels.kernels[kernels.targets.size]? with
      | none => kernels
      | some kernel => extendAll fuel (extend kernels kernel)

/-- No grammar here has as many kernels. -/
def limit : Nat := 1000000

/-- All kernels that arise from the given ones, which are numbered first.  Each is given by its
items and by what may follow all of them. -/
def ofSeeds (tables : Tables) (seeds : List (Array Nat × TokenSet)) : Kernels :=
  let search := Core.Search.ofSeeds tables (seeds.map (·.1))
  let start : Kernels :=
    { cores := search.done, pool := search.pool, kernels := #[], known := ∅, targets := #[] }
  let started := seeds.foldl (fun kernels (items, follow) =>
    let (pool, set) := kernels.pool.intern follow
    ({ kernels with pool }.intern
      ⟨search.known.getD items 0, Array.replicate items.size set⟩).1) start
  extendAll limit started

end Kernels

end SolutionSurvey.Grammar

/-!
# Sums and tallies

A tally counts for every key; a key for which nothing was counted yet has zero.  Sums that are kept
in machine words have to fit; what happens where one does not is up to the build.
-/

namespace SolutionSurvey

def sumOf (numbers : List Nat) : Nat := numbers.foldr (· + ·) 0

abbrev Tally (κ : Type) := κ → Nat

namespace Tally

def zero {κ : Type} : Tally κ := fun _ => 0

def add {κ : Type} [DecidableEq κ] (key : κ) (amount : Nat) (tally : Tally κ) : Tally κ :=
  fun other => tally other + if key = other then amount else 0

end Tally

/-! ### Machine words -/

/-- The least number that a machine word cannot hold. -/
def wordSize : Nat := UInt64.size

/-- What a build does with a sum that does not fit a word. -/
inductive Overflow where
  | panics
  | wraps
  deriving DecidableEq, Repr, Inhabited

namespace Overflow

/-- A number as a word; a build that panics has none for numbers that do not fit. -/
def word? (overflow : Overflow) (number : Nat) : Option Nat :=
  if number < wordSize then some number
  else
    match overflow with
    | panics => none
    | wraps => some (number % wordSize)

def add? (overflow : Overflow) (left right : Nat) : Option Nat := overflow.word? (left + right)

end Overflow

def Tally.add? {κ : Type} [DecidableEq κ] (overflow : Overflow) (key : κ) (amount : Nat)
    (tally : Tally κ) : Option (Tally κ) :=
  (overflow.add? (tally key) amount).map fun total other => if key = other then total else tally other

end SolutionSurvey

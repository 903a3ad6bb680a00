/-!
# Sets of characters given by ranges

A character class of a standard is a table of ranges of code points in ascending order.  Membership
is decided by halving the table.
-/

namespace SolutionSurvey.Text

/-- Ranges of code points, both ends included, in ascending order. -/
abbrev Ranges := Array (Nat × Nat)

namespace Ranges

/-- Look for a code point among the ranges from `low` up to but without `high`. -/
def search (ranges : Ranges) (code : Nat) : Nat → Nat → Nat → Bool
  | 0, _, _ => false
  | fuel + 1, low, high =>
      if high ≤ low then false
      else
        let middle := (low + high) / 2
        if code < (ranges.getD middle (1, 0)).1 then search ranges code fuel low middle
        else if (ranges.getD middle (1, 0)).2 < code then search ranges code fuel (middle + 1) high
        else true

def contains (ranges : Ranges) (code : Nat) : Bool :=
  search ranges code (ranges.size + 1) 0 ranges.size

end Ranges

end SolutionSurvey.Text

/-!
# Token sets

A set of terminals is a number whose binary digits are its members.  Union and membership are
bitwise, so that the sets of a large grammar stay cheap.
-/

namespace SolutionSurvey.Grammar

/-- A finite set of terminal numbers. -/
structure TokenSet where
  bits : Nat
  deriving DecidableEq, Hashable, Repr, Inhabited

namespace TokenSet

def empty : TokenSet := ⟨0⟩

def singleton (token : Nat) : TokenSet := ⟨1 <<< token⟩

def union (left right : TokenSet) : TokenSet := ⟨left.bits ||| right.bits⟩

/-- The members of both sets. -/
def common (left right : TokenSet) : TokenSet := ⟨left.bits &&& right.bits⟩

/-- The members of the first set that are not in the second. -/
def without (left right : TokenSet) : TokenSet := ⟨left.bits ^^^ (left.bits &&& right.bits)⟩

def contains (set : TokenSet) (token : Nat) : Bool := set.bits.testBit token

def insert (set : TokenSet) (token : Nat) : TokenSet := set.union (singleton token)

def meets (left right : TokenSet) : Bool := left.bits &&& right.bits != 0

def isEmpty (set : TokenSet) : Bool := set.bits == 0

def ofList (tokens : List Nat) : TokenSet := tokens.foldl insert empty

@[simp] theorem contains_empty (token : Nat) : empty.contains token = false := by
  simp [contains, empty]

@[simp] theorem contains_union (left right : TokenSet) (token : Nat) :
    (left.union right).contains token = (left.contains token || right.contains token) := by
  simp [contains, union, Nat.testBit_or]

@[simp] theorem contains_common (left right : TokenSet) (token : Nat) :
    (left.common right).contains token = (left.contains token && right.contains token) := by
  simp [contains, common, Nat.testBit_and]

@[simp] theorem contains_without (left right : TokenSet) (token : Nat) :
    (left.without right).contains token = (left.contains token && !right.contains token) := by
  cases leftHas : left.bits.testBit token <;> cases rightHas : right.bits.testBit token <;>
    simp [contains, without, Nat.testBit_xor, Nat.testBit_and, leftHas, rightHas]

theorem contains_singleton (token other : Nat) :
    (singleton token).contains other = decide (token = other) := by
  simp [contains, singleton, Nat.one_shiftLeft, Nat.testBit_two_pow]

theorem contains_insert (set : TokenSet) (token other : Nat) :
    (set.insert token).contains other = (set.contains other || decide (token = other)) := by
  simp [insert, contains_singleton]

end TokenSet

end SolutionSurvey.Grammar

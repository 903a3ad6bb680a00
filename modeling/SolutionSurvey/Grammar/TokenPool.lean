import SolutionSurvey.Grammar.TokenSet
import Std.Data.HashMap

/-!
# Numbered token sets

A large grammar has few different token sets, which occur over and over.  A pool numbers them, the
empty set first, so that sets are compared by their numbers and each union is formed once.
-/

namespace SolutionSurvey.Grammar

structure TokenPool where
  sets : Array TokenSet
  known : Std.HashMap TokenSet Nat
  unions : Std.HashMap (Nat × Nat) Nat

namespace TokenPool

def none : Nat := 0

def start : TokenPool := ⟨#[.empty], (∅ : Std.HashMap TokenSet Nat).insert .empty none, ∅⟩

instance : Inhabited TokenPool := ⟨start⟩

def set (pool : TokenPool) (number : Nat) : TokenSet := pool.sets.getD number .empty

def intern (pool : TokenPool) (set : TokenSet) : TokenPool × Nat :=
  match pool.known[set]? with
  | some number => (pool, number)
  | Option.none =>
      let number := pool.sets.size
      ({ pool with sets := pool.sets.push set, known := pool.known.insert set number }, number)

def union (pool : TokenPool) (left right : Nat) : TokenPool × Nat :=
  if left == right || right == none then (pool, left)
  else if left == none then (pool, right)
  else
    match pool.unions[(left, right)]? with
    | some number => (pool, number)
    | Option.none =>
        let (pool, number) := pool.intern ((pool.set left).union (pool.set right))
        ({ pool with unions := pool.unions.insert (left, right) number }, number)

end TokenPool

end SolutionSurvey.Grammar

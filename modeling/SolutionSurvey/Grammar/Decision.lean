import SolutionSurvey.Grammar.Core

/-!
# Choosing between actions

On a terminal a reader may reduce completed productions and may read the terminal.  Binding levels
and sides decide between the two; what they do not decide stays and is read both ways.
-/

namespace SolutionSurvey.Grammar

/-- What a core does on a terminal: it reduces productions, and then it may also read the
terminal. -/
structure Verdict where
  reductions : List Nat
  reads : Bool
  /-- The terminal is read as the second half of a repetition, which a reduction has already taken
  up. -/
  again : Bool
  deriving DecidableEq, Repr, Inhabited

/-- The place of the first entry of a list that is among the given heads. -/
def firstPlace (ordering heads : List Nat) : Option Nat := ordering.findIdx? heads.contains

/-- Compare how tightly two readings bind.  Levels decide; where both are zero, the first ordering
that ranks both readings does. -/
def compareBinding (orderings : List (List Nat)) (leftLevel : Int) (leftHeads : List Nat)
    (rightLevel : Int) (rightHeads : List Nat) : Ordering :=
  if leftLevel != 0 || rightLevel != 0 then compare leftLevel rightLevel
  else
    (orderings.findSome? fun ordering =>
      match firstPlace ordering leftHeads, firstPlace ordering rightHeads with
      | some left, some right =>
          if left < right then some .gt else if right < left then some .lt else none
      | _, _ => none).getD .eq

/-- The reductions kept for a terminal, all binding equally tightly. -/
structure Reductions where
  productions : List Nat
  level : Int
  heads : List Nat
  leftward : Bool
  rightward : Bool
  undecided : Bool
  deriving Inhabited

namespace Reductions

def none : Reductions := ⟨[], 0, [], false, false, false⟩

/-- Take up one more reduction: a tighter one replaces the others, a looser one is dropped. -/
def take (orderings : List (List Nat)) (kept : Reductions) (index : Nat) (production : Production) :
    Reductions :=
  let last := production.steps.back?
  let level := (last.map (·.level)).getD 0
  let side := last.bind (·.side)
  let add (kept : Reductions) : Reductions :=
    { productions := kept.productions ++ [index]
      level
      heads := if kept.heads.contains production.head then kept.heads
        else production.head :: kept.heads
      leftward := kept.leftward || side == some .left
      rightward := kept.rightward || side == some .right
      undecided := kept.undecided || side == Option.none }
  if kept.productions.isEmpty then add none
  else
    match compareBinding orderings level [production.head] kept.level kept.heads with
    | .gt => add none
    | .eq => add kept
    | .lt => kept

end Reductions

/-- The items that have already read something and can go on with the terminal. -/
def continuing (tables : Tables) (items : Array Nat) (token : Nat) : Array Nat :=
  items.filter fun item =>
    match tables.itemNext.getD item none with
    | none => false
    | some next =>
        tables.firstItem.getD (tables.itemProduction.getD item 0) 0 < item &&
          (tables.first.getD next .empty).contains token

/-- How tightly an item binds after the last step it has read. -/
def itemLevel (tables : Tables) (item : Nat) : Int :=
  let index := tables.itemProduction.getD item 0
  let production := tables.productions.getD index default
  match production.steps[item - tables.firstItem.getD index 0 - 1]? with
  | some step => step.level
  | none => 0

def itemHead (tables : Tables) (item : Nat) : Nat :=
  (tables.productions.getD (tables.itemProduction.getD item 0) default).head

def isRepetition (tables : Tables) (head : Nat) : Bool :=
  ((tables.numbering.heads[head]?).map (·.repeats)).getD false

/-- Keep the reductions, the reading of the terminal, or both. -/
def settle (tables : Tables) (items : Array Nat) (token : Nat) (kept : Reductions) : Verdict :=
  let going := continuing tables items token
  let heads := (going.map (itemHead tables)).toList ++
    kept.productions.map fun index => (tables.productions.getD index default).head
  match heads with
  | [] => ⟨kept.productions, true, false⟩
  | head :: rest =>
      if isRepetition tables head && rest.all (· == head) then ⟨kept.productions, true, true⟩
      else
        let verdicts := going.map fun item =>
          compareBinding tables.orderings (itemLevel tables item) [itemHead tables item]
            kept.level kept.heads
        let more := verdicts.contains .gt
        let less := verdicts.contains .lt
        if more && !less then ⟨[], true, false⟩
        else if less && !more then ⟨kept.productions, false, false⟩
        else if !less && !more && kept.leftward && !kept.undecided && !kept.rightward then
          ⟨kept.productions, false, false⟩
        else if !less && !more && kept.rightward && !kept.undecided && !kept.leftward then
          ⟨[], true, false⟩
        else ⟨kept.productions, true, false⟩

/-- The completed productions that are reduced, shorter ones first. -/
def Reductions.ofCompleted (tables : Tables) (completed : List Nat) : Reductions :=
  let rank (index : Nat) : Nat × Nat :=
    let production := tables.productions.getD index default
    (production.steps.size, production.head)
  let ordered := completed.mergeSort fun left right =>
    let left := rank left
    let right := rank right
    left.1 < right.1 || (left.1 == right.1 && left.2 ≤ right.2)
  ordered.foldl (fun kept index =>
    kept.take tables.orderings index (tables.productions.getD index default)) .none

/-- What a core does on a terminal that may follow the given completed productions. -/
def Core.decide (tables : Tables) (core : Core) (completed : List Nat) (token : Nat) : Verdict :=
  let kept := Reductions.ofCompleted tables completed
  if !(core.passages.any (·.symbol == token)) then ⟨kept.productions, false, false⟩
  else if kept.productions.isEmpty then ⟨[], true, false⟩
  else settle tables core.items token kept

end SolutionSurvey.Grammar

import SolutionSurvey.Collection.Table
import SolutionSurvey.Duplication.Record

/-!
# Finding blocks that share a hash

A detector is told of one block after another.  The first block with a hash waits for a second one;
from then on the blocks with that hash form a group.
-/

namespace SolutionSurvey

inductive Sighting where
  | once (place : Occurrence)
  | often (places : List Occurrence)
  deriving DecidableEq, Repr, Inhabited

/-- What is known of every hash met so far. -/
abbrev Detector := Table Sighting

namespace Detector

def empty : Detector := []

def sight (place : Occurrence) : Option Sighting → Sighting
  | none => .once place
  | some (.once first) => .often [first, place]
  | some (.often places) => .often (places ++ [place])

def record (detector : Detector) (hash : String) (place : Occurrence) : Detector :=
  detector.insert hash (sight place (detector.get? hash))

def recordAll (detector : Detector) (blocks : List (String × Occurrence)) : Detector :=
  blocks.foldl (fun detector (hash, place) => detector.record hash place) detector

/-- A group with its members in order. -/
def group (hash : String) (places : List Occurrence) : DuplicationGroup :=
  let members := places.mergeSort fun left right => (left.order right).isLE
  { hash
    key := ((members.head?).map fun first => first.filePath ++ ":" ++ first.methodName).getD ""
    members := members.map (.ofOccurrence hash) }

def group? : String × Sighting → Option DuplicationGroup
  | (_, .once _) => none
  | (hash, .often places) => some (group hash places)

def groups (detector : Detector) : List DuplicationGroup :=
  (detector.filterMap group?).mergeSort fun left right => (left.order right).isLE

end Detector

end SolutionSurvey

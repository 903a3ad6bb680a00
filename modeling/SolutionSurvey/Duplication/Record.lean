/-!
# Records of duplicated blocks
-/

namespace SolutionSurvey

/-- Where a block of a method stands. -/
structure Occurrence where
  filePath : String
  methodName : String
  startLine : Nat
  lineCount : Nat
  deriving DecidableEq, Repr, Inhabited

def Occurrence.order (left right : Occurrence) : Ordering :=
  (compare left.filePath right.filePath).then
    ((compare left.startLine right.startLine).then (compare left.methodName right.methodName))

/-- A block that occurs elsewhere too. -/
structure DuplicationRecord where
  hash : String
  filePath : String
  methodName : String
  startLine : Nat
  lineCount : Nat
  deriving DecidableEq, Repr, Inhabited

def DuplicationRecord.ofOccurrence (hash : String) (occurrence : Occurrence) : DuplicationRecord :=
  { hash, filePath := occurrence.filePath, methodName := occurrence.methodName
    startLine := occurrence.startLine, lineCount := occurrence.lineCount }

structure DuplicationGroup where
  hash : String
  /-- The file and the method of the first member. -/
  key : String
  members : List DuplicationRecord
  deriving DecidableEq, Repr, Inhabited

def DuplicationGroup.order (left right : DuplicationGroup) : Ordering :=
  (compare left.key right.key).then (compare left.hash right.hash)

end SolutionSurvey

/-!
# Tables

A table gives values to texts.  Its entries are kept in ascending order of the texts, each text once.
-/

namespace SolutionSurvey

/-- Entries in ascending order of their keys. -/
abbrev Table (α : Type) := List (String × α)

namespace Table

/-- Give a key a value, whatever value it had. -/
def insert {α : Type} (key : String) (value : α) : Table α → Table α
  | [] => [(key, value)]
  | (known, old) :: rest =>
      match compare key known with
      | .lt => (key, value) :: (known, old) :: rest
      | .eq => (key, value) :: rest
      | .gt => (known, old) :: insert key value rest

def get? {α : Type} (key : String) : Table α → Option α
  | [] => none
  | (known, value) :: rest => if key = known then some value else get? key rest

def ofList {α : Type} (entries : List (String × α)) : Table α :=
  entries.foldl (fun table entry => insert entry.1 entry.2 table) []

/-- Raise the number of a key, which counts as zero where there is none. -/
def add (key : String) (amount : Nat) (table : Table Nat) : Table Nat :=
  insert key ((table.get? key).getD 0 + amount) table

end Table

end SolutionSurvey

/-!
# JSON

Values and the way they are written out: one member or element a line, two spaces deeper at each
level, with nothing between the brackets of an empty array or object.
-/

namespace SolutionSurvey

/-- A JSON value; the members of an object are kept in order. -/
inductive Json where
  | null
  | number (value : Nat)
  | text (value : String)
  | array (items : List Json)
  | object (members : List (String × Json))
  deriving Repr, Inhabited

namespace Json

def hexDigit (value : Nat) : Char := Nat.digitChar (value % 16)

/-- A character as it stands between quotes. -/
def escape (c : Char) : List Char :=
  match c with
  | '"' => ['\\', '"']
  | '\\' => ['\\', '\\']
  | '\n' => ['\\', 'n']
  | '\r' => ['\\', 'r']
  | '\t' => ['\\', 't']
  | '\x08' => ['\\', 'b']
  | '\x0c' => ['\\', 'f']
  | c =>
      if c.toNat < 0x20 then
        ['\\', 'u', '0', '0', hexDigit (c.toNat / 16), hexDigit c.toNat]
      else [c]

def quote (text : String) : String :=
  String.ofList ('"' :: text.toList.flatMap escape ++ ['"'])

def indent (depth : Nat) : String := String.ofList (List.replicate (2 * depth) ' ')

mutual

/-- A value written out at a depth. -/
def render (depth : Nat) : Json → String
  | null => "null"
  | number value => toString value
  | text value => quote value
  | array [] => "[]"
  | array (item :: items) =>
      "[\n" ++ indent (depth + 1) ++ render (depth + 1) item ++ renderItems (depth + 1) items ++
        "\n" ++ indent depth ++ "]"
  | object [] => "\x7b\x7d"
  | object ((name, value) :: members) =>
      "\x7b\n" ++ indent (depth + 1) ++ quote name ++ ": " ++ render (depth + 1) value ++
        renderMembers (depth + 1) members ++ "\n" ++ indent depth ++ "\x7d"

def renderItems (depth : Nat) : List Json → String
  | [] => ""
  | item :: items => ",\n" ++ indent depth ++ render depth item ++ renderItems depth items

def renderMembers (depth : Nat) : List (String × Json) → String
  | [] => ""
  | (name, value) :: members =>
      ",\n" ++ indent depth ++ quote name ++ ": " ++ render depth value ++
        renderMembers depth members

end

def pretty (value : Json) : String := value.render 0

def ofOption {α : Type} (encode : α → Json) : Option α → Json
  | none => null
  | some value => encode value

def ofList {α : Type} (encode : α → Json) (values : List α) : Json := array (values.map encode)

end Json

end SolutionSurvey

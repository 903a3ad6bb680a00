/-!
# White space

The characters with the Unicode property `White_Space`, and the operations on text that rest on
them: trimming, cutting into words and leaving all white space out.
-/

namespace SolutionSurvey.Text

def isBlank (c : Char) : Bool :=
  ('\t' ≤ c && c ≤ '\r') || c == ' ' || c.toNat == 0x85 || c.toNat == 0xA0 ||
    c.toNat == 0x1680 || (0x2000 ≤ c.toNat && c.toNat ≤ 0x200A) || c.toNat == 0x2028 ||
    c.toNat == 0x2029 || c.toNat == 0x202F || c.toNat == 0x205F || c.toNat == 0x3000

/-- The part of a list left when both ends are freed of elements of a kind. -/
def trimList {α : Type} (kind : α → Bool) (items : List α) : List α :=
  (((items.dropWhile kind).reverse).dropWhile kind).reverse

def trim (text : String) : String := String.ofList (trimList isBlank text.toList)

def trimStart (text : String) : String := String.ofList (text.toList.dropWhile isBlank)

def trimEndOf (kind : Char → Bool) (text : String) : String :=
  String.ofList ((text.toList.reverse.dropWhile kind).reverse)

def compact (text : String) : String := String.ofList (text.toList.filter (!isBlank ·))

/-- The maximal stretches of a list that hold no separator, empty ones included. -/
def pieces {α : Type} (separates : α → Bool) : List α → List (List α)
  | [] => [[]]
  | item :: rest =>
      if separates item then [] :: pieces separates rest
      else
        match pieces separates rest with
        | [] => [[item]]
        | first :: others => (item :: first) :: others

/-- The words of a text, in order: its maximal stretches without white space. -/
def words (text : String) : List String :=
  ((pieces isBlank text.toList).filter (!·.isEmpty)).map String.ofList

end SolutionSurvey.Text

import Folio.Decimal.Basic
import Folio.Json

/-!
# Folio.Json.Printer

The texts of values.

* `compact`: without any blanks.
* `indented`: each item and each member in a line of its own.
-/

namespace Folio
namespace Json

/-- The text of a float. What is no number has none. -/
def floatText (x : Float) : List Char :=
  if x.isFinite then
    (if isNegative x then ['-'] else []) ++ (Decimal.shortest x).general (-4) 16
  else "null".toList

def intText (n : Int) : List Char :=
  (toString n).toList

mutual

/-- The text of a value without blanks. -/
def compact : Json → List Char
  | .null => "null".toList
  | .bool true => "true".toList
  | .bool false => "false".toList
  | .int n => intText n
  | .float x => floatText x
  | .str s => quote s
  | .arr items => '[' :: commaSeparated (compactItems items) ++ [']']
  | .obj members => '\x7b' :: commaSeparated (compactMembers members) ++ ['\x7d']

def compactItems : List Json → List (List Char)
  | [] => []
  | item :: items => compact item :: compactItems items

def compactMembers : List (String × Json) → List (List Char)
  | [] => []
  | (name, value) :: members => (quote name ++ ':' :: compact value) :: compactMembers members

end

def newLine (width depth : Nat) : List Char :=
  '\n' :: List.replicate (width * depth) ' '

/-- Texts in lines of their own between two brackets. -/
def bracketed (width depth : Nat) (opening closing : Char) (texts : List (List Char)) : List Char :=
  if texts.isEmpty then [opening, closing]
  else
    opening :: commaSeparated (texts.map (newLine width (depth + 1) ++ ·)) ++ newLine width depth ++ [closing]

mutual

/-- The text of a value with `width` blanks for each level of brackets. -/
def indented (width depth : Nat) : Json → List Char
  | .arr items => bracketed width depth '[' ']' (indentedItems width (depth + 1) items)
  | .obj members => bracketed width depth '\x7b' '\x7d' (indentedMembers width (depth + 1) members)
  | value => compact value

def indentedItems (width depth : Nat) : List Json → List (List Char)
  | [] => []
  | item :: items => indented width depth item :: indentedItems width depth items

def indentedMembers (width depth : Nat) : List (String × Json) → List (List Char)
  | [] => []
  | (name, value) :: members =>
    (quote name ++ ": ".toList ++ indented width depth value) :: indentedMembers width depth members

end

end Json
end Folio

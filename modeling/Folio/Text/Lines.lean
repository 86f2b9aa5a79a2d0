/-!
# Folio.Text.Lines

* `lines`: the lines of a text. Each ends at a line feed, a carriage return right before that line feed is no
  part of the line, and a text that ends with a line feed has no empty last line.
-/

namespace Folio
namespace Text

/-- The lines of a text, without their ends. -/
def lines : List Char → List (List Char)
  | [] => []
  | '\r' :: '\n' :: cs => [] :: lines cs
  | '\n' :: cs => [] :: lines cs
  | c :: cs =>
    match lines cs with
    | [] => [[c]]
    | line :: rest => (c :: line) :: rest

end Text
end Folio

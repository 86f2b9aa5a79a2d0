import Folio.Markdown.Event
import Folio.Markdown.Cursor

/-!
# Folio.Markdown.Table

The rows of tables.

* `delimiterRow?`: the row of hyphens below the head of a table, as the alignments of its columns.
* `columnCount`: the number of columns that a head has.
* `cells`: the cells of a row. A bar after a backslash separates no cells, and loses its backslash.
-/

namespace Folio
namespace Markdown

/-- A column of a delimiter row as far as it is read: its alignment, whether something of it is read, and whether
a hyphen is. -/
structure ColumnMark where
  alignment : ColumnAlignment := .unset
  begun : Bool := false
  hyphen : Bool := false

/-- The alignment after a colon. -/
def ColumnMark.colon (m : ColumnMark) : ColumnMark :=
  let alignment := match m.begun, m.alignment with
    | false, .unset => .left
    | true, .left => .center
    | true, .unset => .right
    | _, a => a
  { m with alignment, begun := true }

/-- The columns of a delimiter row, `m` being read, and whether a bar is among the characters. -/
def delimiterColumns (m : ColumnMark) : List Char → Option (List ColumnAlignment × Bool × Bool)
  | [] => some (if m.begun then ([m.alignment], false, m.hyphen) else ([], false, m.hyphen))
  | ' ' :: cs => delimiterColumns m cs
  | ':' :: cs => delimiterColumns m.colon cs
  | '-' :: cs => delimiterColumns { m with begun := true, hyphen := true } cs
  | '|' :: cs =>
    if m.hyphen then
      match delimiterColumns {} cs with
      | some (columns, _, _) => some (m.alignment :: columns, true, true)
      | none => none
    else none
  | _ => none

/-- The alignments of a delimiter row at the start of a text, and what follows its line. -/
def delimiterRow? (cs : List Char) : Option (List ColumnAlignment × List Char) :=
  let (line, _, rest) := splitLineEnd cs
  let indent := (line.takeWhile (· == ' ')).length
  let (first, line) := match line.dropWhile (· == ' ') with
    | '|' :: line => (true, line)
    | line => (false, line)
  if 3 < indent then none
  else
    match delimiterColumns {} line with
    | some (columns, bar, hyphen) => if (first || bar) && hyphen then some (columns, rest) else none
    | none => none

/-- What follows each bar of a line that no backslash precedes. -/
def barTails (escaped : Bool) : List Char → List (List Char)
  | [] => []
  | c :: cs => (if c == '|' && !escaped then [cs] else []) ++ barTails (c == '\\') cs

/-- The number of columns in the line of a head; a line without bars is none. -/
def columnCount (line : List Char) : Nat :=
  let tails := barTails false line
  match tails.getLast? with
  | none => 0
  | some last =>
    let outer := if (line.dropWhile isLineBlank).head? == some '|' then 1 else 0
    let open_ := if last.all isLineBlank then 0 else 1
    tails.length - outer + open_

/-- The text of a cell up to the next bar that separates cells, and what follows it. -/
def cellText (escaped : Bool) : List Char → List Char × List Char
  | [] => ([], [])
  | c :: cs =>
    if c == '|' && !escaped then ([], c :: cs)
    else
      let (text, rest) := cellText (c == '\\') cs
      (c :: text, rest)

/-- Backslashes before bars are dropped. -/
def unescapeBars : List Char → List Char
  | '\\' :: '|' :: cs => '|' :: unescapeBars cs
  | c :: cs => c :: unescapeBars cs
  | [] => []

def trimLine (cs : List Char) : List Char :=
  ((cs.dropWhile isLineBlank).reverse.dropWhile isLineBlank).reverse

/-- The cells of a row, at most `n`. -/
def cellsUpTo : Nat → List Char → List (List Char)
  | 0, _ => []
  | n + 1, cs =>
    let cs := match cs with
      | '|' :: cs => cs
      | cs => cs
    let cs := cs.dropWhile isLineBlank
    if cs.isEmpty then []
    else
      let (text, rest) := cellText false cs
      unescapeBars (trimLine text) :: cellsUpTo n rest

/-- The cells of a row in a table with `width` columns. Missing cells are empty, further ones are dropped. -/
def cells (width : Nat) (line : List Char) : List (List Char) :=
  let found := (cellsUpTo (line.length + 1) line).take width
  found ++ List.replicate (width - found.length) []

end Markdown
end Folio

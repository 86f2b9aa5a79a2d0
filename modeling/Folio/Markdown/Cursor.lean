/-!
# Folio.Markdown.Cursor

Places in a line of markdown, and the line ends.

* `Cursor`: the characters from a place on, its distance from the last tab stop, and the columns of a tab that
  are not yet taken.
* `skipColumns`: takes white space by columns; a tab reaches to the next multiple of four.
* `lineEnd?`, `blankLine?`, `splitLine`: the end of a line. A carriage return, a line feed and both in this
  order each end a line; listings know line feeds only.
-/

namespace Folio
namespace Markdown

/-- Blanks inside a line. -/
def isLineBlank (c : Char) : Bool :=
  c == ' ' || c == '\t' || c == '\x0b' || c == '\x0c'

def isSpaceOrTab (c : Char) : Bool :=
  c == ' ' || c == '\t'

def isLineBreak (c : Char) : Bool :=
  c == '\n' || c == '\r'

/-- Blanks and line ends. -/
def isAsciiBlank (c : Char) : Bool :=
  isLineBlank c || isLineBreak c

/-- What follows the line end at the start of a text. The end of the text ends a line, too. -/
def lineEnd? : List Char → Option (List Char)
  | [] => some []
  | '\r' :: '\n' :: cs => some cs
  | '\r' :: cs => some cs
  | '\n' :: cs => some cs
  | _ => none

/-- What follows the rest of a line, if that is blank. -/
def blankLine? (cs : List Char) : Option (List Char) :=
  lineEnd? (cs.dropWhile isLineBlank)

/-- The text up to and with the next line feed, and what follows it. -/
def splitLine : List Char → List Char × List Char
  | [] => ([], [])
  | '\n' :: cs => (['\n'], cs)
  | c :: cs => (c :: (splitLine cs).1, (splitLine cs).2)

/-- The text up to the next line end, that line end, and what follows it. -/
def splitLineEnd : List Char → List Char × List Char × List Char
  | [] => ([], [], [])
  | '\r' :: '\n' :: cs => ([], ['\r', '\n'], cs)
  | '\r' :: cs => ([], ['\r'], cs)
  | '\n' :: cs => ([], ['\n'], cs)
  | c :: cs =>
    let (line, mark, rest) := splitLineEnd cs
    (c :: line, mark, rest)

/-- A line of a listing, where a carriage return before the last character is dropped. -/
def listingLine (line : List Char) : List Char :=
  match line.reverse with
  | c :: '\r' :: cs => (c :: cs).reverse
  | _ => line

structure Cursor where
  rest : List Char
  column : Nat
  pending : Nat
  deriving Repr

namespace Cursor

def start (cs : List Char) : Cursor := ⟨cs, 0, 0⟩

/-- Takes up to `n` columns of white space: how many are missing, and the place after them. -/
def skipText : Nat → List Char → Nat → Nat × Cursor
  | 0, cs, column => (0, ⟨cs, column, 0⟩)
  | n + 1, ' ' :: cs, column => skipText n cs (column + 1)
  | n + 1, '\t' :: cs, column =>
    let width := 4 - column % 4
    if width ≤ n + 1 then skipText (n + 1 - width) cs 0
    else (0, ⟨cs, 0, width - (n + 1)⟩)
  | n + 1, cs, column => (n + 1, ⟨cs, column, 0⟩)
termination_by _ cs => cs.length

/-- Takes up to `n` columns of white space, those still pending first. -/
def skipColumns (n : Nat) (c : Cursor) : Nat × Cursor :=
  if n ≤ c.pending then (0, { c with pending := c.pending - n })
  else skipText (n - c.pending) c.rest c.column

/-- The place after up to `n` columns of white space. -/
def skipUpTo (n : Nat) (c : Cursor) : Cursor :=
  (c.skipColumns n).2

/-- The number of columns of white space at a place, at most `n`. -/
def indent (n : Nat) (c : Cursor) : Nat :=
  n - (c.skipColumns n).1

/-- The place after all spaces and tabs. -/
def skipAll (c : Cursor) : Cursor :=
  let blanks := c.rest.takeWhile isSpaceOrTab
  ⟨c.rest.dropWhile isSpaceOrTab, c.column + blanks.length, 0⟩

def atLineEnd (c : Cursor) : Bool :=
  match c.rest with
  | [] => true
  | d :: _ => isLineBreak d

/-- The place after `n` characters that are no tabs. -/
def drop (n : Nat) (c : Cursor) : Cursor :=
  { c with rest := c.rest.drop n, column := c.column + n }

/-- The place after a quotation mark and one column of white space. -/
def quoteMark? (c : Cursor) : Option Cursor :=
  match c.rest with
  | '>' :: _ => some ((c.drop 1).skipUpTo 1)
  | _ => none

end Cursor

end Markdown
end Folio

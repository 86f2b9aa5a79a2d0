/-!
# Folio.Yaml.Cursor

Places in a YAML text.

* `Cursor`: a place, with the text after it.
* `isBreak`, `isBlank`: what separates lines and words. `atEnd` and `atGap` say that a line or a word ends here.
* `Cursor.skip`, `Cursor.takeWhile`, `Cursor.takeBreak`: moving on.
-/

namespace Folio
namespace Yaml

/-- A place in a text: the text after it, the number of characters before it, and where it stands. -/
structure Cursor where
  rest : List Char
  index : Nat
  line : Nat
  column : Nat
  deriving Repr

def isBreak (c : Char) : Bool :=
  c == '\n' || c == '\r' || c == '\u0085' || c == '\u2028' || c == '\u2029'

def isBlank (c : Char) : Bool :=
  c == ' ' || c == '\t'

/-- Whether a line ends before this text. -/
def atEnd : List Char → Bool
  | [] => true
  | c :: _ => isBreak c

/-- Whether a word ends before this text. -/
def atGap : List Char → Bool
  | [] => true
  | c :: _ => isBlank c || isBreak c

/-- Whether a text begins with three of these characters and a gap, as the marks of documents do. -/
def beginsWithThree (mark : Char) : List Char → Bool
  | a :: b :: c :: cs => a == mark && b == mark && c == mark && atGap cs
  | _ => false

/-- Letters, digits, hyphens and underscores. -/
def isWordChar (c : Char) : Bool :=
  c.isAlphanum || c == '_' || c == '-'

def hexValue? (c : Char) : Option Nat :=
  if '0' ≤ c ∧ c ≤ '9' then some (c.toNat - 48)
  else if 'a' ≤ c ∧ c ≤ 'f' then some (c.toNat - 87)
  else if 'A' ≤ c ∧ c ≤ 'F' then some (c.toNat - 55)
  else none

namespace Cursor

def ofText (text : List Char) : Cursor :=
  ⟨text, 0, 0, 0⟩

/-- Passes `n` characters of a line. -/
def skip (p : Cursor) (n : Nat) : Cursor :=
  { p with rest := p.rest.drop n, index := p.index + n, column := p.column + n }

/-- The characters of a class that stand here, and the place after them. -/
def takeWhile (p : Cursor) (test : Char → Bool) : List Char × Cursor :=
  let taken := p.rest.takeWhile test
  (taken, p.skip taken.length)

def skipWhile (p : Cursor) (test : Char → Bool) : Cursor :=
  (p.takeWhile test).2

def nextLine (p : Cursor) (rest : List Char) (n : Nat) : Cursor :=
  ⟨rest, p.index + n, p.line + 1, 0⟩

/-- The line break that stands here, and the place after it. Most breaks are read as a newline. -/
def takeBreak (p : Cursor) : List Char × Cursor :=
  match p.rest with
  | '\r' :: '\n' :: cs => (['\n'], p.nextLine cs 2)
  | c :: cs =>
    if c == '\u2028' || c == '\u2029' then ([c], p.nextLine cs 1)
    else if isBreak c then (['\n'], p.nextLine cs 1)
    else ([], p)
  | [] => ([], p)

def skipBreak (p : Cursor) : Cursor :=
  p.takeBreak.2

/-- Passes a comment, if one stands here. -/
def skipComment (p : Cursor) : Cursor :=
  match p.rest with
  | '#' :: _ => p.skipWhile fun c => !isBreak c
  | _ => p

/-- The place after the blanks and the comment that may end a line, and after its break. -/
def skipLineEnd? (p : Cursor) : Option Cursor :=
  let p := (p.skipWhile isBlank).skipComment
  if atEnd p.rest then some p.skipBreak else none

/-- Whether a mark between documents stands here. -/
def atDocumentMark (p : Cursor) : Bool :=
  p.column == 0 && (beginsWithThree '-' p.rest || beginsWithThree '.' p.rest)

end Cursor

end Yaml
end Folio

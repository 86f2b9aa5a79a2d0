import Folio.Markdown.Event
import Folio.Markdown.RawHtml

/-!
# Folio.Markdown.LineMark

What a line of markdown begins with.

* `thematicBreak?`, `headingMark?`, `underline?`, `fence?`: marks of one line.
* `listMark?`: the mark of a list item, and the column where its contents begin.
* `endsParagraph`: whether a line ends the paragraph before it.
-/

namespace Folio
namespace Markdown

/-- What follows a line that is a thematic break. -/
def thematicBreak? (cs : List Char) : Option (List Char) :=
  match splitLineEnd cs with
  | (c :: line, _, rest) =>
    if (c == '*' || c == '-' || c == '_') && line.all (fun d => d == c || isSpaceOrTab d)
        && 2 ≤ line.count c then some rest
    else none
  | _ => none

/-- The level of a heading that begins with number signs, and what follows these. -/
def headingMark? (cs : List Char) : Option (HeadingLevel × List Char) :=
  let rest := cs.dropWhile (· == '#')
  if (rest.head?.map isAsciiBlank).getD true then
    match HeadingLevel.ofNumber? (cs.takeWhile (· == '#')).length with
    | some level => some (level, rest)
    | none => none
  else none

/-- The level of a heading by the line below it, and what follows that line. -/
def underline? : List Char → Option (HeadingLevel × List Char)
  | '=' :: cs => (blankLine? (cs.dropWhile (· == '='))).map fun rest => (.one, rest)
  | '-' :: cs => (blankLine? (cs.dropWhile (· == '-'))).map fun rest => (.two, rest)
  | _ => none

/-- The mark of a fenced code block: its character, its length, and what follows it. -/
def fence? : List Char → Option (Char × Nat × List Char)
  | [] => none
  | c :: cs =>
    let rest := cs.dropWhile (· == c)
    let size := 1 + (cs.takeWhile (· == c)).length
    if (c == '`' || c == '~') && 3 ≤ size && !(c == '`' && (splitLine rest).1.contains '`') then
      some (c, size, rest)
    else none

/-- What follows the mark that closes a fence of this character and length, up to the end of the line. -/
def closingFence? (c : Char) (size : Nat) (cs : List Char) : Option (List Char) :=
  let rest := (cs.dropWhile (· == c)).dropWhile (· == ' ')
  if cs.isEmpty then some []
  else if size ≤ (cs.takeWhile (· == c)).length && (lineEnd? rest).isSome then some rest
  else none

/-- The mark of a list item: its last character, the number in it, and its length. -/
structure ListMark where
  marker : Char
  start : Nat
  size : Nat
  deriving DecidableEq, Repr

def isBullet (c : Char) : Bool :=
  c == '-' || c == '+' || c == '*'

def decimalValue (cs : List Char) : Nat :=
  cs.foldl (fun n c => n * 10 + (c.toNat - 48)) 0

/-- The mark of a list item at the start of a text. A blank or the end of the line follows it. -/
def listMark? (cs : List Char) : Option ListMark :=
  let closes := fun (rest : List Char) =>
    match rest with
    | [] => true
    | c :: _ => isSpaceOrTab c || isLineBreak c
  let digits := cs.takeWhile Char.isDigit
  match cs, cs.dropWhile Char.isDigit with
  | c :: rest, after =>
    if isBullet c then
      if closes rest then some ⟨c, 0, 1⟩ else none
    else
      match after with
      | d :: rest =>
        if !digits.isEmpty && digits.length ≤ 9 && (d == '.' || d == ')') && closes rest then
          some ⟨d, decimalValue digits, digits.length + 1⟩
        else none
      | [] => none
  | [], _ => none

/-- Where the contents of an item begin whose mark stands after `indent` columns: the column, and the place. More
than four columns of white space belong to the contents, one apart. -/
def itemStart (indent : Nat) (mark : ListMark) (c : Cursor) : Nat × Cursor :=
  let after := (c.drop mark.size).skipUpTo 1
  let column := indent + mark.size + 1
  if (blankLine? after.rest).isSome then (column, after)
  else
    let more := after.indent 4
    if more < 4 then (column + more, after.skipUpTo 4) else (column, after)

/-- Whether a text begins with two blank lines. -/
def startsBlank (cs : List Char) : Bool :=
  match blankLine? cs with
  | some rest => (blankLine? rest).isSome
  | none => false

/-- Whether a list item may begin right after a line of a paragraph: one that is not empty, and is not numbered
other than one. -/
def itemEndsParagraph (mark : ListMark) (cs : List Char) : Bool :=
  (isBullet mark.marker || mark.start == 1) && !startsBlank (cs.drop mark.size)

/-- Whether a line begins with HTML that ends a paragraph. -/
def htmlEndsParagraph : List Char → Bool
  | '<' :: cs => (blockEnd? cs).isSome || startsBlockTag cs
  | _ => false

/-- Whether a line ends the paragraph before it. Any list item does where `anyItem` is set. -/
def endsParagraph (anyItem : Bool) (cs : List Char) : Bool :=
  (lineEnd? cs).isSome || (thematicBreak? cs).isSome || (headingMark? cs).isSome || (fence? cs).isSome
    || cs.head? == some '>'
    || (match listMark? cs with
        | some mark => anyItem || itemEndsParagraph mark cs
        | none => false)
    || htmlEndsParagraph cs

end Markdown
end Folio

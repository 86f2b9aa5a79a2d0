import Folio.Text.Blank
import Folio.Text.Case
import Folio.Markdown.Cursor
import Folio.Markdown.Entity

/-!
# Folio.Markdown.Reference

The parts of links, read from the start of a text.

* `label?`: a label up to its closing bracket. Its inner white space counts as one space.
* `destination?`: the target of a link, bare or between angle brackets.
* `title?`: a title between quotation marks or parentheses.
* `References`: the targets and footnotes that a document defines.
-/

namespace Folio
namespace Markdown

/-- The length from which on a text is no label. -/
def maxLabelLength : Nat := 1000

/-- What follows a run of white space, and the number of its line ends. After each line end, `next` says where the
text goes on. -/
def labelBlanks (next : List Char → Option (List Char)) : Nat → List Char → Option (Nat × List Char)
  | 0, cs => some (0, cs)
  | n + 1, cs =>
    match cs with
    | [] => some (0, [])
    | c :: rest =>
      if isLineBreak c then
        match (lineEnd? cs).bind next with
        | none => none
        | some rest =>
          match labelBlanks next n rest with
          | none => none
          | some (breaks, rest) => some (breaks + 1, rest)
      else if isLineBlank c then labelBlanks next n rest
      else some (0, cs)

/-- Reads a label of which `size` characters are known: its characters, and what follows the bracket that
closes it. -/
def readLabel (next : List Char → Option (List Char)) :
    Nat → Nat → List Char → Option (List Char × List Char)
  | 0, _, _ => none
  | n + 1, size, cs =>
    if maxLabelLength ≤ size then none
    else
      match cs with
      | [] => none
      | '[' :: _ => none
      | ']' :: rest => some ([], rest)
      | '\\' :: c :: rest =>
        match readLabel next n (size + 2) rest with
        | none => none
        | some (label, rest) => some ('\\' :: c :: label, rest)
      | c :: rest =>
        if isAsciiBlank c then
          match labelBlanks next (cs.length + 1) cs with
          | some (breaks, after) =>
            if 1 < breaks then none
            else
              match readLabel next n (size + (cs.length - after.length)) after with
              | none => none
              | some (label, rest) => some (' ' :: label, rest)
          | none => none
        else
          match readLabel next n (size + 1) rest with
          | none => none
          | some (label, rest) => some (c :: label, rest)

def trimAscii (cs : List Char) : List Char :=
  ((cs.dropWhile isAsciiBlank).reverse.dropWhile isAsciiBlank).reverse

/-- The label whose opening bracket is already read, and what follows its closing bracket. -/
def label? (next : List Char → Option (List Char)) (cs : List Char) : Option (List Char × List Char) :=
  match readLabel next (cs.length + 1) 0 cs with
  | none => none
  | some (label, rest) => if (trimAscii label).isEmpty then none else some (trimAscii label, rest)

/-- A target between angle brackets, of which the first is already read. -/
def bracketed : List Char → Option (List Char × List Char)
  | [] => none
  | '>' :: cs => some ([], cs)
  | '<' :: _ => none
  | '\\' :: c :: cs =>
    if Text.isAsciiPunctuation c then
      (bracketed cs).map fun (target, rest) => ('\\' :: c :: target, rest)
    else (bracketed (c :: cs)).map fun (target, rest) => ('\\' :: target, rest)
  | c :: cs =>
    if isLineBreak c then none else (bracketed cs).map fun (target, rest) => (c :: target, rest)

/-- A bare target, where `depth` parentheses are open. At most `limit + 1` may be open at once. -/
def bare (limit : Nat) : Nat → List Char → Option (List Char × List Char)
  | depth, [] => if depth = 0 then some ([], []) else none
  | depth, '\\' :: c :: cs =>
    if Text.isAsciiPunctuation c then
      (bare limit depth cs).map fun (target, rest) => ('\\' :: c :: target, rest)
    else (bare limit depth (c :: cs)).map fun (target, rest) => ('\\' :: target, rest)
  | depth, c :: cs =>
    if c.toNat ≤ 0x20 then if depth = 0 then some ([], c :: cs) else none
    else if c = '(' then
      if limit < depth then none
      else (bare limit (depth + 1) cs).map fun (target, rest) => (c :: target, rest)
    else if c = ')' then
      match depth with
      | 0 => some ([], c :: cs)
      | depth + 1 => (bare limit depth cs).map fun (target, rest) => (c :: target, rest)
    else (bare limit depth cs).map fun (target, rest) => (c :: target, rest)

/-- The target at the start of a text, as written, and what follows it. -/
def destination? (limit : Nat) : List Char → Option (List Char × List Char)
  | '<' :: cs => bracketed cs
  | cs => bare limit 0 cs

/-- A title up to its closing mark, and what follows that. A line end goes on with `next`. -/
def titleText (opening closing : Char) (next : List Char → Option (List Char)) :
    Nat → List Char → Option (List Char × List Char)
  | 0, _ => none
  | n + 1, cs =>
    match cs with
    | [] => none
    | '\\' :: c :: rest =>
      if isLineBreak c then
        (titleText opening closing next n (c :: rest)).map fun (title, rest) => ('\\' :: title, rest)
      else (titleText opening closing next n rest).map fun (title, rest) => ('\\' :: c :: title, rest)
    | c :: rest =>
      if c = closing then some ([], rest)
      else if c = opening then none
      else if isLineBreak c then
        match (lineEnd? cs).bind next with
        | none => none
        | some rest =>
          (titleText opening closing next n rest).map fun (title, rest) => ('\n' :: title, rest)
      else (titleText opening closing next n rest).map fun (title, rest) => (c :: title, rest)

/-- The title at the start of a text, as written, and what follows it. -/
def title? (next : List Char → Option (List Char)) : List Char → Option (List Char × List Char)
  | '\'' :: cs => titleText '\'' '\'' next (cs.length + 1) cs
  | '"' :: cs => titleText '"' '"' next (cs.length + 1) cs
  | '(' :: cs => titleText '(' ')' next (cs.length + 1) cs
  | _ => none

/-- The form in which labels are compared. -/
def labelKey (label : List Char) : List Char :=
  Text.foldCase label

/-- A target with its title. -/
structure Target where
  url : String
  title : String
  deriving Repr

/-- What a document defines for its links and footnotes, by label. -/
structure References where
  targets : List (List Char × Target)
  notes : List (List Char)

namespace References

def empty : References := ⟨[], []⟩

/-- The first definition of a label counts. -/
def addTarget (refs : References) (label : List Char) (target : Target) : References :=
  match refs.targets.lookup (labelKey label) with
  | some _ => refs
  | none => { refs with targets := (labelKey label, target) :: refs.targets }

def addNote (refs : References) (label : List Char) : References :=
  { refs with notes := labelKey label :: refs.notes }

def target? (refs : References) (label : List Char) : Option Target :=
  refs.targets.lookup (labelKey label)

def hasNote (refs : References) (label : List Char) : Bool :=
  refs.notes.contains (labelKey label)

end References

end Markdown
end Folio

import Folio.Text.Blank
import Folio.Latex.Verbatim
import Folio.Latex.Footnote

/-!
# Folio.Latex.Writer

The LaTeX form of a stream of markdown events.

* `Mode`: what the writer remembers between events: the open code block, the cells begun in the row, and
  whether the text so far ends a line.
* `chunk`: the text written for one event.
* `emit`: the text written for a stream.
* `write`: a stream after a given text, with footnote definitions moved to their references.

Raw HTML and formulas have no LaTeX form and are left out.
-/

namespace Folio
namespace Latex

open Markdown

structure Mode where
  code : Option (List Char)
  cells : Nat
  lineStart : Bool
  deriving DecidableEq, Repr

/-- The bodies of footnotes, by label; of two with one label the later counts. -/
abbrev Footnotes := List (String × List Char)

def Footnotes.body? (notes : Footnotes) (label : String) : Option (List Char) :=
  notes.reverse.lookup label

def escaped (text : String) : List Char :=
  text.toList.flatMap escapeChar

def headingCommand : HeadingLevel → List Char
  | .one => "section".toList
  | .two => "subsection".toList
  | .three => "subsubsection".toList
  | .four => "paragraph".toList
  | .five => "subparagraph".toList
  | .six => "subparagraph".toList

def columnLetter : ColumnAlignment → Char
  | .unset => 'l'
  | .left => 'l'
  | .center => 'c'
  | .right => 'r'

/-- What is written where a construct opens. -/
def opening (m : Mode) : Tag → List Char
  | .heading level => '\\' :: headingCommand level ++ "\x7b".toList
  | .blockQuote => "\\begin\x7bquote\x7d\n".toList
  | .codeBlock (.fenced info) =>
    if info.isEmpty then [] else "% language: ".toList ++ info.toList ++ ['\n']
  | .list (some _) => "\\begin\x7benumerate\x7d\n".toList
  | .list none => "\\begin\x7bitemize\x7d\n".toList
  | .item => "\\item ".toList
  | .table columns => "\\begin\x7btabular\x7d\x7b".toList ++ columns.map columnLetter ++ "\x7d\n".toList
  | .tableCell => if m.cells = 0 then [] else " & ".toList
  | .emphasis => "\\emph\x7b".toList
  | .strong => "\\textbf\x7b".toList
  | .strikethrough => "\\sout\x7b".toList
  | .link _ url _ => "\\href\x7b".toList ++ url.toList.flatMap escapeUrlChar ++ "\x7d\x7b".toList
  | _ => []

/-- What is written where a construct closes. -/
def closing (m : Mode) : TagEnd → List Char
  | .paragraph => "\n\n".toList
  | .heading _ => "\x7d\n\n".toList
  | .blockQuote => "\\end\x7bquote\x7d\n\n".toList
  | .codeBlock => listing (m.code.getD [])
  | .list true => "\\end\x7benumerate\x7d\n\n".toList
  | .list false => "\\end\x7bitemize\x7d\n\n".toList
  | .item => if m.lineStart then [] else ['\n']
  | .tableHead => " \\\\\n\\hline\n".toList
  | .tableRow => " \\\\\n".toList
  | .table => "\\end\x7btabular\x7d\n\n".toList
  | .emphasis => "\x7d".toList
  | .strong => "\x7d".toList
  | .strikethrough => "\x7d".toList
  | .link => "\x7d".toList
  | _ => []

/-- The text written for an event. -/
def chunk (notes : Footnotes) (m : Mode) : Event → List Char
  | .opened tag => opening m tag
  | .closed tag => closing m tag
  | .text text =>
    match m.code with
    | some _ => []
    | none => escaped text
  | .code text => "\\texttt\x7b".toList ++ escaped text ++ "\x7d".toList
  | .footnoteReference label =>
    match notes.body? label with
    | some body => "\\footnote\x7b".toList ++ body ++ "\x7d".toList
    | none => "\\textsuperscript\x7b".toList ++ escaped label ++ "\x7d".toList
  | .softBreak => ['\n']
  | .hardBreak => "\\\\\n".toList
  | .rule => "\\noindent\\rule\x7b\\textwidth\x7d\x7b0.4pt\x7d\n\n".toList
  | .taskMarker true => "[x] ".toList
  | .taskMarker false => "[ ] ".toList
  | _ => []

/-- The text of the code block that is open after an event. -/
def Mode.nextCode (m : Mode) : Event → Option (List Char)
  | .opened (.codeBlock _) => some []
  | .closed .codeBlock => none
  | .text text => m.code.map (· ++ text.toList)
  | _ => m.code

/-- The number of cells begun in the row after an event. -/
def Mode.nextCells (m : Mode) : Event → Nat
  | .opened .tableHead => 0
  | .opened .tableRow => 0
  | .opened .tableCell => m.cells + 1
  | _ => m.cells

/-- Whether a text ends a line, where `before` says it of the text before it. -/
def endsLine (before : Bool) (written : List Char) : Bool :=
  match written.getLast? with
  | none => before
  | some c => c == '\n'

/-- The mode after an event for which `written` was written. -/
def Mode.next (m : Mode) (e : Event) (written : List Char) : Mode where
  code := m.nextCode e
  cells := m.nextCells e
  lineStart := endsLine m.lineStart written

/-- The text written for a stream. -/
def emit (notes : Footnotes) (m : Mode) : List Event → List Char
  | [] => []
  | e :: es => chunk notes m e ++ emit notes (m.next e (chunk notes m e)) es

/-- The mode at the start of a stream, after a given text. -/
def Mode.after (before : List Char) : Mode where
  code := none
  cells := 0
  lineStart := endsLine false before

/-- The bodies of the footnotes a stream defines. References inside them are not resolved. -/
def footnotes (es : List Event) : Footnotes :=
  (definitions es).map fun (label, body) => (label, Text.trimEnd (emit [] (Mode.after []) body))

/-- The text of a stream after the text `before`, which is part of the answer. -/
def write (before : String) (es : List Event) : String :=
  before ++ String.ofList (emit (footnotes es) (Mode.after before.toList) (mainText 0 es))

end Latex
end Folio

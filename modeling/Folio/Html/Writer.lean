import Folio.Html.Escape
import Folio.Markdown.Event

/-!
# Folio.Html.Writer

The HTML form of a stream of markdown events.

* `Mode`: what the writer remembers between events: whether the text so far ends a line, the columns of the
  table, the place in it, and the numbers of the footnotes met.
* `write`: the text of a stream. Footnotes are numbered by first appearance, as reference or as definition;
  the contents of an image become its alternative text.
-/

namespace Folio
namespace Html

open Markdown

structure Mode where
  lineStart : Bool := true
  columns : List ColumnAlignment := []
  inHead : Bool := true
  cell : Nat := 0
  notes : List String := []
  deriving Repr

/-- The number of a footnote, and the labels met so far with this one. -/
def Mode.number (m : Mode) (label : String) : Nat × List String :=
  match m.notes.idxOf? label with
  | some i => (i + 1, m.notes)
  | none => (m.notes.length + 1, m.notes ++ [label])

def decimal (n : Nat) : List Char :=
  (Nat.repr n).toList

/-- The text on a new line. -/
def onNewLine (m : Mode) (text : List Char) : List Char :=
  if m.lineStart then text else '\n' :: text

/-- The word of an info string that names the language. -/
def language (info : String) : String :=
  String.ofList (info.toList.takeWhile (· != ' '))

def headingName (level : HeadingLevel) : List Char :=
  'h' :: decimal level.number

def titleAttribute (title : String) : List Char :=
  if title.isEmpty then [] else "\" title=\"".toList ++ escape title

/-- The attribute that aligns the cell at the mode's place. -/
def cellAlignment (m : Mode) : List Char :=
  match m.columns[m.cell]? with
  | some .left => " style=\"text-align: left\">".toList
  | some .center => " style=\"text-align: center\">".toList
  | some .right => " style=\"text-align: right\">".toList
  | _ => ">".toList

/-- What is written where a construct opens, images apart. -/
def opening (m : Mode) : Tag → List Char
  | .paragraph => onNewLine m "<p>".toList
  | .heading level => onNewLine m ('<' :: headingName level ++ ['>'])
  | .blockQuote => onNewLine m "<blockquote>\n".toList
  | .codeBlock (.fenced info) =>
    if (language info).isEmpty then onNewLine m "<pre><code>".toList
    else onNewLine m ("<pre><code class=\"language-".toList ++ escape (language info) ++ "\">".toList)
  | .codeBlock .indented => onNewLine m "<pre><code>".toList
  | .htmlBlock => []
  | .list none => onNewLine m "<ul>\n".toList
  | .list (some 1) => onNewLine m "<ol>\n".toList
  | .list (some start) => onNewLine m ("<ol start=\"".toList ++ decimal start ++ "\">\n".toList)
  | .item => onNewLine m "<li>".toList
  | .footnoteDefinition label =>
    onNewLine m ("<div class=\"footnote-definition\" id=\"".toList ++ escape label
      ++ "\"><sup class=\"footnote-definition-label\">".toList ++ decimal (m.number label).1
      ++ "</sup>".toList)
  | .table _ => "<table>".toList
  | .tableHead => "<thead><tr>".toList
  | .tableRow => "<tr>".toList
  | .tableCell => (if m.inHead then "<th".toList else "<td".toList) ++ cellAlignment m
  | .emphasis => "<em>".toList
  | .strong => "<strong>".toList
  | .strikethrough => "<del>".toList
  | .superscript => "<sup>".toList
  | .link .mail url title =>
    "<a href=\"mailto:".toList ++ escapeUrl url ++ titleAttribute title ++ "\">".toList
  | .link .place url title => "<a href=\"".toList ++ escapeUrl url ++ titleAttribute title ++ "\">".toList
  | .image url _ => "<img src=\"".toList ++ escapeUrl url ++ "\" alt=\"".toList

/-- What is written where a construct closes. -/
def closing (m : Mode) : TagEnd → List Char
  | .paragraph => "</p>\n".toList
  | .heading level => "</".toList ++ headingName level ++ ">\n".toList
  | .blockQuote => "</blockquote>\n".toList
  | .codeBlock => "</code></pre>\n".toList
  | .htmlBlock => []
  | .list true => "</ol>\n".toList
  | .list false => "</ul>\n".toList
  | .item => "</li>\n".toList
  | .footnoteDefinition => "</div>\n".toList
  | .table => "</tbody></table>\n".toList
  | .tableHead => "</tr></thead><tbody>\n".toList
  | .tableRow => "</tr>\n".toList
  | .tableCell => if m.inHead then "</th>".toList else "</td>".toList
  | .emphasis => "</em>".toList
  | .strong => "</strong>".toList
  | .strikethrough => "</del>".toList
  | .superscript => "</sup>".toList
  | .link => "</a>".toList
  | .image => []

/-- The text written for an event outside images. -/
def chunk (m : Mode) : Event → List Char
  | .opened tag => opening m tag
  | .closed tag => closing m tag
  | .text text => escapeText text
  | .code text => "<code>".toList ++ escapeText text ++ "</code>".toList
  | .html text => text.toList
  | .inlineHtml text => text.toList
  | .inlineMath text => "<span class=\"math math-inline\">".toList ++ escape text ++ "</span>".toList
  | .displayMath text => "<span class=\"math math-display\">".toList ++ escape text ++ "</span>".toList
  | .footnoteReference label =>
    "<sup class=\"footnote-reference\"><a href=\"#".toList ++ escape label ++ "\">".toList
      ++ decimal (m.number label).1 ++ "</a></sup>".toList
  | .softBreak => ['\n']
  | .hardBreak => "<br />\n".toList
  | .rule => onNewLine m "<hr />\n".toList
  | .taskMarker true => "<input disabled=\"\" type=\"checkbox\" checked=\"\"/>\n".toList
  | .taskMarker false => "<input disabled=\"\" type=\"checkbox\"/>\n".toList

/-- Whether a text ends a line, where `before` says it of the text before it. -/
def endsLine (before : Bool) (written : List Char) : Bool :=
  match written.getLast? with
  | none => before
  | some c => c == '\n'

/-- The mode after an event outside images for which `written` was written. An empty text event begins a line
no less than it ends one. -/
def Mode.next (m : Mode) (e : Event) (written : List Char) : Mode :=
  let m := { m with lineStart := endsLine m.lineStart written }
  match e with
  | .text text => { m with lineStart := endsLine false text.toList }
  | .opened (.table columns) => { m with columns }
  | .opened .tableHead => { m with inHead := true, cell := 0 }
  | .opened .tableRow => { m with cell := 0 }
  | .opened (.footnoteDefinition label) => { m with notes := (m.number label).2 }
  | .closed .tableHead => { m with inHead := false }
  | .closed .tableCell => { m with cell := m.cell + 1 }
  | .footnoteReference label => { m with notes := (m.number label).2 }
  | _ => m

/-- The text written for an event inside an image. -/
def alternative (m : Mode) : Event → List Char
  | .inlineHtml text => escape text
  | .code text => escape text
  | .text text => escape text
  | .inlineMath text => '$' :: escape text ++ ['$']
  | .displayMath text => "$$".toList ++ escape text ++ "$$".toList
  | .softBreak => [' ']
  | .hardBreak => [' ']
  | .rule => [' ']
  | .footnoteReference label => '[' :: decimal (m.number label).1 ++ [']']
  | .taskMarker true => "[x]".toList
  | .taskMarker false => "[ ]".toList
  | _ => []

/-- The mode after an event inside an image. Of texts only, the last line decides what follows. -/
def Mode.nextAlternative (m : Mode) (e : Event) (written : List Char) : Mode :=
  match e with
  | .inlineHtml text => { m with lineStart := endsLine false text.toList }
  | .code text => { m with lineStart := endsLine false text.toList }
  | .text text => { m with lineStart := endsLine false text.toList }
  | .footnoteReference label => { m with notes := (m.number label).2 }
  | _ => { m with lineStart := endsLine m.lineStart written }

/-- An image that is being written: its title, and the number of constructs open inside it. -/
structure OpenImage where
  title : String
  depth : Nat

def imageEnd (title : String) : List Char :=
  titleAttribute title ++ "\" />".toList

/-- The text of a stream; `image` is the image whose contents are being read. -/
def emit (m : Mode) : Option OpenImage → List Event → List Char
  | none, [] => []
  | some image, [] => imageEnd image.title
  | none, .opened (.image url title) :: es =>
    let written := opening m (.image url title)
    written ++ emit (m.next (.opened (.image url title)) written) (some ⟨title, 0⟩) es
  | none, e :: es =>
    let written := chunk m e
    written ++ emit (m.next e written) none es
  | some image, .opened _ :: es => emit m (some { image with depth := image.depth + 1 }) es
  | some ⟨title, 0⟩, .closed _ :: es =>
    imageEnd title ++ emit { m with lineStart := false } none es
  | some ⟨title, depth + 1⟩, .closed _ :: es => emit m (some ⟨title, depth⟩) es
  | some image, e :: es =>
    let written := alternative m e
    written ++ emit (m.nextAlternative e written) (some image) es

/-- The HTML text of a stream. -/
def write (es : List Event) : String :=
  String.ofList (emit {} none es)

end Html
end Folio

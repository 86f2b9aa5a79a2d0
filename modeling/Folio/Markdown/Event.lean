/-!
# Folio.Markdown.Event

A markdown document as the list of its events, in reading order: constructs open with `Event.opened` and close
with `Event.closed`, everything else stands between.
-/

namespace Folio
namespace Markdown

inductive HeadingLevel where
  | one | two | three | four | five | six
  deriving DecidableEq, Repr

def HeadingLevel.number : HeadingLevel → Nat
  | .one => 1
  | .two => 2
  | .three => 3
  | .four => 4
  | .five => 5
  | .six => 6

/-- The level with a number, if there is one. -/
def HeadingLevel.ofNumber? : Nat → Option HeadingLevel
  | 1 => some .one
  | 2 => some .two
  | 3 => some .three
  | 4 => some .four
  | 5 => some .five
  | 6 => some .six
  | _ => none

/-- The alignment of a table column. -/
inductive ColumnAlignment where
  | unset | left | center | right
  deriving DecidableEq, Repr

/-- A code block is indented, or fenced with an info string. -/
inductive CodeKind where
  | indented
  | fenced (info : String)
  deriving DecidableEq, Repr

/-- What a link leads to: a place, or a mail address. -/
inductive LinkKind where
  | place | mail
  deriving DecidableEq, Repr

/-- A construct, as named where it opens. A list has a start number when it is ordered. -/
inductive Tag where
  | paragraph
  | heading (level : HeadingLevel)
  | blockQuote
  | codeBlock (kind : CodeKind)
  | htmlBlock
  | list (start : Option Nat)
  | item
  | footnoteDefinition (label : String)
  | table (columns : List ColumnAlignment)
  | tableHead
  | tableRow
  | tableCell
  | emphasis
  | strong
  | strikethrough
  | superscript
  | link (kind : LinkKind) (url title : String)
  | image (url title : String)
  deriving DecidableEq, Repr

/-- A construct, as named where it closes. -/
inductive TagEnd where
  | paragraph
  | heading (level : HeadingLevel)
  | blockQuote
  | codeBlock
  | htmlBlock
  | list (ordered : Bool)
  | item
  | footnoteDefinition
  | table
  | tableHead
  | tableRow
  | tableCell
  | emphasis
  | strong
  | strikethrough
  | superscript
  | link
  | image
  deriving DecidableEq, Repr

def Tag.toEnd : Tag → TagEnd
  | .paragraph => .paragraph
  | .heading level => .heading level
  | .blockQuote => .blockQuote
  | .codeBlock _ => .codeBlock
  | .htmlBlock => .htmlBlock
  | .list start => .list start.isSome
  | .item => .item
  | .footnoteDefinition _ => .footnoteDefinition
  | .table _ => .table
  | .tableHead => .tableHead
  | .tableRow => .tableRow
  | .tableCell => .tableCell
  | .emphasis => .emphasis
  | .strong => .strong
  | .strikethrough => .strikethrough
  | .superscript => .superscript
  | .link .. => .link
  | .image .. => .image

inductive Event where
  | opened (tag : Tag)
  | closed (tag : TagEnd)
  | text (text : String)
  | code (text : String)
  | html (text : String)
  | inlineHtml (text : String)
  | inlineMath (text : String)
  | displayMath (text : String)
  | footnoteReference (label : String)
  | softBreak
  | hardBreak
  | rule
  | taskMarker (checked : Bool)
  deriving DecidableEq, Repr

end Markdown
end Folio

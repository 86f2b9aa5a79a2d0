import Folio.Markdown.Inline

/-!
# Folio.Markdown.Block

The blocks of a document.

* `Block`: blocks that hold text, and blocks that hold blocks.
* `Block.events`: the events of a block. Paragraphs that stand directly in the items of a tight list are not
  marked as paragraphs.
-/

namespace Folio
namespace Markdown

inductive Block where
  | paragraph (text : List Char)
  | heading (level : HeadingLevel) (text : List Char)
  | rule
  | code (kind : CodeKind) (lines : List (List Char))
  | html (lines : List (List Char))
  | table (columns : List ColumnAlignment) (head : List (List Char)) (rows : List (List (List Char)))
  | quote (content : List Block)
  | list (start : Option Nat) (tight : Bool) (items : List Block)
  | item (content : List Block)
  | footnote (label : String) (content : List Block)
  deriving Repr

def rowEvents (refs : References) (tag : Tag) (cells : List (List Char)) : List Event :=
  wrap tag (cells.flatMap fun text => wrap .tableCell (inlineEvents refs text))

mutual

/-- The events of a block. The paragraphs in its contents are plain text where `tight` is set. -/
def Block.events (refs : References) (tight : Bool) : Block → List Event
  | .paragraph text =>
    if tight then inlineEvents refs text else wrap .paragraph (inlineEvents refs text)
  | .heading level text => wrap (.heading level) (inlineEvents refs text)
  | .rule => [.rule]
  | .code kind lines => wrap (.codeBlock kind) (lines.map fun line => .text (String.ofList line))
  | .html lines => wrap .htmlBlock (lines.map fun line => .html (String.ofList line))
  | .table columns head rows =>
    wrap (.table columns) (rowEvents refs .tableHead head ++ rows.flatMap (rowEvents refs .tableRow))
  | .quote content => wrap .blockQuote (contentEvents refs false content)
  | .list start tight items => wrap (.list start) (contentEvents refs tight items)
  | .item content => wrap .item (contentEvents refs tight content)
  | .footnote label content => wrap (.footnoteDefinition label) (contentEvents refs false content)

/-- The events of blocks, one after the other. -/
def contentEvents (refs : References) (tight : Bool) : List Block → List Event
  | [] => []
  | b :: bs => b.events refs tight ++ contentEvents refs tight bs

end

end Markdown
end Folio

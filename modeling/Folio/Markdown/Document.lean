import Folio.Markdown.Container

/-!
# Folio.Markdown.Document

Reading a document.

* `footnoteMark?`, `definition?`: the definitions of footnotes and of links.
* `paragraph`, `codeLines`, `fencedLines`, `htmlLines`, `tableRows`: blocks of text, read up to their last line.
* `blocks`: all blocks of a document with all that it defines.
* `events`: the events of a document.

Every reader gives back the text that follows. Limits on the number of steps are lengths of texts: each step takes
a character at least.
-/

namespace Folio
namespace Markdown

/-- The label of a footnote whose definition begins a text, and what follows its colon. -/
def footnoteMark? : List Char → Option (List Char × List Char)
  | '[' :: '^' :: cs =>
    match label? (fun _ => none) cs with
    | some (label, ':' :: rest) => some (label, rest)
    | _ => none
  | _ => none

namespace Builder

/-- The head of a table at the start of a text: the alignments, the line of the head, and what follows the
delimiter row. -/
def tableHead? (b : Builder) (cs : List Char) : Option (List ColumnAlignment × List Char × List Char) :=
  match splitLineEnd cs with
  | (_, [], _) => none
  | (line, _, rest) =>
    match b.inside rest with
    | (true, c) =>
      match delimiterRow? c.rest with
      | some (columns, rest) =>
        if 0 < columns.length && columnCount line == columns.length then some (columns, line, rest)
        else none
      | none => none
    | _ => none

/-- Whether a line ends a paragraph. A table does where its head begins with a bar. -/
def interrupts (b : Builder) (inside : Bool) (cs : List Char) : Bool :=
  (footnoteMark? cs).isSome || endsParagraph (!inside) cs
    || (cs.head? == some '|' && (b.tableHead? cs).isSome)

/-- Where the text of a definition goes on in the next line, if that does not begin another block. -/
def continuation? (b : Builder) (cs : List Char) : Option (List Char) :=
  let (inside, c) := b.inside cs
  let (missing, after) := c.skipColumns 4
  if missing = 0 then some after.rest
  else if b.interrupts inside after.rest || (inside && (underline? after.rest).isSome) then none
  else some after.rest

/-- Blanks with at most `n` line ends: their number, and what follows. -/
def definitionBlanks (b : Builder) : Nat → List Char → Option (Nat × List Char)
  | n, cs =>
    let rest := cs.dropWhile isLineBlank
    match lineEnd? rest with
    | none => some (0, rest)
    | some after =>
      match n with
      | 0 => none
      | n + 1 =>
        match b.continuation? after with
        | none => none
        | some after => (definitionBlanks b n after).map fun (k, rest) => (k + 1, rest)

/-- The title of a definition, and what follows its line. -/
def definitionTitle? (b : Builder) (cs : List Char) : Option (String × List Char) :=
  match title? (fun cs => (b.continuation? cs).map (·.dropWhile isSpaceOrTab)) cs with
  | none => none
  | some (title, rest) =>
    match blankLine? rest with
    | none => none
    | some rest => some (String.ofList (unescape title), rest)

/-- The target of a definition after its colon, and what follows. -/
def definitionTarget? (b : Builder) (cs : List Char) : Option (Target × List Char) :=
  match b.definitionBlanks 1 cs with
  | none => none
  | some (_, cs) =>
    match destination? 1 cs with
    | none => none
    | some (url, rest) =>
      let untitled : Target × List Char := (⟨String.ofList (unescape url), ""⟩, (blankLine? rest).getD rest)
      if rest.length = cs.length then none
      else
        match b.definitionBlanks 1 rest with
        | none => some untitled
        | some (breaks, after) =>
          match definitionTitle? b after with
          | some (title, next) =>
            if after.length = rest.length then none
            else some (⟨String.ofList (unescape url), title⟩, next)
          | none => if breaks = 0 then none else some untitled

/-- The definition of a link at the start of a text: its label, its target, and what follows. -/
def definition? (b : Builder) : List Char → Option (List Char × Target × List Char)
  | '[' :: cs =>
    match label? b.continuation? cs with
    | some (label, ':' :: rest) =>
      match b.definitionTarget? rest with
      | some (target, rest) => some (label, target, rest)
      | none => none
    | _ => none
  | _ => none

/-- The text of a paragraph without the blanks at its end. A single blank before a line end is kept. -/
def paragraphText (text : List Char) (ended : Bool) : List Char :=
  let trimmed := (text.reverse.dropWhile isLineBlank).reverse
  if ended && text.length < trimmed.length + 2 then text else trimmed

/-- The block of a paragraph, with the text `before` already read, and what follows it. -/
def paragraph (b : Builder) : Nat → List Char → List Char → Block × List Char
  | 0, before, cs => (.paragraph before, cs)
  | n + 1, before, cs =>
    let (line, mark, rest) := splitLineEnd cs
    let text := before ++ line
    let done : Block := .paragraph (paragraphText text (!mark.isEmpty))
    let (inside, c) := b.inside rest
    let (missing, after) := c.skipColumns 4
    if missing = 0 then
      if after.skipAll.atLineEnd then (done, rest)
      else paragraph b n (text ++ mark) c.rest
    else
      match if inside then underline? after.rest else none with
      | some (level, rest) => (.heading level (paragraphText text false), rest)
      | none =>
        if b.interrupts inside after.rest || after.skipAll.atLineEnd then (done, rest)
        else paragraph b n (text ++ mark) c.rest

/-- The rows of a table, and what follows them. -/
def tableRows (b : Builder) (width : Nat) : Nat → List Char → List (List (List Char)) × List Char
  | 0, cs => ([], cs)
  | n + 1, cs =>
    match b.inside cs with
    | (true, c) =>
      let row := c.skipAll.rest
      if (footnoteMark? row).isSome || endsParagraph true row then ([], cs)
      else
        let (line, _, rest) := splitLineEnd row
        let (rows, rest) := tableRows b width n rest
        (cells width line :: rows, rest)
    | _ => ([], cs)

/-- A line of a listing after `spaces` spaces. -/
def listed (spaces : Nat) (line : List Char) : List Char :=
  List.replicate spaces ' ' ++ listingLine line

/-- The lines of indented code from the place `c` on, without blank lines at the end; what follows; and whether
blank lines stand at the end. `blanks` are the blank lines right before the place. -/
def codeLines (b : Builder) : Nat → List (List Char) → Cursor → List (List Char) × List Char × Bool
  | 0, _, c => ([], c.rest, false)
  | n + 1, blanks, c =>
    let (line, rest) := splitLine c.rest
    let isBlank := (blankLine? c.rest).isSome
    let text := listed c.pending line
    let (now, later) := if isBlank then ([], blanks ++ [text]) else (blanks ++ [text], [])
    match b.inside rest with
    | (true, next) =>
      match skipIndent? 4 next with
      | none => (now, rest, isBlank)
      | some next =>
        if next.rest.isEmpty then (now, rest, isBlank)
        else
          let (lines, rest, ended) := codeLines b n later next
          (now ++ lines, rest, ended)
    | _ => (now, rest, isBlank)

/-- The lines of a fenced code block, whose mark stands after `indent` columns, and what follows it. -/
def fencedLines (b : Builder) (indent : Nat) (mark : Char) (size : Nat) :
    Nat → List Char → List (List Char) × List Char
  | 0, cs => ([], cs)
  | n + 1, cs =>
    match b.inside cs with
    | (true, c) =>
      if cs.isEmpty then ([], [])
      else
        let c := c.skipUpTo indent
        let closing := match c.skipColumns (4 - indent) with
          | (0, _) => none
          | (_, c) => closingFence? mark size c.rest
        match closing with
        | some rest => ([], (blankLine? rest).getD rest)
        | none =>
          let (line, rest) := splitLine c.rest
          let (lines, rest) := fencedLines b indent mark size n rest
          (listed c.pending line :: lines, rest)
    | _ => ([], cs)

/-- The lines of a block of HTML, the first one after `spaces` spaces, and what follows. The block ends with a line
that holds `ending`, or before a blank line. -/
def htmlLines (b : Builder) (ending : Option (List Char)) :
    Nat → Nat → List Char → List (List Char) × List Char
  | 0, _, cs => ([], cs)
  | n + 1, spaces, cs =>
    let (line, rest) := splitLine cs
    let text := listed spaces line
    match b.inside rest with
    | (true, c) =>
      let ends := match ending with
        | some ending => Text.contains ending line || c.rest.isEmpty
        | none => (blankLine? c.rest).isSome
      if ends then ([text], rest)
      else
        let (lines, rest) := htmlLines b ending n c.pending c.rest
        (text :: lines, rest)
    | _ => ([text], rest)

/-- How a block of HTML ends that begins a text; `none` where the text begins no such block. -/
def htmlStart? : List Char → Option (Option (List Char))
  | '<' :: cs =>
    match blockEnd? cs with
    | some ending => some (some ending)
    | none => if startsBlockTag cs || isLoneTag cs then some none else none
  | _ => none

/-- The text of a heading that begins with number signs: closing signs after a space count for nothing. -/
def headingText (cs : List Char) : List Char :=
  let trim := fun (cs : List Char) => cs.dropWhile (· == ' ')
  let reversed := trim (cs.dropWhile isLineBlank).reverse
  match reversed.dropWhile (· == '#') with
  | [] => []
  | c :: rest => if c == ' ' then (trim rest).reverse else reversed.reverse

/-- The document after the block of text that begins at a place, and what follows that block. -/
def leaf (b : Builder) (c : Cursor) : Builder × List Char :=
  let b := b.finishList
  let indent := c.indent 4
  let at_ := c.skipUpTo 4
  let cs := at_.rest
  let fuel := cs.length + 1
  if 4 ≤ indent then
    let (lines, rest, blank) := b.codeLines fuel [] at_
    ({ b.add (.code .indented lines) with blank }, rest)
  else
    match htmlStart? cs with
    | some ending =>
      let (lines, rest) := b.htmlLines ending fuel indent cs
      (b.add (.html lines), rest)
    | none =>
      match thematicBreak? cs with
      | some rest => (b.add .rule, rest)
      | none =>
        match headingMark? cs with
        | some (level, text) =>
          let (line, _, rest) := splitLineEnd text
          (b.add (.heading level (headingText line)), rest)
        | none =>
          match fence? cs with
          | some (mark, size, after) =>
            let (info, rest) := splitLine after
            let (lines, rest) := b.fencedLines indent mark size (rest.length + 1) rest
            (b.add (.code (.fenced (String.ofList (unescape (trimAscii info)))) lines), rest)
          | none =>
            match b.definition? cs with
            | some (label, target, rest) => ({ b with refs := b.refs.addTarget label target }, rest)
            | none =>
              match b.tableHead? cs with
              | some (columns, head, rest) =>
                let (rows, rest) := b.tableRows columns.length (rest.length + 1) rest
                (b.add (.table columns (cells columns.length head) rows), rest)
              | none =>
                let (block, rest) := b.paragraph fuel [] cs
                (b.add block, rest)

/-- The document after the containers that begin at a place, and the place after their marks; `none` where the line
ends with the mark of an item. -/
def openContainers : Nat → Builder → Cursor → Builder × Option Cursor × List Char
  | 0, b, c => (b, some c, c.rest)
  | n + 1, b, c =>
    let indent := c.indent 4
    let at_ := c.skipUpTo 4
    if 4 ≤ indent then (b, some c, c.rest)
    else
      match footnoteMark? at_.rest with
      | some (label, rest) =>
        let b := b.finishList
        let b := match b.innermost? with
          | some (.footnote _) => b.close
          | _ => b
        let b := { b with refs := b.refs.addNote label }
        openContainers n (b.push (.footnote label)) (Cursor.start (rest.dropWhile isLineBlank))
      | none =>
        let mark := if (thematicBreak? at_.rest).isSome then none else listMark? at_.rest
        match mark with
        | some mark =>
          let (column, c) := itemStart indent mark at_
          let b := (b.continueList mark).push (.item column)
          match blankLine? c.rest with
          | some rest => ({ b with begun := true }, none, rest)
          | none => openContainers n b c
        | none =>
          match at_.quoteMark? with
          | some c => openContainers n (b.finishList.push .quote) c
          | none => (b, some c, c.rest)

/-- The document after the block that begins with the next line, and what follows. -/
def block (b : Builder) (cs : List Char) : Builder × List Char :=
  let (kept, c) := b.enter cs
  let b := b.closeInner (b.frames.length - kept)
  match openContainers (cs.length + 1) b c with
  | (b, none, rest) => (b, rest)
  | (b, some c, _) =>
    match blankLine? c.rest with
    | some rest => (b.blankLine, rest)
    | none => b.leaf c

/-- The document after at most `n` more blocks. -/
def readBlocks : Nat → Builder → List Char → Builder
  | 0, b, _ => b
  | n + 1, b, cs => if cs.isEmpty then b else readBlocks n (b.block cs).1 (b.block cs).2

end Builder

/-- The blocks of a document, with what it defines. -/
def blocks (cs : List Char) : List Block × References :=
  let b := Builder.readBlocks cs.length Builder.empty cs
  let b := b.closeInner b.frames.length
  (b.content.reverse, b.refs)

def events (text : String) : List Event :=
  let (content, refs) := blocks text.toList
  contentEvents refs false content

end Markdown
end Folio

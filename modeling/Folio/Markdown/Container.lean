import Folio.Markdown.Block
import Folio.Markdown.LineMark
import Folio.Markdown.Table

/-!
# Folio.Markdown.Container

The blocks that are open while a document is read line by line.

* `Container`: a block that holds blocks; `Container.enter?` says how a line continues it.
* `Builder`: the open containers with the blocks read so far.
* `finishList`, `continueList`: the ends of lists, and which of them are loose.
-/

namespace Folio
namespace Markdown

/-- A list is known by its mark; an item by the column of its contents. -/
inductive Container where
  | quote
  | list (marker : Char) (start : Nat) (tight : Bool)
  | item (column : Nat)
  | footnote (label : List Char)
  deriving Repr

/-- The place in a line after `n` columns of white space; a line that is blank up to its end has as many as
needed. -/
def skipIndent? (n : Nat) (c : Cursor) : Option Cursor :=
  let (missing, c) := c.skipColumns n
  if missing = 0 || c.atLineEnd then some c else none

/-- The place after what marks the contents of a container in each of its lines. -/
def Container.enter? (c : Cursor) : Container → Option Cursor
  | .quote => (c.skipUpTo 3).quoteMark?
  | .list .. => some c
  | .item column => skipIndent? column c
  | .footnote _ => skipIndent? 4 c

/-- How many of the containers, outermost first, a line continues, and the place after their marks. -/
def enterAll (c : Cursor) : List Container → Nat × Cursor
  | [] => (0, c)
  | k :: ks =>
    match k.enter? c with
    | none => (0, c)
    | some c =>
      let (n, c) := enterAll c ks
      (n + 1, c)

/-- An open container with the blocks in it, last one first. -/
structure Frame where
  container : Container
  content : List Block
  deriving Repr

/-- The block of a container that is closed. -/
def Frame.block (f : Frame) : Block :=
  match f.container with
  | .quote => .quote f.content.reverse
  | .list marker start tight =>
    .list (if isBullet marker then none else some start) tight f.content.reverse
  | .item _ => .item f.content.reverse
  | .footnote label => .footnote (String.ofList label) f.content.reverse

/-- The document so far: the open containers, innermost first; the blocks outside them, last one first; what is
defined; whether the last line was blank; whether the line before began an item without contents. -/
structure Builder where
  frames : List Frame
  content : List Block
  refs : References
  blank : Bool
  begun : Bool

namespace Builder

def empty : Builder := ⟨[], [], References.empty, false, false⟩

def add (b : Builder) (block : Block) : Builder :=
  match b.frames with
  | [] => { b with content := block :: b.content }
  | f :: fs => { b with frames := { f with content := block :: f.content } :: fs }

def push (b : Builder) (container : Container) : Builder :=
  { b with frames := ⟨container, []⟩ :: b.frames }

def close (b : Builder) : Builder :=
  match b.frames with
  | [] => b
  | f :: fs =>
    let begun := match f.container with
      | .list _ _ true => false
      | _ => b.begun
    ({ b with frames := fs, begun } : Builder).add f.block

/-- Closes the `n` innermost containers. -/
def closeInner : Nat → Builder → Builder
  | 0, b => b
  | n + 1, b => closeInner n b.close

def innermost? (b : Builder) : Option Container :=
  b.frames.head?.map (·.container)

/-- How many containers a line continues, and the place after their marks. -/
def enter (b : Builder) (cs : List Char) : Nat × Cursor :=
  enterAll (Cursor.start cs) (b.frames.reverse.map (·.container))

/-- Whether a line continues all containers, and the place after the marks of those it continues. -/
def inside (b : Builder) (cs : List Char) : Bool × Cursor :=
  let (n, c) := b.enter cs
  (n == b.frames.length, c)

/-- An item that began with two blank lines has no contents. -/
def finishEmptyItem (b : Builder) : Builder :=
  let b' := match b.innermost? with
    | some (.item _) => if b.begun && b.blank then b.close else b
    | _ => b
  { b' with begun := false }

/-- Marks a list as loose. -/
def Frame.loosen (f : Frame) : Frame :=
  match f.container with
  | .list marker start _ => { f with container := .list marker start false }
  | _ => f

/-- Closes the innermost list, if no item of it is open, before a block that is no item. A blank line before a
block in an item makes the list of that item loose. -/
def finishList (b : Builder) : Builder :=
  let b := b.finishEmptyItem
  let b := match b.innermost? with
    | some (.list ..) => b.close
    | _ => b
  if b.blank then
    match b.frames with
    | f :: g :: fs => { b with frames := f :: Frame.loosen g :: fs, blank := false }
    | _ => { b with blank := false }
  else b

/-- Goes on with the innermost list, if it has this marker, or begins a new list. -/
def continueList (b : Builder) (mark : ListMark) : Builder :=
  let b := b.finishEmptyItem
  let fresh := fun (b : Builder) => { b.push (.list mark.marker mark.start true) with blank := false }
  match b.frames with
  | [] => fresh b
  | f :: fs =>
    match f.container with
    | .list marker _ _ =>
      if marker = mark.marker then
        if b.blank then { b with frames := Frame.loosen f :: fs, blank := false } else b
      else fresh b.finishList
    | _ => fresh b.finishList

/-- The document after a blank line. -/
def blankLine (b : Builder) : Builder :=
  match b.frames with
  | f :: fs =>
    match f.container with
    | .quote => b
    | .item _ =>
      if b.begun then { b with blank := true, frames := { f with container := .item 0 } :: fs }
      else { b with blank := true }
    | _ => { b with blank := true }
  | [] => { b with blank := true }

end Builder

end Markdown
end Folio

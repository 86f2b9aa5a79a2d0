import Folio.Markdown.Event

/-!
# Folio.Markdown.Emphasis

Emphasis inside a line of text.

* `Piece`: finished events, or a run of marks that may begin or end emphasis.
* `OpenRun`: a run that began emphasis, with the events since then.
* `resolve`: each closing run is matched with the nearest run that fits; marks left over stand for themselves.
-/

namespace Folio
namespace Markdown

/-- Finished events, or a run of `size` marks. -/
inductive Piece where
  | done (es : List Event)
  | run (mark : Char) (size : Nat) (opens closes : Bool)
  deriving Repr

/-- A run that began emphasis: the marks left of it, and the events that follow it. -/
structure OpenRun where
  mark : Char
  left : Nat
  size : Nat
  both : Bool
  content : List Event

/-- Marks that stand for themselves. -/
def plainMarks (mark : Char) (n : Nat) : List Event :=
  if n = 0 then [] else [.text (String.ofList (List.replicate n mark))]

/-- The construct that one or two marks make. -/
def emphasisTag (mark : Char) (double : Bool) : Tag :=
  if mark = '~' then .strikethrough else if double then .strong else .emphasis

def wrap (tag : Tag) (es : List Event) : List Event :=
  .opened tag :: es ++ [.closed tag.toEnd]

/-- Events inside `n` pairs of marks. Inner pairs are doubled as long as two are left. -/
def wrapMarks (mark : Char) : Nat → List Event → List Event
  | 0, es => es
  | 1, es => wrap (emphasisTag mark false) es
  | n + 2, es => wrapMarks mark n (wrap (emphasisTag mark true) es)

/-- Whether a closing run ends the emphasis of an open one. Of runs that can both open and close, the sizes must
not add up to a multiple of three, unless the closing size is one itself. -/
def OpenRun.fits (r : OpenRun) (mark : Char) (size : Nat) (both : Bool) : Bool :=
  r.mark == mark && (mark != '~' || r.size == size)
    && ((!both && !r.both) || (size + r.size) % 3 != 0 || size % 3 == 0)

/-- Open runs, innermost first, above the events that precede them all. -/
structure EmphasisState where
  runs : List OpenRun
  base : List Event

namespace EmphasisState

def add (s : EmphasisState) (es : List Event) : EmphasisState :=
  match s.runs with
  | [] => { s with base := s.base ++ es }
  | r :: runs => { s with runs := { r with content := r.content ++ es } :: runs }

/-- The events of runs whose marks stand for themselves, innermost run first. -/
def plain : List OpenRun → List Event
  | [] => []
  | r :: runs => plain runs ++ plainMarks r.mark r.left ++ r.content

/-- Takes the innermost run that fits: the runs inside it, the run, and those around it. -/
def take? (mark : Char) (size : Nat) (both : Bool) :
    List OpenRun → Option (List OpenRun × OpenRun × List OpenRun)
  | [] => none
  | r :: runs =>
    if r.fits mark size both then some ([], r, runs)
    else
      match take? mark size both runs with
      | none => none
      | some (inner, found, outer) => some (r :: inner, found, outer)

/-- Closes emphasis with `left` marks of a run: the marks not used, and the new state. -/
def close (mark : Char) (size : Nat) (both : Bool) : Nat → Nat → EmphasisState → Nat × EmphasisState
  | 0, left, s => (left, s)
  | n + 1, left, s =>
    if left = 0 then (0, s)
    else
      match take? mark size both s.runs with
      | none => (left, s)
      | some (inner, r, outer) =>
        let used := min left r.left
        let content := wrapMarks mark used (r.content ++ plain inner)
        if used < r.left then
          close mark size both n (left - used)
            { s with runs := { r with left := r.left - used, content } :: outer }
        else close mark size both n (left - used) (({ s with runs := outer } : EmphasisState).add content)

/-- The state after a piece. -/
def next (s : EmphasisState) : Piece → EmphasisState
  | .done es => s.add es
  | .run mark size opens closes =>
    let (left, s) := if closes then close mark size (opens && closes) size size s else (size, s)
    if left = 0 then s
    else if opens then { s with runs := ⟨mark, left, size, opens && closes, []⟩ :: s.runs }
    else s.add (plainMarks mark left)

end EmphasisState

/-- The events of a list of pieces. -/
def resolve (pieces : List Piece) : List Event :=
  let s := pieces.foldl EmphasisState.next ⟨[], []⟩
  s.base ++ EmphasisState.plain s.runs

end Markdown
end Folio

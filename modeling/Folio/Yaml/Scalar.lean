import Folio.Yaml.Cursor

/-!
# Folio.Yaml.Scalar

The texts in a YAML document.

* `plain?`: a text without quotation marks. It may go on over lines that are indented further than what it is
  in, and `broken` says whether the place after it is in a new line.
* `quoted?`: a text between quotation marks. In double ones, backslashes stand before escapes.
* `block?`: the lines below a `|` or a `>`.

Where a text goes on after a line break, the break is read as a space; further breaks are kept. The readers are
bounded by a number of steps, for which the length of the text is enough.
-/

namespace Folio
namespace Yaml

inductive Style where
  | plain
  | quoted
  | literal
  | folded
  deriving DecidableEq, Repr

/-- The gap between two parts of a text: the blanks in a line, or the breaks of lines. -/
inductive Gap where
  | blanks (text : List Char)
  | breaks (first more : List Char)
  deriving Repr

namespace Gap

def none : Gap := .blanks []

def isBroken : Gap → Bool
  | .blanks _ => false
  | .breaks _ _ => true

/-- What a gap is read as, between two parts. -/
def fold : Gap → List Char
  | .blanks text => text
  | .breaks ['\n'] [] => [' ']
  | .breaks ['\n'] more => more
  | .breaks first more => first ++ more

/-- The gap with one more blank. The blanks at the start of a line count for nothing. -/
def addBlank (c : Char) : Gap → Gap
  | .blanks text => .blanks (text ++ [c])
  | gap => gap

/-- The gap with one more break. The blanks before the first one count for nothing. -/
def addBreak (text : List Char) : Gap → Gap
  | .blanks _ => .breaks text []
  | .breaks first more => .breaks first (more ++ text)

end Gap

/-- Reads blanks and breaks. Where `tabsFrom` is given, a tab before that column must not begin a line. -/
def takeGap? (tabsFrom : Option Nat) : Nat → Gap → Cursor → Option (Gap × Cursor)
  | 0, gap, p => some (gap, p)
  | n + 1, gap, p =>
    match p.rest with
    | [] => some (gap, p)
    | c :: _ =>
      if isBlank c then
        let misplaced := match tabsFrom with
          | some column => gap.isBroken && p.column < column && c == '\t'
          | Option.none => false
        if misplaced then Option.none else takeGap? tabsFrom n (gap.addBlank c) (p.skip 1)
      else if isBreak c then
        let (text, p) := p.takeBreak
        takeGap? tabsFrom n (gap.addBreak text) p
      else some (gap, p)

/-! ### Plain texts -/

/-- The characters that end a plain text in brackets. -/
def isFlowIndicator (c : Char) : Bool :=
  c == ',' || c == '[' || c == ']' || c == '\x7b' || c == '\x7d'

/-- Whether a plain text ends before this one. -/
def endsPlain (inFlow : Bool) : List Char → Bool
  | [] => true
  | c :: cs => isBlank c || isBreak c || (c == ':' && atGap cs) || (inFlow && isFlowIndicator c)

/-- Whether a colon stands where it is allowed neither in a plain text nor after it. -/
def misplacedColon (inFlow : Bool) : List Char → Bool
  | ':' :: c :: _ => inFlow && (isFlowIndicator c || c == '?')
  | _ => false

/-- A part of a plain text, without gaps. -/
def plainPart? (inFlow : Bool) : Nat → Cursor → Option (List Char × Cursor)
  | 0, p => some ([], p)
  | n + 1, p =>
    match p.rest with
    | [] => some ([], p)
    | c :: cs =>
      if isBlank c || isBreak c then some ([], p)
      else if misplacedColon inFlow (c :: cs) then none
      else if endsPlain inFlow (c :: cs) then some ([], p)
      else (plainPart? inFlow n (p.skip 1)).map fun (text, p) => (c :: text, p)

/-- The rest of a plain text after a gap, and whether the place after it is in a new line. -/
def plainRest? (inFlow : Bool) (indent : Nat) : Nat → Gap → Cursor → Option (List Char × Bool × Cursor)
  | 0, gap, p => some ([], gap.isBroken, p)
  | n + 1, gap, p =>
    if p.atDocumentMark || p.rest.head? == some '#' then some ([], gap.isBroken, p)
    else
      match plainPart? inFlow p.rest.length p with
      | none => none
      | some (part, q) =>
        let text := if part.isEmpty then [] else gap.fold ++ part
        let gap := if part.isEmpty then gap else Gap.none
        if !atGap q.rest || q.rest.isEmpty then some (text, gap.isBroken, q)
        else
          match takeGap? (some indent) q.rest.length gap q with
          | none => none
          | some (gap, q) =>
            if !inFlow && q.column < indent then some (text, gap.isBroken, q)
            else (plainRest? inFlow indent n gap q).map fun (more, broken, q) => (text ++ more, broken, q)

/-- A plain text that goes on in lines from the column `indent` on. -/
def plain? (inFlow : Bool) (indent : Nat) (p : Cursor) : Option (List Char × Bool × Cursor) :=
  plainRest? inFlow indent (p.rest.length + 1) Gap.none p

/-! ### Quoted texts -/

/-- The characters with an escape of one letter. -/
def shortEscape? : Char → Option Char
  | '0' => some '\x00'
  | 'a' => some '\x07'
  | 'b' => some '\x08'
  | 't' => some '\t'
  | '\t' => some '\t'
  | 'n' => some '\n'
  | 'v' => some '\x0b'
  | 'f' => some '\x0c'
  | 'r' => some '\r'
  | 'e' => some '\x1b'
  | ' ' => some ' '
  | '"' => some '"'
  | '/' => some '/'
  | '\\' => some '\\'
  | 'N' => some '\u0085'
  | '_' => some '\u00a0'
  | 'L' => some '\u2028'
  | 'P' => some '\u2029'
  | _ => none

/-- The number of hexadecimal digits in an escape by number. -/
def escapeLength? : Char → Option Nat
  | 'x' => some 2
  | 'u' => some 4
  | 'U' => some 8
  | _ => none

def hexNumber? : List Char → Option Nat
  | cs => cs.foldl (fun n c =>
    match n, hexValue? c with
    | some n, some d => some (n * 16 + d)
    | _, _ => none) (some 0)

/-- The character with a number, if there is one. -/
def charOfNumber? (n : Nat) : Option Char :=
  if (0xD800 ≤ n ∧ n ≤ 0xDFFF) ∨ 0x10FFFF < n then none else some (Char.ofNat n)

/-- The character after a backslash. -/
def escaped? (p : Cursor) : Option (Char × Cursor) :=
  match p.rest with
  | [] => none
  | c :: cs =>
    match escapeLength? c with
    | none => (shortEscape? c).map fun c => (c, p.skip 1)
    | some n =>
      if cs.length < n then none
      else
        match (hexNumber? (cs.take n)).bind charOfNumber? with
        | none => none
        | some c => some (c, p.skip (n + 1))

/-- What ends a part of a quoted text. -/
inductive PartEnd where
  | mark
  | gap
  | escapedBreak
  deriving DecidableEq, Repr

/-- A part of a quoted text, without gaps. The closing mark is passed. -/
def quotedPart? (single : Bool) : Nat → Cursor → Option (List Char × PartEnd × Cursor)
  | 0, _ => none
  | n + 1, p =>
    let mark := if single then '\'' else '"'
    match p.rest with
    | [] => some ([], .gap, p)
    | c :: cs =>
      if isBlank c || isBreak c then some ([], .gap, p)
      else if single && c == mark && cs.head? == some mark then
        (quotedPart? single n (p.skip 2)).map fun (text, e, p) => (mark :: text, e, p)
      else if c == mark then some ([], .mark, p.skip 1)
      else if !single && c == '\\' then
        if (cs.head?.map isBreak).getD false then some ([], .escapedBreak, (p.skip 1).skipBreak)
        else
          match escaped? (p.skip 1) with
          | none => none
          | some (c, p) => (quotedPart? single n p).map fun (text, e, p) => (c :: text, e, p)
      else (quotedPart? single n (p.skip 1)).map fun (text, e, p) => (c :: text, e, p)

/-- The rest of a quoted text after its opening mark or a gap. -/
def quotedRest? (single : Bool) : Nat → Cursor → Option (List Char × Cursor)
  | 0, _ => none
  | n + 1, p =>
    if p.atDocumentMark || p.rest.isEmpty then none
    else
      match quotedPart? single (p.rest.length + 1) p with
      | none => none
      | some (text, .mark, p) => some (text, p)
      | some (text, e, p) =>
        -- An escaped break is no break, but the blanks after it count for nothing.
        let gap := if e = .escapedBreak then Gap.breaks [] [] else Gap.none
        match takeGap? none p.rest.length gap p with
        | none => none
        | some (gap, p) => (quotedRest? single n p).map fun (more, p) => (text ++ gap.fold ++ more, p)

/-- A text between quotation marks. -/
def quoted? (single : Bool) (p : Cursor) : Option (List Char × Cursor) :=
  quotedRest? single (p.rest.length + 1) (p.skip 1)

/-! ### Blocks of lines -/

/-- What becomes of the breaks at the end of a block. -/
inductive Chomping where
  | strip
  | clip
  | keep
  deriving DecidableEq, Repr

/-- The signs after the mark of a block: what becomes of the last breaks, and the indentation, where given. -/
structure BlockHeader where
  chomping : Chomping := .clip
  indent : Option Nat := none
  deriving Repr

def chomping? : Char → Option Chomping
  | '-' => some .strip
  | '+' => some .keep
  | _ => none

/-- The digit of an indentation; zero is none. -/
def indentDigit? (c : Char) : Option Nat :=
  if '1' ≤ c ∧ c ≤ '9' then some (c.toNat - 48) else none

/-- The signs after the mark of a block, in either order. -/
def blockHeader (p : Cursor) : BlockHeader × Cursor :=
  match p.rest with
  | [] => ({}, p)
  | c :: cs =>
    match chomping? c, indentDigit? c with
    | some chomping, _ =>
      match cs.head?.bind indentDigit? with
      | some indent => ({ chomping, indent := some indent }, p.skip 2)
      | none => ({ chomping }, p.skip 1)
    | none, some indent =>
      match cs.head?.bind chomping? with
      | some chomping => ({ chomping, indent := some indent }, p.skip 2)
      | none => ({ indent := some indent }, p.skip 1)
    | none, none => ({}, p)

/-- Passes the spaces of an indentation: up to the column `indent`, or all where it is not known. -/
def skipIndent (indent : Option Nat) (p : Cursor) : Cursor :=
  match indent with
  | some indent => p.skip ((p.rest.take (indent - p.column)).takeWhile (· == ' ')).length
  | none => p.skipWhile (· == ' ')

/-- Whether the indentation is not yet complete. -/
def beforeIndent (indent : Option Nat) (p : Cursor) : Bool :=
  match indent with
  | some indent => p.column < indent
  | none => true

/-- The breaks of empty lines, and the widest of the indentations. No tab may stand in an indentation. -/
def blockBreaks? (indent : Option Nat) : Nat → Nat → Cursor → Option (List Char × Nat × Cursor)
  | 0, widest, p => some ([], widest, p)
  | n + 1, widest, p =>
    let p := skipIndent indent p
    let widest := max widest p.column
    match p.rest with
    | [] => some ([], widest, p)
    | c :: _ =>
      if c == '\t' && beforeIndent indent p then none
      else if isBreak c then
        let (text, p) := p.takeBreak
        (blockBreaks? indent n widest p).map fun (more, widest, p) => (text ++ more, widest, p)
      else some ([], widest, p)

/-- Whether a line begins with a blank. -/
def beginsBlank (p : Cursor) : Bool :=
  (p.rest.head?.map isBlank).getD false

/-- The lines of a block, the breaks at their end apart: `leading` is the break before the line that stands here,
`more` are those of the empty lines after it, and `indented` says whether the line before began with a blank. -/
def blockLines? (literal : Bool) (indent : Nat) :
    Nat → List Char → List Char → Bool → Cursor → Option (List Char × List Char × List Char × Cursor)
  | 0, leading, more, _, p => some ([], leading, more, p)
  | n + 1, leading, more, indented, p =>
    if p.column != indent || p.rest.isEmpty then some ([], leading, more, p)
    else
      let blank := beginsBlank p
      let folds := !literal && leading == ['\n'] && !indented && !blank
      let joint := if !folds then leading ++ more else if more.isEmpty then [' '] else more
      let (line, p) := p.takeWhile fun c => !isBreak c
      let (leading, p) := p.takeBreak
      match blockBreaks? (some indent) p.rest.length 0 p with
      | none => none
      | some (more, _, p) =>
        (blockLines? literal indent n leading more blank p).map fun (text, rest) => (joint ++ line ++ text, rest)

/-- The lines below the mark of a block in what is indented by `outer`, if it is indented. -/
def block? (literal : Bool) (outer : Option Nat) (p : Cursor) : Option (List Char × Cursor) := do
  let (header, p) := blockHeader (p.skip 1)
  let p ← p.skipLineEnd?
  let given := header.indent.map (outer.getD 0 + ·)
  let (breaks, widest, p) ← blockBreaks? given (p.rest.length + 1) 0 p
  let least := (outer.map (· + 1)).getD 0
  let indent := given.getD (max (max widest least) 1)
  let (text, leading, more, p) ← blockLines? literal indent (p.rest.length + 1) [] breaks false p
  match header.chomping with
  | .strip => return (text, p)
  | .clip => return (text ++ leading, p)
  | .keep => return (text ++ leading ++ more, p)

end Yaml
end Folio

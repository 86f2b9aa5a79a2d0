import Folio.Yaml.Scalar
import Folio.Yaml.Tag

/-!
# Folio.Yaml.Token

The parts of a YAML text.

* `Token`: the parts. The starts and ends of block collections are no characters; they follow from indentation.
* `Scan`: how far a text is read. `Scan.step?` reads one part.
* `tokens?`: all parts of a text.

A key in front of a colon is only known for a key at the colon. So the place of a possible key is kept, with the
number of tokens before it; at the colon, the token for a key goes there.
-/

namespace Folio
namespace Yaml

inductive Token where
  | directive (d : Directive)
  | documentStart
  | documentEnd
  | blockSequence
  | blockMapping
  | blockEnd
  | flowSequence
  | flowSequenceEnd
  | flowMapping
  | flowMappingEnd
  | flowEntry
  | blockEntry
  | key
  | value
  | alias (name : String)
  | anchor (name : String)
  | tag (t : TagText)
  | scalar (style : Style) (text : String)
  deriving Repr

/-- A place where a key may begin. One in the column of its mapping has to be a key. -/
structure PossibleKey where
  required : Bool
  place : Cursor
  count : Nat
  deriving Repr

/-- How far a text is read.

* `tokens`: the tokens so far, last one first.
* `indents`: the columns of the open block collections, innermost first.
* `keys`: the possible key of the block context and of each open bracket, innermost first.
* `keyAllowed`: whether a key may begin here. -/
structure Scan where
  place : Cursor
  tokens : List Token := []
  indents : List Nat := []
  keys : List (Option PossibleKey) := [none]
  keyAllowed : Bool := true
  deriving Repr

namespace Scan

def inFlow (s : Scan) : Bool :=
  1 < s.keys.length

/-- The column of the innermost block collection. -/
def indent (s : Scan) : Option Nat :=
  s.indents.head?

def emit (s : Scan) (t : Token) : Scan :=
  { s with tokens := t :: s.tokens }

def moveTo (s : Scan) (p : Cursor) : Scan :=
  { s with place := p }

/-- Passes `n` characters, which are the token `t`. -/
def take (s : Scan) (n : Nat) (t : Token) : Scan :=
  (s.emit t).moveTo (s.place.skip n)

def allowKey (s : Scan) (allowed : Bool) : Scan :=
  { s with keyAllowed := allowed }

def possibleKey (s : Scan) : Option PossibleKey :=
  s.keys.head?.join

def setKey (s : Scan) (k : Option PossibleKey) : Scan :=
  { s with keys := k :: s.keys.drop 1 }

/-- The tokens with `t` after the first `count` of them. -/
def insertAt (s : Scan) (count : Nat) (t : Token) : Scan :=
  let back := s.tokens.length - count
  { s with tokens := s.tokens.take back ++ t :: s.tokens.drop back }

/-- Gives up the possible key. -/
def dropKey? (s : Scan) : Option Scan :=
  match s.possibleKey with
  | some k => if k.required then none else some (s.setKey none)
  | none => some (s.setKey none)

/-- Whether the place is too far from a key for a colon: in a later line, or more than 1024 characters away. -/
def isStale (p : Cursor) (k : PossibleKey) : Bool :=
  k.place.line < p.line || k.place.index + 1024 < p.index

/-- The possible keys without those that are too far away. -/
def freshKeys? (p : Cursor) : List (Option PossibleKey) → Option (List (Option PossibleKey))
  | [] => some []
  | none :: ks => (freshKeys? p ks).map (none :: ·)
  | some k :: ks =>
    if isStale p k then
      if k.required then none else (freshKeys? p ks).map (none :: ·)
    else (freshKeys? p ks).map (some k :: ·)

/-- Notes that a key may begin here. -/
def saveKey? (s : Scan) : Option Scan :=
  if s.keyAllowed then
    let required := !s.inFlow && s.indent == some s.place.column
    s.dropKey?.map fun s => s.setKey (some ⟨required, s.place, s.tokens.length⟩)
  else some s

/-- Opens a block collection in a column, unless one is open there. Its token goes after the first `count`. -/
def openBlock (s : Scan) (column : Nat) (count : Nat) (t : Token) : Scan :=
  let isDeeper := match s.indent with
    | some indent => indent < column
    | none => true
  if !s.inFlow && isDeeper then { s.insertAt count t with indents := column :: s.indents } else s

/-- The columns of the collections that a place in a column leaves open, and the number of those that it closes. -/
def closing (column : Nat) : List Nat → List Nat × Nat
  | [] => ([], 0)
  | i :: is =>
    if column < i then
      let (open_, n) := closing column is
      (open_, n + 1)
    else (i :: is, 0)

def closeTo (s : Scan) (indents : List Nat) (n : Nat) : Scan :=
  if s.inFlow then s
  else { s with indents, tokens := List.replicate n Token.blockEnd ++ s.tokens }

/-- Closes the block collections that are deeper than a column. -/
def closeDeeper (s : Scan) (column : Nat) : Scan :=
  let (indents, n) := closing column s.indents
  s.closeTo indents n

/-- Closes all block collections. -/
def closeAll (s : Scan) : Scan :=
  s.closeTo [] s.indents.length

/-- Passes blanks, comments and line breaks. A tab counts as a blank where no key may begin. -/
def skipGap : Nat → Scan → Scan
  | 0, s => s
  | n + 1, s =>
    let p := if s.place.column == 0 && s.place.rest.head? == some '\ufeff' then s.place.skip 1 else s.place
    let tabs := s.inFlow || !s.keyAllowed
    let p := (p.skipWhile fun c => c == ' ' || (tabs && c == '\t')).skipComment
    match p.rest with
    | c :: _ =>
      if isBreak c then
        let s := s.moveTo p.skipBreak
        skipGap n (if s.inFlow then s else s.allowKey true)
      else s.moveTo p
    | [] => s.moveTo p

/-- The end of what belongs to a document. -/
def endContent? (s : Scan) : Option Scan :=
  s.closeAll.dropKey?.map (·.allowKey false)

def readDirective? (s : Scan) : Option Scan := do
  let s ← s.endContent?
  let (d, p) ← directive? s.place
  return (s.emit (.directive d)).moveTo p

def readMark? (s : Scan) (t : Token) : Option Scan :=
  s.endContent?.map (·.take 3 t)

def openFlow? (s : Scan) (t : Token) : Option Scan :=
  s.saveKey?.map fun s => ({ s with keys := none :: s.keys }.allowKey true).take 1 t

/-- A closing bracket. One that closes nothing is left to the reader of nodes. -/
def closeFlow? (s : Scan) (t : Token) : Option Scan :=
  s.dropKey?.map fun s =>
    let s := if s.inFlow then { s with keys := s.keys.drop 1 } else s
    (s.allowKey false).take 1 t

def readFlowEntry? (s : Scan) : Option Scan :=
  s.dropKey?.map fun s => (s.allowKey true).take 1 .flowEntry

/-- The hyphen of an item in a block sequence. -/
def readBlockEntry? (s : Scan) : Option Scan :=
  if !s.inFlow && !s.keyAllowed then none
  else
    let s := s.openBlock s.place.column s.tokens.length .blockSequence
    s.dropKey?.map fun s => (s.allowKey true).take 1 .blockEntry

/-- The question mark before a key. -/
def readKey? (s : Scan) : Option Scan :=
  if !s.inFlow && !s.keyAllowed then none
  else
    let s := s.openBlock s.place.column s.tokens.length .blockMapping
    s.dropKey?.map fun s => (s.allowKey !s.inFlow).take 1 .key

/-- The colon before a value. -/
def readValue? (s : Scan) : Option Scan :=
  match s.possibleKey with
  | some k =>
    let s := (s.insertAt k.count .key).openBlock k.place.column k.count .blockMapping
    some (((s.setKey none).allowKey false).take 1 .value)
  | none =>
    if !s.inFlow && !s.keyAllowed then none
    else
      let s := s.openBlock s.place.column s.tokens.length .blockMapping
      some ((s.allowKey !s.inFlow).take 1 .value)

/-- A name before a node, or in place of it. -/
def readName? (s : Scan) (t : String → Token) : Option Scan := do
  let s ← s.saveKey?
  let (name, p) ← anchor? s.place
  return ((s.allowKey false).emit (t name)).moveTo p

def readTag? (s : Scan) : Option Scan := do
  let s ← s.saveKey?
  let (t, p) ← tag? s.inFlow s.place
  return ((s.allowKey false).emit (.tag t)).moveTo p

def readBlock? (s : Scan) (literal : Bool) : Option Scan := do
  let s ← s.dropKey?
  let (text, p) ← block? literal s.indent s.place
  let style := if literal then Style.literal else Style.folded
  return ((s.allowKey true).emit (.scalar style (String.ofList text))).moveTo p

def readQuoted? (s : Scan) (single : Bool) : Option Scan := do
  let s ← s.saveKey?
  let (text, p) ← quoted? single s.place
  return ((s.allowKey false).emit (.scalar .quoted (String.ofList text))).moveTo p

def readPlain? (s : Scan) : Option Scan := do
  let s ← s.saveKey?
  let (text, broken, p) ← plain? s.inFlow ((s.indent.map (· + 1)).getD 0) s.place
  return ((s.allowKey broken).emit (.scalar .plain (String.ofList text))).moveTo p

/-- The characters that begin no plain text. -/
def isIndicator (c : Char) : Bool :=
  "-?:,[]\x7b\x7d#&*!|>'\"%@".toList.contains c || c == '\x60'

/-- Whether a plain text begins here. -/
def beginsPlain (inFlow : Bool) (c : Char) (cs : List Char) : Bool :=
  !(isBlank c || isBreak c || isIndicator c)
    || (c == '-' && !(cs.head?.map isBlank).getD false)
    || (!inFlow && (c == '?' || c == ':') && !atGap cs)

/-- Reads the part that begins with `c`. -/
def read? (s : Scan) (c : Char) (cs : List Char) : Option Scan :=
  let separate := s.inFlow || atGap cs
  match c with
  | '[' => s.openFlow? .flowSequence
  | '\x7b' => s.openFlow? .flowMapping
  | ']' => s.closeFlow? .flowSequenceEnd
  | '\x7d' => s.closeFlow? .flowMappingEnd
  | ',' => s.readFlowEntry?
  | '*' => s.readName? .alias
  | '&' => s.readName? .anchor
  | '!' => s.readTag?
  | '\'' => s.readQuoted? true
  | '"' => s.readQuoted? false
  | c =>
    if c == '-' && atGap cs then s.readBlockEntry?
    else if c == '?' && separate then s.readKey?
    else if c == ':' && separate then s.readValue?
    else if c == '|' && !s.inFlow then s.readBlock? true
    else if c == '>' && !s.inFlow then s.readBlock? false
    else if beginsPlain s.inFlow c cs then s.readPlain?
    else none

/-- Reads one part after a gap. -/
def step? (s : Scan) : Option (Scan × Bool) := do
  let s := skipGap (s.place.rest.length + 1) s
  let keys ← freshKeys? s.place s.keys
  let s := { s with keys }.closeDeeper s.place.column
  match s.place.rest with
  | [] =>
    let s ← s.endContent?
    return (s, true)
  | c :: cs =>
    let atStart := s.place.column == 0
    let s ←
      if atStart && c == '%' then s.readDirective?
      else if atStart && beginsWithThree '-' (c :: cs) then s.readMark? .documentStart
      else if atStart && beginsWithThree '.' (c :: cs) then s.readMark? .documentEnd
      else s.read? c cs
    return (s, false)

/-- Reads all parts, of which there are less than `n`. -/
def run? : Nat → Scan → Option (List Token)
  | 0, _ => none
  | n + 1, s =>
    match s.step? with
    | none => none
    | some (s, true) => some s.tokens.reverse
    | some (s, false) => run? n s

end Scan

/-- Whether a character may stand in a YAML text. -/
def isAllowed (c : Char) : Bool :=
  let n := c.toNat
  n == 0x09 || n == 0x0A || n == 0x0D || (0x20 ≤ n && n ≤ 0x7E) || n == 0x85 || (0xA0 ≤ n && n ≤ 0xD7FF)
    || (0xE000 ≤ n && n ≤ 0xFFFD) || 0x10000 ≤ n

/-- The parts of a text. -/
def tokens? (text : String) : Option (List Token) :=
  if text.toList.all isAllowed then
    Scan.run? (text.length + 2) { place := Cursor.ofText text.toList }
  else none

end Yaml
end Folio

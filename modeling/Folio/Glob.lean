import Folio.Path

/-!
# Folio.Glob

Patterns for paths.

* `Glob.parse`: the pattern with a given text. A question mark stands for any byte, an asterisk for any bytes,
  slashes included; two asterisks between slashes stand for any directories.
* `Glob.matchesPath`: whether a pattern matches a whole path, byte by byte.
-/

namespace Folio

/-- A part of a pattern. A class is a list of ranges of bytes. -/
inductive GlobPart where
  | literal (bytes : List UInt8)
  | anyByte
  | anyBytes
  | byteClass (negated : Bool) (ranges : List (UInt8 × UInt8))
  | leadingDirectories
  | betweenDirectories
  | belowDirectory
  | alternatives (branches : List (List GlobPart))
  deriving Repr

abbrev Glob := List GlobPart

/-- Why a text is no pattern. -/
inductive GlobError where
  | unclosedClass
  | invalidRange (first last : Char)
  | danglingEscape
  | unopenedGroup
  | unclosedGroup
  deriving DecidableEq, Repr

def GlobError.message : GlobError → String
  | .unclosedClass => "unclosed character class; missing ']'"
  | .invalidRange first last =>
    "invalid range; '" ++ String.singleton first ++ "' > '" ++ String.singleton last ++ "'"
  | .danglingEscape => "dangling '\\'"
  | .unopenedGroup => "unopened alternate group; missing '\x7b' (maybe escape '\x7d' with '[\x7d]'?)"
  | .unclosedGroup => "unclosed alternate group; missing '\x7d' (maybe escape '\x7b' with '[\x7b]'?)"

namespace Glob

def charBytes (c : Char) : List UInt8 :=
  Text.encode (String.singleton c)

/-- The ranges of bytes for a range of characters. A character of more than one byte stands for its bytes, one by
one; only the bytes next to each other make a range. -/
def byteRanges (first last : Char) : List (UInt8 × UInt8) :=
  if first = last then (charBytes first).map fun b => (b, b)
  else
    let before := charBytes first
    let after := charBytes last
    before.dropLast.map (fun b => (b, b))
      ++ [(before.getLast?.getD 0, after.head?.getD 0)]
      ++ (after.drop 1).map fun b => (b, b)

/-- Reads a class, of which ranges (last one first) are known: its ranges, and what follows the bracket that closes
it. After a hyphen, `inRange` is set. -/
def readClass (inRange : Bool) (ranges : List (Char × Char)) :
    List Char → Except GlobError (List (Char × Char) × List Char)
  | [] => .error .unclosedClass
  | c :: cs =>
    if c = ']' ∧ ranges ≠ [] then .ok ((if inRange then ('-', '-') :: ranges else ranges).reverse, cs)
    else
      match inRange, ranges with
      | true, (first, _) :: ranges =>
        if c < first then .error (.invalidRange first c)
        else readClass false ((first, c) :: ranges) cs
      | _, ranges =>
        if c = '-' ∧ ranges ≠ [] then readClass true ranges cs
        else readClass false ((c, c) :: ranges) cs

/-- The class whose opening bracket is already read, and what follows it. -/
def classPart (cs : List Char) : Except GlobError (GlobPart × List Char) :=
  let (negated, cs) := match cs with
    | '!' :: cs => (true, cs)
    | '^' :: cs => (true, cs)
    | cs => (false, cs)
  match readClass false [] cs with
  | .error e => .error e
  | .ok (ranges, rest) => .ok (.byteClass negated (ranges.flatMap fun r => byteRanges r.1 r.2), rest)

/-- The parts read so far, last one first; for each open group, innermost first, its branches and the parts before
it; and the character read last. -/
structure Reading where
  parts : Glob
  groups : List (List Glob × Glob)
  last : Option Char

namespace Reading

def push (r : Reading) (part : GlobPart) (last : Char) : Reading :=
  { r with parts := part :: r.parts, last := some last }

/-- Two asterisks that stand for no directories. -/
def pushStars (r : Reading) : Reading :=
  (r.push .anyBytes '*').push .anyBytes '*'

/-- Two asterisks after a slash, or what counts as one, which belongs to them. -/
def pushDirectories (r : Reading) (part : GlobPart) (last : Char) : Reading :=
  let part := match r.parts.head? with
    | some .leadingDirectories => .leadingDirectories
    | some .belowDirectory => .belowDirectory
    | _ => part
  { r with parts := part :: r.parts.drop 1, last := some last }

/-- Whether the part before two asterisks lets them stand for directories. -/
def startsDirectories (r : Reading) : Bool :=
  r.last == some '/' || (!r.groups.isEmpty && (r.last == some ',' || r.last == some '{'))

/-- The reading after two asterisks at the start, and what follows. -/
def starsAtStart (r : Reading) : List Char → Reading × List Char
  | [] => (r.push .leadingDirectories '*', [])
  | c :: cs => if c = '/' then (r.push .leadingDirectories '/', cs) else (r.pushStars, c :: cs)

/-- The reading after two asterisks that may stand for directories, and what follows. -/
def starsInside (r : Reading) : List Char → Reading × List Char
  | [] => (r.pushDirectories .belowDirectory '*', [])
  | c :: cs =>
    if c = '/' then (r.pushDirectories .betweenDirectories '/', cs)
    else if (c = ',' ∨ c = '}') ∧ !r.groups.isEmpty then (r.pushDirectories .belowDirectory '*', c :: cs)
    else (r.pushStars, c :: cs)

/-- The reading after two asterisks, and what follows. -/
def stars (r : Reading) (cs : List Char) : Reading × List Char :=
  if r.parts.isEmpty then r.starsAtStart cs
  else if r.startsDirectories then r.starsInside cs
  else (r.pushStars, cs)

/-- The reading after the start of a pattern, and what follows. -/
def step (r : Reading) (c : Char) (cs : List Char) : Except GlobError (Reading × List Char) :=
  match c with
  | '?' => .ok (r.push .anyByte c, cs)
  | '*' =>
    match cs with
    | '*' :: cs => .ok (r.stars cs)
    | cs => .ok (r.push .anyBytes c, cs)
  | '[' =>
    match classPart cs with
    | .error e => .error e
    | .ok (part, rest) => .ok (r.push part ']', rest)
  | '{' => .ok (⟨[], ([], r.parts) :: r.groups, some c⟩, cs)
  | '}' =>
    match r.groups with
    | [] => .error .unopenedGroup
    | (branches, before) :: groups =>
      let part := GlobPart.alternatives ((r.parts.reverse :: branches).reverse)
      .ok (⟨part :: before, groups, some c⟩, cs)
  | ',' =>
    match r.groups with
    | [] => .ok (r.push (.literal (charBytes c)) c, cs)
    | (branches, before) :: groups => .ok (⟨[], (r.parts.reverse :: branches, before) :: groups, some c⟩, cs)
  | '\\' =>
    match cs with
    | [] => .error .danglingEscape
    | d :: cs => .ok (r.push (.literal (charBytes d)) d, cs)
  | c => .ok (r.push (.literal (charBytes c)) c, cs)

/-- The whole pattern, read in at most `n` steps. -/
def finish : Nat → Reading → List Char → Except GlobError Glob
  | 0, r, _ => if r.groups.isEmpty then .ok r.parts.reverse else .error .unclosedGroup
  | n + 1, r, cs =>
    match cs with
    | [] => if r.groups.isEmpty then .ok r.parts.reverse else .error .unclosedGroup
    | c :: cs =>
      match r.step c cs with
      | .error e => .error e
      | .ok (r, rest) => finish n r rest

end Reading

/-- The pattern with a text. -/
def parse (text : String) : Except GlobError Glob :=
  Reading.finish (text.toList.length + 1) ⟨[], [], none⟩ text.toList

/-- All ends of a byte sequence, itself and the empty one included. -/
def tails : List UInt8 → List (List UInt8)
  | [] => [[]]
  | b :: bs => (b :: bs) :: tails bs

/-- What follows each slash. -/
def afterSlashes : List UInt8 → List (List UInt8)
  | [] => []
  | b :: bs => if b = Path.slash then bs :: afterSlashes bs else afterSlashes bs

def inRanges (ranges : List (UInt8 × UInt8)) (b : UInt8) : Bool :=
  ranges.any fun r => r.1 ≤ b && b ≤ r.2

/-- What may follow a part without alternatives that matches the start of a byte sequence. -/
def simpleRests (part : GlobPart) (bytes : List UInt8) : List (List UInt8) :=
  match part, bytes with
  | .literal lit, bytes => if lit.isPrefixOf bytes then [bytes.drop lit.length] else []
  | .anyByte, _ :: bs => [bs]
  | .anyBytes, bytes => tails bytes
  | .byteClass negated ranges, b :: bs => if inRanges ranges b != negated then [bs] else []
  | .leadingDirectories, bytes => bytes :: afterSlashes bytes
  | .betweenDirectories, b :: bs => if b = Path.slash then bs :: afterSlashes bs else []
  | .belowDirectory, b :: bs => if b = Path.slash then tails bs else []
  | _, _ => []

mutual

/-- Whether a part is made of empty groups only. -/
def isVoid : GlobPart → Bool
  | .alternatives branches => areVoidBranches branches
  | _ => false

def areVoid : Glob → Bool
  | [] => true
  | part :: parts => isVoid part && areVoid parts

def areVoidBranches : List Glob → Bool
  | [] => true
  | branch :: branches => areVoid branch && areVoidBranches branches

end

mutual

/-- What may follow a part that matches the start of a byte sequence. -/
def rests : GlobPart → List UInt8 → List (List UInt8)
  | .alternatives branches, bytes => if areVoidBranches branches then [bytes] else branchRests branches bytes
  | part, bytes => simpleRests part bytes

/-- What may follow parts, one after the other, after one of the given starts. -/
def partsRests : Glob → List (List UInt8) → List (List UInt8)
  | [], starts => starts
  | part :: parts, starts => partsRests parts (starts.flatMap fun bytes => rests part bytes).eraseDups

/-- What may follow one of the branches; void branches do not count. -/
def branchRests : List Glob → List UInt8 → List (List UInt8)
  | [], _ => []
  | branch :: branches, bytes =>
    (if areVoid branch then [] else partsRests branch [bytes]) ++ branchRests branches bytes

end

/-- Whether a pattern matches a path. Two asterisks alone match all paths. -/
def matchesPath (glob : Glob) (path : Path) : Bool :=
  match glob with
  | [.leadingDirectories] => true
  | glob => (partsRests glob [path.bytes]).contains []

end Glob

end Folio

import Folio.Text.Utf8
import Folio.Yaml.Cursor

/-!
# Folio.Yaml.Tag

The names in a YAML document that are not part of its data.

* `Tag`: the name of a type, as bytes. `TagText` is a tag as it is written: a handle, which stands for the start of
  a name, and the rest.
* `tag?`, `anchor?`: reading the names before a node.
* `Directive`, `directive?`: the lines before a document that begin with a percent sign.
-/

namespace Folio
namespace Yaml

/-- The name of a type of nodes. -/
abbrev Tag := List UInt8

/-- A tag as it is written. Without a handle, the rest is the whole name. -/
structure TagText where
  handle : Option (List Char)
  suffix : Tag
  deriving Repr

inductive Directive where
  | version (major minor : Nat)
  | tagPrefix (handle : List Char) (start : Tag)
  deriving Repr

/-- The characters of a tag. In angle brackets, commas and square brackets are among them. -/
def isTagChar (verbatim : Bool) (c : Char) : Bool :=
  isWordChar c || ";/?:@&=+$.!~*'()%".toList.contains c || (verbatim && (c == ',' || c == '[' || c == ']'))

/-- The byte after a percent sign. -/
def percentByte? : List Char → Option UInt8
  | '%' :: a :: b :: _ =>
    match hexValue? a, hexValue? b with
    | some a, some b => some (UInt8.ofNat (a * 16 + b))
    | _, _ => none
  | _ => none

/-- The number of bytes of a character, by its first byte. -/
def sequenceLength? (b : UInt8) : Option Nat :=
  if b &&& 0x80 == 0 then some 1
  else if b &&& 0xE0 == 0xC0 then some 2
  else if b &&& 0xF0 == 0xE0 then some 3
  else if b &&& 0xF8 == 0xF0 then some 4
  else none

/-- `n` bytes that go on with a character, each after a percent sign. -/
def continuation? : Nat → Cursor → Option (List UInt8 × Cursor)
  | 0, p => some ([], p)
  | n + 1, p =>
    match percentByte? p.rest with
    | none => none
    | some b =>
      if b &&& 0xC0 == 0x80 then (continuation? n (p.skip 3)).map fun (bs, p) => (b :: bs, p) else none

/-- A character by its bytes, each after a percent sign. -/
def percentChar? (p : Cursor) : Option (List UInt8 × Cursor) := do
  let b ← percentByte? p.rest
  let n ← sequenceLength? b
  let (bs, p) ← continuation? (n - 1) (p.skip 3)
  return (b :: bs, p)

/-- The bytes of a tag, in at most `n` steps. -/
def tagBytes? (verbatim : Bool) : Nat → Cursor → Option (List UInt8 × Cursor)
  | 0, p => some ([], p)
  | n + 1, p =>
    match p.rest with
    | [] => some ([], p)
    | c :: _ =>
      if c == '%' then
        match percentChar? p with
        | none => none
        | some (bs, p) => (tagBytes? verbatim n p).map fun (rest, p) => (bs ++ rest, p)
      else if isTagChar verbatim c then
        (tagBytes? verbatim n (p.skip 1)).map fun (rest, p) => (Text.encode (String.singleton c) ++ rest, p)
      else some ([], p)

/-- The rest of a tag after `before`. A tag that has no characters at all is an error; a zero byte ends the name. -/
def tagRest? (verbatim : Bool) (before : List Char) (p : Cursor) : Option (Tag × Cursor) :=
  match tagBytes? verbatim p.rest.length p with
  | none => none
  | some (bytes, q) =>
    if before.isEmpty && q.index == p.index then none
    else some ((Text.encode (String.ofList (before.drop 1)) ++ bytes).takeWhile (· != 0), q)

/-- A handle: two exclamation marks with a word between them. It may also be the first mark and the word only. -/
def handle (p : Cursor) : List Char × Cursor :=
  let (word, q) := (p.skip 1).takeWhile isWordChar
  match q.rest with
  | '!' :: _ => ('!' :: word ++ ['!'], q.skip 1)
  | _ => ('!' :: word, q)

/-- Whether a handle has its second mark. -/
def isComplete (h : List Char) : Bool :=
  match h with
  | _ :: cs => cs.getLast? == some '!'
  | [] => false

/-- A tag in angle brackets. -/
def verbatim? (p : Cursor) : Option (TagText × Cursor) :=
  match tagRest? true [] (p.skip 2) with
  | some (suffix, q) =>
    match q.rest with
    | '>' :: _ => some (⟨none, suffix⟩, q.skip 1)
    | _ => none
  | none => none

/-- A tag with a handle, or with an exclamation mark in front of it. -/
def shorthand? (p : Cursor) : Option (TagText × Cursor) :=
  let (h, q) := handle p
  if isComplete h then
    (tagRest? false [] q).map fun (suffix, q) => (⟨some h, suffix⟩, q)
  else
    match tagRest? false h q with
    | none => none
    | some ([], q) => some (⟨none, Text.encode "!"⟩, q)
    | some (suffix, q) => some (⟨some ['!'], suffix⟩, q)

/-- The tag that stands here. A gap follows it, or in brackets a comma. -/
def tag? (inFlow : Bool) (p : Cursor) : Option (TagText × Cursor) :=
  let read := match p.rest with
    | _ :: '<' :: _ => verbatim? p
    | _ => shorthand? p
  match read with
  | none => none
  | some (tag, q) => if atGap q.rest || (inFlow && q.rest.head? == some ',') then some (tag, q) else none

/-- Whether the name of an anchor may end before this text. -/
def endsAnchor : List Char → Bool
  | [] => true
  | c :: cs => atGap (c :: cs) || "?:,]\x7d%@".toList.contains c || c == '\x60'

/-- The name after the sign of an anchor or an alias. -/
def anchor? (p : Cursor) : Option (String × Cursor) :=
  let (name, q) := (p.skip 1).takeWhile isWordChar
  if name.isEmpty || !endsAnchor q.rest then none else some (String.ofList name, q)

/-- The most digits that a number in a directive may have. -/
def maxVersionDigits : Nat := 9

def versionNumber? (p : Cursor) : Option (Nat × Cursor) :=
  let (digits, q) := p.takeWhile Char.isDigit
  if digits.isEmpty || maxVersionDigits < digits.length then none
  else some (digits.foldl (fun n c => n * 10 + (c.toNat - 48)) 0, q)

/-- The version after the word for it. -/
def version? (p : Cursor) : Option (Directive × Cursor) := do
  let (major, p) ← versionNumber? (p.skipWhile isBlank)
  match p.rest with
  | '.' :: _ =>
    let (minor, p) ← versionNumber? (p.skip 1)
    return (.version major minor, p)
  | _ => none

/-- The handle and what it stands for, after the word for them. -/
def tagPrefix? (p : Cursor) : Option (Directive × Cursor) :=
  let p := p.skipWhile isBlank
  if p.rest.head? == some '!' then
    let (h, p) := handle p
    if !(isComplete h || h == ['!']) || !(p.rest.head?.map isBlank).getD false then none
    else
      match tagRest? true [] (p.skipWhile isBlank) with
      | none => none
      | some (start, p) => if atGap p.rest then some (.tagPrefix h start, p) else none
  else none

/-- The directive that stands here, to the end of its line. -/
def directive? (p : Cursor) : Option (Directive × Cursor) := do
  let (name, p) := (p.skip 1).takeWhile isWordChar
  if !atGap p.rest then none
  else
    let (directive, p) ← match String.ofList name with
      | "YAML" => version? p
      | "TAG" => tagPrefix? p
      | _ => none
    let p ← p.skipLineEnd?
    return (directive, p)

end Yaml
end Folio

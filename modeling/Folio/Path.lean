import Folio.Text.Utf8

/-!
# Folio.Path

Paths: sequences of bytes in which slashes separate names.

* `components`: what a path means; empty names and single dots count for nothing, a dot at the front apart.
* `fileName?`, `parent?`, `stem?`, `extension?`: the parts of a path.
* `join`, `withExtension`: new paths from old ones. The bytes of the old path that are kept stay as they are.
* `sameComponents`: equality up to spelling.
-/

namespace Folio

/-- The name of one entry of a directory. -/
abbrev Name := List UInt8

/-- A path, as it is written. -/
structure Path where
  bytes : List UInt8
  deriving DecidableEq, Repr, Inhabited

namespace Path

def slash : UInt8 := 0x2F

def dot : UInt8 := 0x2E

def dotName : Name := [dot]

def dotDotName : Name := [dot, dot]

def ofString (s : String) : Path := ⟨Text.encode s⟩

/-- The path as a text to show. -/
def display (p : Path) : String :=
  Text.display p.bytes

/-- The parts of a byte sequence between slashes; there is always one. -/
def split : List UInt8 → List Name
  | [] => [[]]
  | b :: bs =>
    if b = slash then [] :: split bs
    else
      match split bs with
      | [] => [[b]]
      | name :: names => (b :: name) :: names

/-- The byte sequence with these parts between slashes. -/
def unsplit : List Name → List UInt8
  | [] => []
  | [name] => name
  | name :: names => name ++ slash :: unsplit names

theorem split_ne_nil (bs : List UInt8) : split bs ≠ [] := by
  cases bs with
  | nil => simp [split]
  | cons b bs =>
    simp only [split]
    split
    · simp
    · split <;> simp

theorem unsplit_split (bs : List UInt8) : unsplit (split bs) = bs := by
  induction bs with
  | nil => rfl
  | cons b bs ih =>
    simp only [split]
    split
    · next h =>
      subst h
      cases hs : split bs with
      | nil => exact absurd hs (split_ne_nil bs)
      | cons name names => rw [← ih, hs]; rfl
    · split
      · next hs => exact absurd hs (split_ne_nil bs)
      · next name names hs =>
        rw [hs] at ih
        cases names with
        | nil => simpa [unsplit] using ih
        | cons n ns => simpa [unsplit] using ih

theorem not_mem_of_mem_split {bs : List UInt8} {name : Name} (h : name ∈ split bs) : slash ∉ name := by
  induction bs generalizing name with
  | nil =>
    obtain rfl := List.mem_singleton.1 h
    simp
  | cons b bs ih =>
    rw [split] at h
    split at h
    · obtain rfl | h := List.mem_cons.1 h
      · simp
      · exact ih h
    · next hb =>
      split at h
      · next hs => exact absurd hs (split_ne_nil bs)
      · next first rest hs =>
        rw [hs] at ih
        obtain rfl | h := List.mem_cons.1 h
        · rw [List.mem_cons, not_or]
          exact ⟨Ne.symm hb, ih List.mem_cons_self⟩
        · exact ih (List.mem_cons_of_mem first h)

/-- A path starts at the root when its first byte is a slash. -/
def isAbsolute (p : Path) : Bool :=
  p.bytes.head? == some slash

inductive Component where
  | root
  | current
  | parent
  | normal (name : Name)
  deriving DecidableEq, Repr

/-- The meaning of a part that is not the first one. -/
def Component.ofPart? (name : Name) : Option Component :=
  if name = [] ∨ name = dotName then none
  else if name = dotDotName then some .parent
  else some (.normal name)

/-- The meaning of the first part of a path. -/
def Component.ofFirst? (rooted : Bool) (name : Name) : Option Component :=
  if rooted then some .root
  else if name = dotName then some .current
  else ofPart? name

def components (p : Path) : List Component :=
  match split p.bytes with
  | [] => []
  | first :: rest =>
    (Component.ofFirst? p.isAbsolute first).toList ++ rest.filterMap Component.ofPart?

/-- Two spellings of the same components. -/
def sameComponents (p q : Path) : Bool :=
  p.components == q.components

/-- The name a path ends with, if it does not end with dots or at the root. -/
def fileName? (p : Path) : Option Name :=
  match p.components.getLast? with
  | some (.normal name) => some name
  | _ => none

/-- Whether a part of a path counts for nothing at its place. -/
def isIdle (first : Bool) (name : Name) : Bool :=
  if first then name == [] else name == [] || name == dotName

/-- The parts of a path, last one first, without the idle ones at the end. The part of the root stays. -/
def dropIdle (rooted : Bool) : List Name → List Name
  | [] => []
  | [first] => if !rooted && isIdle true first then [] else [first]
  | name :: names => if isIdle false name then dropIdle rooted names else name :: names

/-- The path with these parts, last one first. -/
def ofReversed (rooted : Bool) (parts : List Name) : Path :=
  match rooted, parts with
  | true, [_] => ⟨[slash]⟩
  | _, parts => ⟨unsplit parts.reverse⟩

/-- The path without its last component; none for the root and for the empty path. -/
def parent? (p : Path) : Option Path :=
  match dropIdle p.isAbsolute (split p.bytes).reverse with
  | [] => none
  | [_] => if p.isAbsolute then none else some ⟨[]⟩
  | _ :: rest => some (ofReversed p.isAbsolute (dropIdle p.isAbsolute rest))

/-- A name cut at its last dot: what stands before it, and after it. -/
def cutName (name : Name) : Option (Name × Name) :=
  let after := (name.reverse.takeWhile (· != dot)).reverse
  let before := name.take (name.length - after.length - 1)
  if after.length = name.length then none else some (before, after)

/-- The stem of a name: all before its last dot, if something stands there. -/
def stemOf (name : Name) : Name :=
  match cutName name with
  | some ([], _) => name
  | some (before, _) => before
  | none => name

/-- The extension of a name: what follows its last dot, if something stands before the dot. -/
def extensionOf? (name : Name) : Option Name :=
  match cutName name with
  | some ([], _) => none
  | some (_, after) => some after
  | none => none

def stem? (p : Path) : Option Name :=
  p.fileName?.map stemOf

def extension? (p : Path) : Option Name :=
  match p.fileName? with
  | none => none
  | some name => extensionOf? name

/-- The path with another extension after the stem of its file name, where it has a file name. -/
def setExtension (p : Path) (extension : Name) : Path :=
  match p.fileName? with
  | none => p
  | some name =>
    let parts := dropIdle p.isAbsolute (split p.bytes).reverse
    let name := stemOf name ++ (if extension = [] then [] else dot :: extension)
    ⟨unsplit (name :: parts.drop 1).reverse⟩

/-- The path without as many bytes at its end as its extension has. -/
def cutExtension (p : Path) : Path :=
  match p.extension? with
  | none => p
  | some extension => ⟨p.bytes.take (p.bytes.length - extension.length)⟩

/-- The path with its extension replaced by another one. -/
def withExtension (p : Path) (extension : Name) : Path :=
  p.cutExtension.setExtension extension

/-- The path that `q` names from `p`: `q` itself when it starts at the root. -/
def join (p q : Path) : Path :=
  if q.isAbsolute then q
  else if p.bytes = [] ∨ p.bytes.getLast? = some slash then ⟨p.bytes ++ q.bytes⟩
  else ⟨p.bytes ++ slash :: q.bytes⟩

/-- The directory a path stands in; `.` where the path names none. -/
def directory (p : Path) : Path :=
  match p.parent? with
  | some parent => if parent.bytes = [] then ofString "." else parent
  | none => ofString "."

end Path

end Folio

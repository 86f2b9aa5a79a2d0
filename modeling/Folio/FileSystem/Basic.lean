import Folio.Path

/-!
# Folio.FileSystem.Basic

A tree of directories, regular files and symbolic links, as a table from locations to entries.

* `Location`: the names that lead from the root to an entry, without links and dots.
* `get?`: the entry at a location; the root is always a directory.
* `put`, `removeTree`: the table with one entry set, or with a location and all below it removed.
* `children`: the names in a directory, in byte order.
-/

namespace Folio

/-- Why a file cannot be read or written. -/
inductive IoError where
  | notFound
  | alreadyExists
  | notADirectory
  | isADirectory
  | nameTooLong
  | tooManyLinks
  | nulByte
  | invalidUtf8
  | other (text : String)
  deriving DecidableEq, Repr

def IoError.message : IoError → String
  | .notFound => "No such file or directory (os error 2)"
  | .alreadyExists => "File exists (os error 17)"
  | .notADirectory => "Not a directory (os error 20)"
  | .isADirectory => "Is a directory (os error 21)"
  | .nameTooLong => "File name too long (os error 36)"
  | .tooManyLinks => "Too many levels of symbolic links (os error 40)"
  | .nulByte => "file name contained an unexpected NUL byte"
  | .invalidUtf8 => "stream did not contain valid UTF-8"
  | .other text => text

abbrev Location := List Name

inductive Entry where
  | file (bytes : List UInt8)
  | directory
  | link (target : Path)
  deriving DecidableEq, Repr

/-- The entries below the root, and the directory that relative paths start from. -/
structure FileSystem where
  entries : List (Location × Entry)
  current : Location
  deriving Repr, Inhabited

namespace FileSystem

def get? (fs : FileSystem) (l : Location) : Option Entry :=
  if l = [] then some .directory else fs.entries.lookup l

/-- The table with `e` at `l`, in its old place if it has one. -/
def putEntry (l : Location) (e : Entry) : List (Location × Entry) → List (Location × Entry)
  | [] => [(l, e)]
  | (k, d) :: rest => if k = l then (k, e) :: rest else (k, d) :: putEntry l e rest

theorem lookup_putEntry (l k : Location) (e : Entry) (es : List (Location × Entry)) :
    (putEntry l e es).lookup k = if k = l then some e else es.lookup k := by
  induction es with
  | nil =>
    by_cases h : k = l
    · simp [putEntry, h]
    · simp [putEntry, List.lookup_cons, h, beq_eq_false_iff_ne.mpr h]
  | cons p rest ih =>
    obtain ⟨n, d⟩ := p
    by_cases hn : n = l
    · subst hn
      by_cases h : k = n
      · simp [putEntry, h]
      · simp [putEntry, List.lookup_cons, h, beq_eq_false_iff_ne.mpr h]
    · by_cases hk : k = n
      · subst hk
        simp [putEntry, hn]
      · simp [putEntry, hn, List.lookup_cons, beq_eq_false_iff_ne.mpr hk, ih]

def put (fs : FileSystem) (l : Location) (e : Entry) : FileSystem :=
  { fs with entries := putEntry l e fs.entries }

/-- A write changes the entry at its location and no other. -/
theorem get?_put (fs : FileSystem) {l : Location} (hl : l ≠ []) (e : Entry) (k : Location) :
    (fs.put l e).get? k = if k = l then some e else fs.get? k := by
  by_cases hk : k = []
  · subst hk
    simp [get?, Ne.symm hl]
  · simp [get?, put, hk, lookup_putEntry]

/-- The table without the entry at `l` and all below it. -/
def removeTree (fs : FileSystem) (l : Location) : FileSystem :=
  { fs with entries := fs.entries.filter fun p => !l.isPrefixOf p.1 }

/-- Byte order of names. -/
def nameLe : Name → Name → Bool
  | [], _ => true
  | _ :: _, [] => false
  | a :: as, b :: bs => if a < b then true else if b < a then false else nameLe as bs

/-- The name of an entry that stands directly in `l`. -/
def childName? (l : Location) (k : Location) : Option Name :=
  match k.getLast? with
  | none => none
  | some name => if k.dropLast = l then some name else none

/-- The names in the directory at `l`, in byte order. -/
def children (fs : FileSystem) (l : Location) : List Name :=
  (fs.entries.filterMap fun p => childName? l p.1).mergeSort nameLe

end FileSystem
end Folio

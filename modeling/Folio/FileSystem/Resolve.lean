import Folio.FileSystem.Basic

/-!
# Folio.FileSystem.Resolve

The location a path leads to.

* `locate`: follows the names of a path, links on the way included. The last name may be missing, as that of a
  file that is to be made. `resolve` does so for a path of any text.
* `locateExisting`: the same, where the entry has to exist.
* `canonical?`: the same, by paths from the root. These have a limit of their own, so that an entry which can be opened
  by another path may have none.
-/

namespace Folio
namespace FileSystem

/-- The length of a path from which on no path is accepted, and that of a name which is still accepted. -/
def maxPathLength : Nat := 4096

def maxNameLength : Nat := 255

/-- The number of links that are followed for one path. -/
def maxLinks : Nat := 40

/-- The parts of the target of a link, and the place they start from. -/
def linkStart (at_ : Location) (target : Path) : Location :=
  if target.isAbsolute then [] else at_

/-- Follows `parts` from the location `at_`; `links` more links may be followed, and a link at the end is
followed when `through` is set. -/
def follow (fs : FileSystem) (through : Bool) (links : Nat) (at_ : Location) (parts : List Name) :
    Except IoError Location :=
  match parts with
  | [] => .ok at_
  | part :: rest =>
    match fs.get? at_ with
    | some .directory =>
      if part = [] ∨ part = Path.dotName then follow fs through links at_ rest
      else if part = Path.dotDotName then follow fs through links at_.dropLast rest
      else if maxNameLength < part.length then .error .nameTooLong
      else
        match fs.get? (at_ ++ [part]) with
        | none => if rest = [] then .ok (at_ ++ [part]) else .error .notFound
        | some (.link target) =>
          if rest = [] ∧ through = false then .ok (at_ ++ [part])
          else
            match links with
            | 0 => .error .tooManyLinks
            | links + 1 => follow fs through links (linkStart at_ target) (Path.split target.bytes ++ rest)
        | some _ => follow fs through links (at_ ++ [part]) rest
    | _ => .error .notADirectory
termination_by (links, parts.length)

/-- The location of a path, whatever its text. -/
def resolve (fs : FileSystem) (through : Bool) (p : Path) : Except IoError Location :=
  fs.follow through maxLinks (if p.isAbsolute then [] else fs.current) (Path.split p.bytes)

/-- Checks that hold for every path. -/
def checkPath (p : Path) : Except IoError Unit :=
  if p.bytes.contains 0 then .error .nulByte
  else if p.bytes = [] then .error .notFound
  else if maxPathLength ≤ p.bytes.length then .error .nameTooLong
  else .ok ()

/-- The location of a path. A link at its end is followed when `through` is set. -/
def locate (fs : FileSystem) (through : Bool) (p : Path) : Except IoError Location :=
  match checkPath p with
  | .error e => .error e
  | .ok () =>
    follow fs through maxLinks (if p.isAbsolute then [] else fs.current) (Path.split p.bytes)

/-- The location of a path and the entry there. -/
def locateExisting (fs : FileSystem) (through : Bool) (p : Path) : Except IoError (Location × Entry) :=
  match fs.locate through p with
  | .error e => .error e
  | .ok l =>
    match fs.get? l with
    | none => .error .notFound
    | some entry => .ok (l, entry)

def pathExists (fs : FileSystem) (p : Path) : Bool :=
  match fs.locateExisting true p with
  | .ok _ => true
  | .error _ => false

def isDirectory (fs : FileSystem) (p : Path) : Bool :=
  match fs.locateExisting true p with
  | .ok (_, .directory) => true
  | _ => false

/-! ### Canonical paths -/

/-- The length of the path from the root to a location. -/
def pathLength (l : Location) : Nat :=
  (l.flatMap fun name => Path.slash :: name).length

/-- Whether the parts that come after a name demand that a directory has it: nothing but a slash and dots, or dots
that lead up from there. -/
def demandsDirectory (rest : List Name) : Bool :=
  rest != [] &&
    match rest.dropWhile fun part => part == [] || part == Path.dotName with
    | [] => true
    | part :: _ => part == Path.dotDotName

/-- Follows `parts` from the location `at_`, as `follow` does. But every name on the way is looked up by its path from
the root, with one more slash where a directory is demanded, and this path must not be too long. -/
def canonicalFrom (fs : FileSystem) (links : Nat) (at_ : Location) (parts : List Name) : Option Location :=
  match parts with
  | [] => some at_
  | part :: rest =>
    match fs.get? at_ with
    | some .directory =>
      if part = [] ∨ part = Path.dotName then canonicalFrom fs links at_ rest
      else if part = Path.dotDotName then canonicalFrom fs links at_.dropLast rest
      else if maxNameLength < part.length ∨ maxPathLength ≤ pathLength (at_ ++ [part]) then none
      else
        match fs.get? (at_ ++ [part]) with
        | none => none
        | some (.link target) =>
          match links with
          | 0 => none
          | links + 1 => canonicalFrom fs links (linkStart at_ target) (Path.split target.bytes ++ rest)
        | some _ =>
          if demandsDirectory rest = true ∧ maxPathLength ≤ pathLength (at_ ++ [part]) + 1 then none
          else canonicalFrom fs links (at_ ++ [part]) rest
    | _ => none
termination_by (links, parts.length)

/-- The location without links that a path names, if an entry is there that can be looked up from the root. The path
itself may be of any length. -/
def canonical? (fs : FileSystem) (p : Path) : Option Location :=
  if p.bytes = [] ∨ p.bytes.contains 0 = true then none
  else fs.canonicalFrom maxLinks (if p.isAbsolute then [] else fs.current) (Path.split p.bytes)

/-- Whether two paths lead to one entry; where one of them has no canonical path, whether they have the same
components. -/
def sameFile (fs : FileSystem) (p q : Path) : Bool :=
  match fs.canonical? p, fs.canonical? q with
  | some l, some k => l == k
  | _, _ => p.sameComponents q

end FileSystem
end Folio

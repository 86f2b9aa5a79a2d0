import Folio.FileSystem.Resolve

/-!
# Folio.FileSystem.Access

Reading and writing.

* `read`, `readText`: the contents of a file.
* `write`: makes or replaces a file; its directory has to exist.
* `makeDirectory`, `makeDirectories`: one directory, or a directory with all that lead to it.
* `makeLink`, `remove`: a symbolic link, and the removal of an entry with all below it.
-/

namespace Folio
namespace FileSystem

def read (fs : FileSystem) (p : Path) : Except IoError (List UInt8) :=
  match fs.locateExisting true p with
  | .error e => .error e
  | .ok (_, .file bytes) => .ok bytes
  | .ok (_, _) => .error .isADirectory

def readText (fs : FileSystem) (p : Path) : Except IoError String :=
  match fs.read p with
  | .error e => .error e
  | .ok bytes =>
    match Text.decode? bytes with
    | none => .error .invalidUtf8
    | some text => .ok text

/-- The path without slashes at its end, unless it is made of slashes. -/
def withoutFinalSlashes (p : Path) : Path :=
  match (p.bytes.reverse.dropWhile (· == Path.slash)).reverse with
  | [] => p
  | bytes => ⟨bytes⟩

/-- Whether the last name that is looked up, after all links, has a slash behind it. -/
def endsInSlash (fs : FileSystem) (links : Nat) (at_ : Location) (parts : List Name) : Bool :=
  match parts with
  | [] => false
  | part :: rest =>
    match fs.get? at_ with
    | some .directory =>
      if part = [] ∨ part = Path.dotName then endsInSlash fs links at_ rest
      else if part = Path.dotDotName then endsInSlash fs links at_.dropLast rest
      else if rest ≠ [] ∧ ∀ p ∈ rest, p = [] then true
      else if maxNameLength < part.length then false
      else
        match fs.get? (at_ ++ [part]) with
        | none => false
        | some (.link target) =>
          match links with
          | 0 => false
          | links + 1 => endsInSlash fs links (linkStart at_ target) (Path.split target.bytes ++ rest)
        | some _ => endsInSlash fs links (at_ ++ [part]) rest
    | _ => false
termination_by (links, parts.length)

/-- Whether a path names a directory by a slash, be it there or not. -/
def namesDirectory (fs : FileSystem) (p : Path) : Bool :=
  fs.endsInSlash maxLinks (if p.isAbsolute then [] else fs.current) (Path.split p.bytes)

/-- The location at which a write to a path puts its file. -/
def writeLocation (fs : FileSystem) (p : Path) : Except IoError Location :=
  match checkPath p with
  | .error e => .error e
  | .ok () =>
    if fs.namesDirectory p then .error .isADirectory
    else
      match fs.locate true p with
      | .error e => .error e
      | .ok l =>
        match fs.get? l with
        | some .directory => .error .isADirectory
        | _ => .ok l

/-- Makes or replaces the file at a path. -/
def write (fs : FileSystem) (p : Path) (bytes : List UInt8) : Except IoError FileSystem :=
  match fs.writeLocation p with
  | .error e => .error e
  | .ok l => .ok (fs.put l (.file bytes))

/-- Makes a directory where nothing is. -/
def makeDirectory (fs : FileSystem) (p : Path) : Except IoError FileSystem :=
  match fs.locate false (withoutFinalSlashes p) with
  | .error e => .error e
  | .ok l =>
    match fs.get? l with
    | some _ => .error .alreadyExists
    | none => .ok (fs.put l .directory)

/-- Makes these directories in turn. One that is there already is left as it is. -/
def makeEach (fs : FileSystem) : List Path → FileSystem × Except IoError Unit
  | [] => (fs, .ok ())
  | p :: ps =>
    match fs.makeDirectory p with
    | .ok fs' => makeEach fs' ps
    | .error e => if fs.isDirectory p then makeEach fs ps else (fs, .error e)

/-- The path and the paths that lead to it, nearest first, up to the first at which a directory can be made or
stands already. -/
def missing (fs : FileSystem) : Nat → Path → Except IoError (List Path)
  | 0, _ => .error .nameTooLong
  | n + 1, p =>
    if p.bytes = [] then .ok []
    else
      match fs.makeDirectory p with
      | .ok _ => .ok [p]
      | .error .notFound =>
        match p.parent? with
        | none => .ok [p]
        | some parent =>
          match fs.missing n parent with
          | .error e => .error e
          | .ok ps => .ok (p :: ps)
      | .error e => if fs.isDirectory p then .ok [] else .error e

/-- Makes a directory and all that lead to it. What is made before a failure stays. -/
def makeDirectories (fs : FileSystem) (p : Path) : FileSystem × Except IoError Unit :=
  match fs.missing (p.bytes.length + 1) p with
  | .error e => (fs, .error e)
  | .ok ps => fs.makeEach ps.reverse

def makeLink (fs : FileSystem) (p target : Path) : Except IoError FileSystem :=
  match fs.locate false p with
  | .error e => .error e
  | .ok l =>
    match fs.get? l with
    | some _ => .error .alreadyExists
    | none => .ok (fs.put l (.link target))

/-- Removes an entry and all below it. -/
def remove (fs : FileSystem) (p : Path) : Except IoError FileSystem :=
  match fs.locateExisting false p with
  | .error e => .error e
  | .ok (l, _) => .ok (fs.removeTree l)

end FileSystem
end Folio

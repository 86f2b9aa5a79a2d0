import Folio.Document
import Folio.Ignore
import Folio.Kind

/-!
# Folio.Batch

The pages of all documents in a directory.

* `Pending`: what is still to be visited, in the order of the visit.
* `nextFile`: the next regular file. The entries of a directory are listed when the visit comes to it, in byte
  order of their names; links below the directory are not followed.
* `processFile`: the page of one file, unless it is ignored or no document.
* `processDirectory`: all pages, up to the first failure.
-/

namespace Folio

/-- An entry that is still to be visited: its path, and the names that lead to it from the directory. -/
structure Pending where
  path : Path
  names : List Name
  deriving Repr

/-- More files than there are paths that lead to one: each of them is a byte sequence of a limited length. -/
@[irreducible] def maxFiles : Nat :=
  Nat.pow 257 (FileSystem.maxPathLength + FileSystem.maxNameLength + 1)

def Pending.relative (p : Pending) : Path :=
  ⟨Path.unsplit p.names⟩

def Pending.entries (p : Pending) (names : List Name) : List Pending :=
  names.map fun name => ⟨p.path.join ⟨name⟩, p.names ++ [name]⟩

/-- What an entry is. A link is followed for the directory of the whole run only. For the entries below it this is
listed with their names, so that their paths may be of any length. -/
def entryKind (fs : FileSystem) (p : Pending) : Except IoError (Location × Entry) :=
  if p.names = [] then fs.locateExisting true p.path
  else
    match fs.resolve false p.path with
    | .error e => .error e
    | .ok l =>
      match fs.get? l with
      | none => .error .notFound
      | some entry => .ok (l, entry)

/-- The failure of a visit at an entry. -/
def Pending.failure (p : Pending) (cause : IoError) : IoError :=
  .other ("IO error for operation on " ++ p.path.display ++ ": " ++ cause.message)

/-- The next regular file among the pending entries, and what is pending after it. At most `n` entries are
visited. -/
def nextFile (fs : FileSystem) : Nat → List Pending → Except IoError (Option (Pending × List Pending))
  | 0, _ => .error .nameTooLong
  | _ + 1, [] => .ok none
  | n + 1, p :: ps =>
    match entryKind fs p with
    | .error e => .error (p.failure e)
    | .ok (_, .file _) => .ok (some (p, ps))
    | .ok (l, .directory) =>
      match FileSystem.checkPath p.path with
      | .error e => .error (p.failure e)
      | .ok () => nextFile fs n (p.entries (fs.children l) ++ ps)
    | .ok (_, .link _) => nextFile fs n ps

/-- What a run knows of the pages written so far: the places of the pages with their documents, last one first. -/
abbrev Written := List (Path × Path)

/-- The document that a page is already made from. -/
def Written.source? (written : Written) (target : Path) : Option Path :=
  (written.find? fun p => p.1.sameComponents target).map (·.2)

/-- The choices of a run, and what follows from them. -/
structure Batch where
  renderer : Renderer
  options : DirectoryOptions
  ignored : IgnoreSet

namespace Batch

def kind? (b : Batch) (path : Path) : Option DocumentKind :=
  DocumentKind.ofPath? (effectiveExtensions b.options.scriptExtensions) path

/-- Whether a file is left out without a word on its kind. -/
def skips (b : Batch) (relative : Path) : Bool :=
  relative == IgnoreSet.fileName || b.ignored.ignores relative

def target (b : Batch) (relative : Path) : Path :=
  targetPath relative b.options.outputDir b.options.outputFormat

def writePage (b : Batch) (kind : DocumentKind) (source target : Path) : Action Unit := do
  match target.parent? with
  | some parent => Action.makeDirectories parent
  | none => pure ()
  let content ← Content.produce kind b.options.settings source
  renderToFile b.renderer b.options.template b.options.layoutRoots content target
  Action.report (.generated target)

/-- Makes the page of a file, unless it is left out: what is written after it. -/
def processFile (b : Batch) (written : Written) (file : Pending) : Action Written := do
  if b.skips file.relative then
    Action.report (.ignored file.relative)
    return written
  else
    match b.kind? file.path with
    | none =>
      Action.report (.unsupported file.relative)
      return written
    | some kind =>
      let target := b.target file.relative
      match written.source? target with
      | some first =>
        Action.fail (.document file.path.display
          ("output '" ++ target.display ++ "' is already generated from '" ++ first.display ++ "'"))
      | none =>
        b.writePage kind file.path target
        return (target, file.path) :: written

/-- Makes the pages of all pending files. More than `n` files are too many. -/
def processAll (b : Batch) : Nat → Written → List Pending → Action Written
  | 0, _, _ => Action.fail (.io .nameTooLong)
  | n + 1, written, pending => do
    match ← Action.ask fun fs => nextFile fs (fs.entries.length + 2) pending with
    | .error e => Action.fail (.io e)
    | .ok none => return written
    | .ok (some (file, pending)) =>
      let written ← b.processFile written file
      b.processAll n written pending

end Batch

/-- Makes the pages of all documents in a directory: their places, in the order of the visit. -/
def processDirectory (renderer : Renderer) (input : Path) (options : DirectoryOptions) : Action (List Path) := do
  if ← Action.ask fun fs => fs.isDirectory input then
    let ignored ← IgnoreSet.load (input.join IgnoreSet.fileName)
    let batch : Batch := ⟨renderer, options, ignored⟩
    let written ← batch.processAll maxFiles [] [⟨input, []⟩]
    return written.reverse.map (·.1)
  else Action.fail (.document input.display "not a directory")

end Folio

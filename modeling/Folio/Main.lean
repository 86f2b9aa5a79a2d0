import Folio.Program
import Folio.Template.Engine

/-!
# Folio.Main

The program on the command line.

* `readTree`, `readAll`: the files that a run can see: those below the working directory, and those beside the
  paths in the arguments.
* `writeChanges`: brings the files up to date after a run.
* `main`: one run.
-/

namespace Folio
namespace Main

/-- The text of a location as an absolute path. -/
def pathText (l : Location) : String :=
  (Path.mk (Path.slash :: Path.unsplit l)).display

def locationOf (path : String) : Location :=
  (Path.split (Text.encode path)).filter (· != [])

/-- The target of a link. One that leads nowhere gets none. -/
def readLink (path : String) : IO Path := do
  try return Path.ofString (← IO.FS.realPath path).toString
  catch _ => return ⟨[]⟩

/-- Adds an entry and all below it. What cannot be read is left out. -/
partial def readTree (fs : FileSystem) (path : String) : IO FileSystem := do
  let l := locationOf path
  let real ← IO.FS.realPath path
  if ← real.isDir then
    let mut fs := fs.put l .directory
    for entry in ← real.readDir do
      let child := path ++ "/" ++ entry.fileName
      match (← entry.path.symlinkMetadata).type with
      | .symlink => fs := fs.put (locationOf child) (.link (← readLink child))
      | .dir => fs ← readTree fs child
      | .file => fs := fs.put (locationOf child) (.file (← IO.FS.readBinFile child).toList)
      | .other => pure ()
    return fs
  else return fs.put l (.file (← IO.FS.readBinFile path).toList)

/-- Adds the directories that lead to a location. -/
def addParents (fs : FileSystem) (l : Location) : FileSystem :=
  (List.range l.length).foldl (fun fs n =>
    if (fs.get? (l.take n)).isSome then fs else fs.put (l.take n) .directory) fs

/-- Adds the directory that a path in the arguments names, or the one that it lies in. -/
def readBeside (fs : FileSystem) (word : String) : IO FileSystem := do
  let p := Path.ofString word
  for candidate in [p, p.directory] do
    try
      let real ← IO.FS.realPath candidate.display
      if ← real.isDir then
        let l := locationOf real.toString
        if (fs.get? l).isSome then return fs
        return ← readTree (addParents fs l) real.toString
    catch _ => pure ()
  return fs

/-- The files that a run can see. -/
def readAll (arguments : List String) : IO FileSystem := do
  let current := (← IO.FS.realPath ".").toString
  let l := locationOf current
  let fs ← readTree (addParents ⟨[], l⟩ l) current
  arguments.foldlM readBeside fs

/-- Makes the directories and files that differ after a run. -/
def writeChanges (before after : FileSystem) : IO Unit :=
  for (l, entry) in after.entries do
    if before.get? l != some entry then
      match entry with
      | .directory => IO.FS.createDirAll (pathText l)
      | .file bytes => IO.FS.writeBinFile (pathText l) ⟨bytes.toArray⟩
      | .link _ => pure ()

end Main
end Folio

/-- One run: the log goes to the error output, and its exit status is that of the outcome. -/
def main (arguments : List String) : IO UInt32 := do
  let before ← Folio.Main.readAll arguments
  let (outcome, log, after) := Folio.Program.run Folio.Template.engine arguments before
  Folio.Main.writeChanges before after
  let err ← IO.getStderr
  for line in log do
    err.putStrLn line
  IO.print outcome.output
  if !outcome.complaint.isEmpty then err.putStrLn outcome.complaint
  return UInt32.ofNat outcome.code

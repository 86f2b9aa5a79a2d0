import Folio.Error
import Folio.FileSystem.Access
import Folio.Notice

/-!
# Folio.World

Work on the file system.

* `World`: the file system, and what has been reported so far.
* `Action`: work with a result or an error. What it did before an error stays done.
* `Action.report`, `Action.readText`, `Action.writeText`, `Action.makeDirectories`: the single steps.
-/

namespace Folio

/-- The file system and the notices so far, first one first. -/
structure World where
  fs : FileSystem
  notices : List Notice
  deriving Inhabited

/-- Work that may change the world. -/
def Action (α : Type) : Type :=
  World → Except Error α × World

namespace Action

def pure {α : Type} (x : α) : Action α :=
  fun w => (.ok x, w)

def bind {α β : Type} (a : Action α) (f : α → Action β) : Action β :=
  fun w =>
    match a w with
    | (.ok x, w) => f x w
    | (.error e, w) => (.error e, w)

instance : Monad Action where
  pure := pure
  bind := bind

def fail {α : Type} (e : Error) : Action α :=
  fun w => (.error e, w)

/-- A result found without work. -/
def ofExcept {α : Type} (r : Except Error α) : Action α :=
  fun w => (r, w)

def report (n : Notice) : Action Unit :=
  fun w => (.ok (), { w with notices := w.notices ++ [n] })

def ask {α : Type} (question : FileSystem → α) : Action α :=
  fun w => (.ok (question w.fs), w)

def readText (p : Path) : Action String :=
  fun w =>
    match w.fs.readText p with
    | .ok text => (.ok text, w)
    | .error e => (.error (.io e), w)

/-- Makes or replaces a file. -/
def writeText (p : Path) (text : String) : Action Unit :=
  fun w =>
    match w.fs.write p (Text.encode text) with
    | .ok fs => (.ok (), { w with fs })
    | .error e => (.error (.io e), w)

/-- Makes a directory and all that lead to it. -/
def makeDirectories (p : Path) : Action Unit :=
  fun w =>
    match w.fs.makeDirectories p with
    | (fs, .ok ()) => (.ok (), { w with fs })
    | (fs, .error e) => (.error (.io e), { w with fs })

end Action

end Folio

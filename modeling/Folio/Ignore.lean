import Folio.Glob
import Folio.Text.Blank
import Folio.Text.Lines
import Folio.World

/-!
# Folio.Ignore

The files of a directory that get no page.

* `IgnoreSet`: patterns; a path is ignored when one of them matches it.
* `IgnoreSet.ofText`: the default patterns and those of an ignore file, one on each line. Blank lines and lines
  that begin with a number sign count for nothing.
-/

namespace Folio

structure IgnoreSet where
  globs : List Glob

namespace IgnoreSet

def fileName : Path := Path.ofString ".litdocignore"

/-- What is ignored in every directory. -/
def defaultPatterns : List String :=
  ["**/.git/**", "**/.DS_Store", "litdoc.json", "litdoc.yml", "litdoc.yaml"]

/-- The pattern with a text. -/
def compile (pattern : String) : Except Error Glob :=
  match Glob.parse pattern with
  | .ok glob => .ok glob
  | .error e =>
    .error (.ignore ("invalid pattern '" ++ pattern ++ "': error parsing glob '" ++ pattern ++ "': " ++ e.message))

/-- The patterns with these texts, in order. -/
def compileAll : List String → Except Error (List Glob)
  | [] => .ok []
  | pattern :: patterns =>
    match compile pattern with
    | .error e => .error e
    | .ok glob =>
      match compileAll patterns with
      | .error e => .error e
      | .ok globs => .ok (glob :: globs)

/-- Whether a trimmed line of an ignore file is a pattern. -/
def isPattern (line : List Char) : Bool :=
  match line with
  | [] => false
  | c :: _ => c != '#'

def patterns (text : String) : List String :=
  (((Text.lines text.toList).map Text.trim).filter isPattern).map String.ofList

/-- The set for an ignore file with this text; for none, the default patterns alone. -/
def ofText (text : Option String) : Except Error IgnoreSet :=
  match compileAll (defaultPatterns ++ (text.map patterns).getD []) with
  | .error e => .error e
  | .ok globs => .ok ⟨globs⟩

/-- Whether a path is ignored. -/
def ignores (set : IgnoreSet) (path : Path) : Bool :=
  set.globs.any fun glob => glob.matchesPath path

/-- The set for an ignore file. A file that cannot be read counts as none. -/
def load (path : Path) : Action IgnoreSet := do
  match ← Action.ask fun fs => fs.readText path with
  | .ok text => Action.ofExcept (ofText (some text))
  | .error _ =>
    Action.report (.noIgnoreFile path)
    Action.ofExcept (ofText none)

end IgnoreSet

end Folio

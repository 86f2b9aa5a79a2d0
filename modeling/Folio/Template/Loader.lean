import Folio.FileSystem.Access
import Folio.Template.Parser

/-!
# Folio.Template.Loader

Templates by their names.

* `locate?`: the file of a template in a directory. A name with a part that begins with a dot has none.
* `findSource`: the text of the first such file that exists.
* `load`: the template with a name.
-/

namespace Folio
namespace Template

/-- The parts of a name between slashes. -/
def nameParts (name : String) : List Name :=
  Path.split (Text.encode name)

/-- Whether a part of a name may lead to a file. -/
def isSafePart (part : Name) : Bool :=
  part.head? != some Path.dot && !part.contains 0x5C

def locate? (dir : Path) (name : String) : Option Path :=
  let parts := nameParts name
  if parts.all isSafePart then some (parts.foldl (fun p part => p.join ⟨part⟩) dir) else none

/-- The text of a template: that in the first directory which has it. -/
def findSource (fs : FileSystem) (name : String) : List Path → Except TemplateFault String
  | [] => .error .templateNotFound
  | dir :: dirs =>
    match locate? dir name with
    | none => findSource fs name dirs
    | some p =>
      match fs.readText p with
      | .ok text => .ok text
      | .error .notFound => findSource fs name dirs
      | .error _ => .error .invalidOperation

/-- The template with a name. -/
def load (fs : FileSystem) (dirs : List Path) (name : String) : Except TemplateFault Document :=
  match findSource fs name dirs with
  | .error fault => .error fault
  | .ok source => Document.parse name source

end Template
end Folio

import Folio.Rendering
import Folio.Template.Execution
import Folio.Template.Loader

/-!
# Folio.Template.Engine

The engine that makes pages from templates.

* `run`: the text of a template with a context.
* `engine`: the renderer that looks for its templates in the file system.
-/

namespace Folio
namespace Template

/-- More jobs than are ever begun in each other: each counts as a scope, but those of templates that others inherit
from. -/
def jobBound : Nat := Nat.pow 2 60

def Machine.initial (document : Document) (context : Value) : Machine where
  frames := [{ ground := .parts context }]
  blocks := addBlocks [] document.blocks
  loaded := [document.name]

/-- The text of a template with a context. -/
def run (load : Loader) (bound : Nat) (document : Document) (context : Value) : Except TemplateFault String :=
  match work load bound (.statements document.body) (Machine.initial document context) with
  | .error fault => .error fault
  | .ok (_, m) => .ok (String.join m.written.reverse)

/-- The renderer that looks for templates in the directories of a call. -/
def engine : Renderer := fun fs call =>
  let load := load fs call.searchDirs
  match load call.name with
  | .error fault => .error (.template fault)
  | .ok document =>
    match run load jobBound document (Value.ofJson call.context) with
    | .error fault => .error (.template fault)
    | .ok text => .ok text

end Template
end Folio

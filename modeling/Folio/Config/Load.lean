import Folio.Config.Text
import Folio.World

/-!
# Folio.Config.Load

The configuration file of a project.

* `findText`: the text of the first of some files that exists in a directory.
* `load`: the configuration of a project directory.
-/

namespace Folio
namespace ProjectConfig

/-- The names of configuration files, in the order in which they are looked for. -/
def fileNames : List String :=
  ["litdoc.json", "litdoc.yml", "litdoc.yaml"]

/-- The text of the first of these files that exists, if there is any. -/
def findText (dir : Path) : List String → Action (Option String)
  | [] => do
    Action.report (.noConfig dir)
    return none
  | name :: names => do
    let path := dir.join (Path.ofString name)
    if ← Action.ask fun fs => fs.pathExists path then
      Action.report (.loadingConfig path)
      let text ← Action.readText path
      return some text
    else findText dir names

/-- The configuration of a project directory. Its relative paths are taken from there. -/
def load (dir : Path) : Action ProjectConfig := do
  match ← findText dir fileNames with
  | none => return default
  | some text =>
    let config ← Action.ofExcept (parse text)
    return config.inDirectory dir

end ProjectConfig
end Folio

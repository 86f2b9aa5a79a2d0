import Folio.Content
import Folio.Placeholder

/-!
# Folio.Rendering

The text of a page, made from its parameters.

* `isEngineTemplate`, `Strategy.choose`: which templates are for the engine.
* `Renderer`: the engine, as a function of the file system.
* `render`: the text of a page.
-/

namespace Folio

/-- The end of the names of engine templates, in any ASCII case. -/
def engineSuffix : String := ".j2"

/-- Whether a template is for the engine, by its name. -/
def isEngineTemplate (template : Path) : Bool :=
  match template.fileName?.bind Text.decode? with
  | none => false
  | some name => engineSuffix.toList.isSuffixOf (Text.asciiLower name).toList

def Strategy.choose : Option Path → Strategy
  | none => .bare
  | some template => if isEngineTemplate template then .engine template else .plain template

/-- The text of a call of the engine. It depends on the files only. -/
abbrev Renderer :=
  FileSystem → RenderCall → Except Error String

def ParameterSet.require (set : ParameterSet) (name : String) : Except Error String :=
  match set.get? name with
  | some value => .ok value
  | none => .error (.missingParameter name)

/-- The page without a template: the document, and the tooltips below it. -/
def barePage (content : Content) : Except Error String :=
  match content.parameters.require content.tag with
  | .error e => .error e
  | .ok document =>
    match content.parameters.require Content.tooltipsName with
    | .error e => .error e
    | .ok tooltips => .ok (document ++ "\n\n" ++ tooltips)

/-- The page by a plain template, or without one. -/
def plainPage (template : Option String) (content : Content) : Except Error String :=
  match template with
  | some template => .ok (Placeholder.substitute content.parameters template)
  | none => barePage content

/-- The name of the value that an engine template finds the parameters in. -/
def contextName : String := "properties"

/-- The compact text of a set, as an object. -/
def ParameterSet.serialize (set : ParameterSet) : String :=
  let member := fun (p : String × String) => Json.quote p.1 ++ ':' :: Json.quote p.2
  String.ofList ("\x7b".toList ++ Json.commaSeparated (set.pairs.map member) ++ "\x7d".toList)

def ParameterSet.toJson (set : ParameterSet) : Json :=
  .obj (set.pairs.map fun p => (p.1, .str p.2))

/-- The call of the engine for a template. Templates are looked for beside it, and then in the layout roots. -/
def renderCall (template : Path) (name : String) (layoutRoots : List Path) (content : Content) : RenderCall where
  searchDirs := template.directory :: layoutRoots
  name := name
  context := .obj [(contextName, content.parameters.toJson)]

def callRenderer (renderer : Renderer) (call : RenderCall) : Action String := do
  Action.report (.rendering call)
  let result ← Action.ask fun fs => renderer fs call
  Action.ofExcept result

/-- The text of a page. -/
def render (renderer : Renderer) (template : Option Path) (layoutRoots : List Path) (content : Content) :
    Action String := do
  let strategy := Strategy.choose template
  Action.report (.chosen strategy)
  match strategy with
  | .engine template =>
    match template.fileName?.bind Text.decode? with
    | none => Action.fail (.config ("invalid template path: " ++ template.display))
    | some name => callRenderer renderer (renderCall template name layoutRoots content)
  | .plain template =>
    let text ← Action.readText template
    Action.ofExcept (plainPage (some text) content)
  | .bare => Action.ofExcept (plainPage none content)

/-- Makes or replaces the file of a page. -/
def writeOutput (output : Path) (text : String) : Action Unit := do
  Action.report (.writing output)
  Action.writeText output text

def renderToFile (renderer : Renderer) (template : Option Path) (layoutRoots : List Path) (content : Content)
    (output : Path) : Action Unit := do
  let text ← render renderer template layoutRoots content
  writeOutput output text

end Folio

import Folio.Format
import Folio.Parameters
import Folio.World
import Folio.Text.Blank
import Folio.Markdown.Document
import Folio.Html.Writer
import Folio.Latex.Writer

/-!
# Folio.Content

The parameters of a page, made from a source document.

* `fragment`: the text of a stream of markdown events in a format.
* `firstHeading?`: the title a document gives itself.
* `Content.generated`: the parameters that every page has.
* `Content.produce`: the parameters of the page of a document. Replacements come last and may replace any of
  them.
-/

namespace Folio

open Markdown

/-- What the making of parameters depends on. -/
structure Settings where
  format : OutputFormat
  includeSource : Bool
  replacements : ParameterSet

/-- The parameters of a page, and the name of the one that holds the document. -/
structure Content where
  tag : String
  parameters : ParameterSet

def fragment : OutputFormat → List Event → String
  | .html, es => Html.write es
  | .latex, es => Latex.write "" es

/-- The events after the start of the first heading. -/
def afterHeadingStart? : List Event → Option (List Event)
  | [] => none
  | .opened (.heading _) :: es => some es
  | _ :: es => afterHeadingStart? es

/-- The texts and codes of a heading, up to its end. -/
def headingText : List Event → List Char
  | [] => []
  | .closed (.heading _) :: _ => []
  | .text text :: es => text.toList ++ headingText es
  | .code text :: es => text.toList ++ headingText es
  | _ :: es => headingText es

/-- The text of the first heading without the blanks around it, if there is any. -/
def firstHeading? (es : List Event) : Option String :=
  match afterHeadingStart? es with
  | none => none
  | some es =>
    match Text.trim (headingText es) with
    | [] => none
    | title => some (String.ofList title)

namespace Content

/-- The parameter that holds the document. -/
def documentTag : String := "document"

def tooltipsName : String := "tooltips"

def titleName : String := "page-title"

def sourceFileName : String := "page-source"

def sourceName : String := "source"

def stem (source : Path) : Except Error String :=
  match source.stem?.bind Text.decode? with
  | some stem => .ok stem
  | none => .error (.document source.display "file name is not valid UTF-8")

/-- The file name of a document; empty where it is no text. -/
def fileName (source : Path) : String :=
  (source.fileName?.bind Text.decode?).getD ""

/-- The extension of a document; empty where it is no text. -/
def language (source : Path) : String :=
  (source.extension?.bind Text.decode?).getD ""

/-- The events of a script: one listing, labelled with the extension of the file. -/
def scriptEvents (source : Path) (text : String) : List Event :=
  [.opened (.codeBlock (.fenced (language source))), .text text, .closed .codeBlock]

def documentEvents : DocumentKind → Path → String → List Event
  | .markdown, _, text => events text
  | .script, source, text => scriptEvents source text

/-- The title of a document: its first heading, or else the stem of its file name. A script has no headings. -/
def title (kind : DocumentKind) (source : Path) (es : List Event) : Except Error String :=
  match kind with
  | .markdown =>
    match firstHeading? es with
    | some title => .ok title
    | none => stem source
  | .script => stem source

/-- The pairs that every page has. -/
def generated (settings : Settings) (source : Path) (title page text : String) : List (String × String) :=
  [(titleName, title), (sourceFileName, fileName source), (documentTag, page), (tooltipsName, "")]
    ++ (if settings.includeSource then [(sourceName, text)] else [])

/-- The content for a document with this text. -/
def ofText (kind : DocumentKind) (settings : Settings) (source : Path) (text : String) :
    Except Error Content :=
  let es := documentEvents kind source text
  match title kind source es with
  | .error e => .error e
  | .ok title =>
    let pairs := generated settings source title (fragment settings.format es) text
    .ok ⟨documentTag, (ParameterSet.ofPairs pairs).insertAll settings.replacements.pairs⟩

/-- The content for a document. -/
def produce (kind : DocumentKind) (settings : Settings) (source : Path) : Action Content := do
  let text ← Action.readText source
  Action.report (.reading kind source)
  Action.ofExcept (ofText kind settings source text)

end Content

end Folio

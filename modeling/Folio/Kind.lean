import Folio.Notice
import Folio.Text.Case

/-!
# Folio.Kind

Documents by their file names.

* `DocumentKind.ofPath?`: markdown or a script, by the extension and without regard to ASCII case.
-/

namespace Folio

def markdownExtensions : List String :=
  ["md", "markdown"]

/-- The extensions of scripts where none are chosen. -/
def defaultScriptExtensions : List String :=
  ["rs"]

/-- The chosen extensions without the dots before them, or the default. -/
def effectiveExtensions (chosen : List String) : List String :=
  if chosen.isEmpty then defaultScriptExtensions
  else chosen.map fun e => String.ofList (e.toList.dropWhile (· == '.'))

/-- The extension of a path in lower case, if it is text. -/
def extensionText? (path : Path) : Option String :=
  (path.extension?.bind Text.decode?).map Text.asciiLower

/-- The kind of a document; none for other files. -/
def DocumentKind.ofPath? (scriptExtensions : List String) (path : Path) : Option DocumentKind :=
  match extensionText? path with
  | none => none
  | some e =>
    if markdownExtensions.contains e then some .markdown
    else if scriptExtensions.any fun s => Text.asciiLower s == e then some .script
    else none

end Folio

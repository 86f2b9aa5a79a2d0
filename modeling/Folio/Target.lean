import Folio.Format
import Folio.Path

/-!
# Folio.Target

Where pages are written.

* `defaultOutput`: beside the document, unless a place is given.
* `targetPath`: below the output directory, at the place that the document has in the input directory.
-/

namespace Folio

/-- The extension of pages in a format, as bytes. -/
def OutputFormat.extensionName (format : OutputFormat) : Name :=
  Text.encode format.extension

def defaultOutput (explicit : Option Path) (input : Path) (format : Option OutputFormat) : Path :=
  match explicit with
  | some path => path
  | none => input.withExtension (format.getD OutputFormat.default).extensionName

/-- The place of the page of a document in a directory. -/
def targetPath (relative outputDir : Path) (format : OutputFormat) : Path :=
  (outputDir.join relative).withExtension format.extensionName

end Folio

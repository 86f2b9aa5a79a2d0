import Folio.Content

/-!
# Folio.Options

What can be chosen for a page, or for all pages of a directory.

* `Choices`: what is chosen for one document and for a directory alike.
* `DocumentOptions`, `DirectoryOptions`: the choices, with the place of the output.
-/

namespace Folio

structure Choices where
  template : Option Path
  format : Option OutputFormat
  replacements : ParameterSet
  layoutRoots : List Path
  includeSource : Option Bool

namespace Choices

def none : Choices := ⟨.none, .none, ParameterSet.empty, [], .none⟩

/-- The format that is chosen, or the default. -/
def outputFormat (c : Choices) : OutputFormat :=
  c.format.getD OutputFormat.default

def settings (c : Choices) : Settings where
  format := c.outputFormat
  includeSource := c.includeSource.getD false
  replacements := c.replacements

end Choices

structure DocumentOptions extends Choices where
  output : Option Path

structure DirectoryOptions extends Choices where
  outputDir : Path
  scriptExtensions : List String

end Folio

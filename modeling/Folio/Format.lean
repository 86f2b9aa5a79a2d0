/-!
# Folio.Format

The formats a page is written in.
-/

namespace Folio

inductive OutputFormat where
  | html
  | latex
  deriving DecidableEq, Repr

namespace OutputFormat

/-- The format of a page for which none is chosen. -/
def default : OutputFormat := .html

def extension : OutputFormat → String
  | .html => "html"
  | .latex => "tex"

/-- The word that names a format in configuration files and on the command line. -/
def keyword : OutputFormat → String
  | .html => "html"
  | .latex => "latex"

def ofKeyword? (word : String) : Option OutputFormat :=
  if word = "html" then some .html else if word = "latex" then some .latex else none

end OutputFormat

end Folio

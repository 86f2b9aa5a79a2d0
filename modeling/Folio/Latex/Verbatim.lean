import Folio.Text.Lines
import Folio.Text.Search
import Folio.Latex.Escape

/-!
# Folio.Latex.Verbatim

Code listings.

* `listing`: code in a verbatim environment. The first end mark closes such an environment, so a line of the
  code that holds the mark is set as typewriter text between two environments.
-/

namespace Folio
namespace Latex

def verbatimBegin : List Char :=
  "\\begin\x7bverbatim\x7d".toList

def verbatimEnd : List Char :=
  "\\end\x7bverbatim\x7d".toList

def listingLine (line : List Char) : List Char :=
  if Text.contains verbatimEnd line then
    verbatimEnd ++ "\n\\noindent\\texttt\x7b".toList ++ line.flatMap escapeChar ++ "\x7d\n".toList
      ++ verbatimBegin ++ ['\n']
  else line ++ ['\n']

/-- The listing of a code text. -/
def listing (code : List Char) : List Char :=
  verbatimBegin ++ ['\n'] ++ (Text.lines code).flatMap listingLine ++ verbatimEnd ++ "\n\n".toList

end Latex
end Folio

/-!
# Folio.Latex.Escape

Text and link targets for LaTeX.

* `escape`: every character with a meaning of its own becomes an escape sequence.
* `escapeUrl`: a backslash stands before each character that would end or break the argument of a link.
-/

namespace Folio
namespace Latex

def escapeChar (c : Char) : List Char :=
  match c with
  | '\\' => "\\textbackslash\x7b\x7d".toList
  | '~' => "\\textasciitilde\x7b\x7d".toList
  | '^' => "\\textasciicircum\x7b\x7d".toList
  | '{' | '}' | '$' | '&' | '#' | '%' | '_' => ['\\', c]
  | c => [c]

def escape (text : String) : String :=
  String.ofList (text.toList.flatMap escapeChar)

def escapeUrlChar (c : Char) : List Char :=
  match c with
  | '\\' | '%' | '#' | '{' | '}' => ['\\', c]
  | c => [c]

def escapeUrl (url : String) : String :=
  String.ofList (url.toList.flatMap escapeUrlChar)

end Latex
end Folio

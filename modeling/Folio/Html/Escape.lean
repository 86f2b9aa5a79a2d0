import Folio.Text.Utf8

/-!
# Folio.Html.Escape

Text, attribute values and link targets for HTML.
-/

namespace Folio
namespace Html

def escapeTextChar (c : Char) : List Char :=
  match c with
  | '&' => "&amp;".toList
  | '<' => "&lt;".toList
  | '>' => "&gt;".toList
  | c => [c]

def escapeChar (c : Char) : List Char :=
  match c with
  | '"' => "&quot;".toList
  | c => escapeTextChar c

/-- The characters of a link target that stand for themselves. -/
def isUrlSafe (c : Char) : Bool :=
  c.isAlphanum || "!#$%()*+,-./:;=?@_~".toList.contains c

def hexDigit (n : Nat) : Char :=
  if n < 10 then Char.ofNat (48 + n) else Char.ofNat (55 + n)

def percent (b : UInt8) : List Char :=
  ['%', hexDigit (b.toNat / 16), hexDigit (b.toNat % 16)]

def escapeUrlChar (c : Char) : List Char :=
  match c with
  | '&' => "&amp;".toList
  | '\'' => "&#x27;".toList
  | c => if isUrlSafe c then [c] else (Text.encode (String.singleton c)).flatMap percent

def escapeText (text : String) : List Char :=
  text.toList.flatMap escapeTextChar

def escape (text : String) : List Char :=
  text.toList.flatMap escapeChar

def escapeUrl (url : String) : List Char :=
  url.toList.flatMap escapeUrlChar

end Html
end Folio

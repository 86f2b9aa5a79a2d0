import Folio.Json.Printer
import Folio.Template.Access

/-!
# Folio.Template.Escape

The form in which values are printed.

* `Escaping`: none, HTML or JSON. `Escaping.ofValue` is the one that a value asks for.
* `Value.escaped`: the text of a value in that form. A safe text is left as it is.
-/

namespace Folio
namespace Template

inductive Escaping where
  | none
  | html
  | json
  deriving DecidableEq, Repr

def escapeHtmlChar (c : Char) : List Char :=
  match c with
  | '<' => "&lt;".toList
  | '>' => "&gt;".toList
  | '&' => "&amp;".toList
  | '"' => "&quot;".toList
  | '\'' => "&#x27;".toList
  | '/' => "&#x2f;".toList
  | c => [c]

def escapeHtml (s : String) : String :=
  String.ofList (s.toList.flatMap escapeHtmlChar)

/-- The form of one character of JSON inside of HTML. -/
def escapeJsonChar (c : Char) : List Char :=
  match c with
  | '<' => "\\u003c".toList
  | '>' => "\\u003e".toList
  | '&' => "\\u0026".toList
  | '\'' => "\\u0027".toList
  | c => [c]

def Escaping.ofValue (v : Value) : Result Escaping :=
  match v with
  | .str "html" _ => .ok .html
  | .str "json" _ => .ok .json
  | .str "none" _ => .ok .none
  | .str _ _ => .error .invalidOperation
  | v => .ok (if v.equal (.bool true) then .html else .none)

namespace Value

/-- A text that was written with some escaping. It is safe, unless that is none. -/
def written (e : Escaping) (s : String) : Value :=
  .str s (e != .none)

/-- Whether the text of a value has nothing to escape. -/
def isPlain (v : Value) : Bool :=
  match v.kind with
  | .undefined => true
  | .none => true
  | .bool => true
  | .number => true
  | _ => false

def escaped (spaces : Spaces) (e : Escaping) (v : Value) : Result String :=
  match e, v with
  | _, .str s true => .ok s
  | .none, v => .ok (v.printed spaces)
  | .html, v => .ok (if v.isPlain then v.printed spaces else escapeHtml (v.printed spaces))
  | .json, v =>
    match (v.settle spaces).toJson? with
    | some value => .ok (String.ofList value.compact)
    | Option.none => .error .badSerialization

def emitted (spaces : Spaces) (e : Escaping) (v : Value) : Result String :=
  match v.defined with
  | .error fault => .error fault
  | .ok v => v.escaped spaces e

end Value
end Template
end Folio

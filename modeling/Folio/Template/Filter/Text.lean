import Folio.Template.Arguments
import Folio.Template.Arithmetic
import Folio.Text.Blank
import Folio.Text.Case
import Folio.Text.Lines
import Folio.Text.Punctuation
import Folio.Html.Escape

/-!
# Folio.Template.Filter.Text

Filters on texts.

* `textFilter?`: the filter with a name.
-/

namespace Folio
namespace Template

/-- A calculation with a value and some more arguments. -/
abbrev Filter := Setting → List Value → Result Value

namespace Filter

/-- Each word with a capital letter at its start and small letters after it. -/
def titleChars : Bool → List Char → List Char
  | _, [] => []
  | atStart, c :: cs =>
    if Text.isAsciiPunctuation c || Text.isBlank c then c :: titleChars true cs
    else (if atStart then Text.upperChar c else Text.lowerChar c) ++ titleChars false cs

def capitalizeChars : List Char → List Char
  | [] => []
  | c :: cs => Text.upperChar c ++ Text.toLower cs

/-- The text with a value in each place of a pattern. An empty one has its places around all characters. -/
def replaceChars (pattern value text : List Char) : List Char :=
  if pattern.isEmpty then value ++ text.flatMap (· :: value) else Text.replaceAll pattern value text

def trimChars (removed : Char → Bool) (cs : List Char) : List Char :=
  ((cs.dropWhile removed).reverse.dropWhile removed).reverse

/-- The parts between the places of a pattern that is not empty. `part` is what is read of the present one. -/
def partsBetween (pattern : List Char) (part : List Char) : List Char → List (List Char)
  | [] => [part.reverse]
  | c :: cs =>
    if pattern.isPrefixOf (c :: cs) then
      part.reverse :: partsBetween pattern [] (cs.drop (pattern.length - 1))
    else partsBetween pattern (c :: part) cs
termination_by cs => cs.length
decreasing_by
  all_goals simp only [List.length_cons, List.length_drop]
  all_goals omega

/-- The parts between the places of a pattern. An empty one has its places around all characters. -/
def splitChars (pattern text : List Char) : List (List Char) :=
  if pattern.isEmpty then [] :: text.map ([·]) ++ [[]] else partsBetween pattern [] text

/-- Parts with a separator between them. -/
def joinChars (separator : List Char) : List (List Char) → List Char
  | [] => []
  | [part] => part
  | part :: parts => part ++ separator ++ joinChars separator parts

/-- At most so many parts; the last one holds all that is left. -/
def atMost (count : Nat) (pattern : List Char) (parts : List (List Char)) : List (List Char) :=
  if parts.length ≤ count then parts
  else parts.take (count - 1) ++ [joinChars pattern (parts.drop (count - 1))]

/-- The words of a text, at most `n` of them. -/
def words : Nat → List Char → List (List Char)
  | 0, _ => []
  | n + 1, cs =>
    match cs.dropWhile Text.isBlank with
    | [] => []
    | c :: cs =>
      ((c :: cs).takeWhile fun d => !Text.isBlank d) :: words n ((c :: cs).dropWhile fun d => !Text.isBlank d)

/-- At most `n` words. The last one holds all that is left, and blanks at the end count as one more. -/
def wordsAtMost : Nat → List Char → List (List Char)
  | 0, _ => []
  | n + 1, cs =>
    match cs.dropWhile Text.isBlank with
    | [] => if cs.isEmpty then [] else [cs]
    | c :: rest =>
      if n = 0 then [c :: rest]
      else
        let word := (c :: rest).takeWhile fun d => !Text.isBlank d
        match (c :: rest).dropWhile fun d => !Text.isBlank d with
        | [] => [word]
        | after => word :: wordsAtMost n after

def splitText (text : List Char) (pattern : Option (List Char)) (limit : Option Nat) : List (List Char) :=
  match pattern, limit with
  | none, none => words (text.length + 1) text
  | none, some count => wordsAtMost count text
  | some pattern, none => splitChars pattern text
  | some pattern, some count => atMost count pattern (splitChars pattern text)

def lazyTexts (parts : List (List Char)) : Value :=
  .iterator (parts.map fun part => Value.text (String.ofList part)) false

/-- The text without one line end at its end. -/
def withoutLineEnd (cs : List Char) : List Char :=
  match cs.reverse with
  | '\n' :: '\r' :: rest => rest.reverse
  | '\n' :: rest => rest.reverse
  | '\r' :: rest => rest.reverse
  | _ => cs

def indentLine (width : Nat) (blankLines : Bool) (line : List Char) : List Char :=
  if line.isEmpty && !blankLines then [] else List.replicate width ' ' ++ line

/-- The lines with blanks before them. -/
def indentChars (width : Nat) (firstLine blankLines : Bool) (text : List Char) : List Char :=
  match Value.splitAt '\n' (withoutLineEnd text) with
  | [] => []
  | first :: lines =>
    let first := if firstLine then indentLine width blankLines first else first
    withoutLineEnd (joinChars ['\n'] (first :: lines.map (indentLine width blankLines)) ++ ['\n'])

/-- The characters of an address that stand for themselves. -/
def isAddressSafe (c : Char) : Bool :=
  c.isAlphanum || "/.-_".toList.contains c

def encodeAddress (s : String) : String :=
  String.ofList <| s.toList.flatMap fun c =>
    if isAddressSafe c then [c] else (Text.encode (String.singleton c)).flatMap Html.percent

/-- The pairs of a map as a query of an address. -/
def encodePairs (spaces : Spaces) (pairs : List (Value × Value)) : String :=
  String.intercalate "&" <| pairs.map fun p =>
    encodeAddress (p.1.printed spaces) ++ "=" ++ encodeAddress (p.2.printed spaces)

def encodeValue (spaces : Spaces) (v : Value) : Value :=
  match v.pairs? spaces with
  | some pairs => Value.text (encodePairs spaces pairs)
  | none => if v.isNone then Value.text "" else Value.text (encodeAddress (v.printed spaces))

def mapText (f : List Char → List Char) : Filter := fun s vs =>
  (Take.converted (Value.asText s.spaces)).make
    (fun text => .ok (Value.text (String.ofList (f text.toList)))) vs

/-- The value as a safe text. Where nothing is escaped, it is escaped for HTML. -/
def escape : Filter := fun s vs =>
  Take.value.make (fun v =>
    match v with
    | .str _ true => .ok v
    | v => (v.escaped s.spaces (if s.escaping = .none then .html else s.escaping)).map fun text => .str text true) vs

def safe : Filter := fun s vs =>
  (Take.converted (Value.asText s.spaces)).make (fun text => .ok (.str text true)) vs

def replace : Filter := fun s vs =>
  let text := Take.converted (Value.asText s.spaces)
  Take.make (do return (← text, ← text, ← text)) (fun (text, pattern, value) =>
    .ok (Value.text (String.ofList (replaceChars pattern.toList value.toList text.toList)))) vs

def trim : Filter := fun s vs =>
  let text := Value.asText s.spaces
  Take.make (do return (← Take.converted text, ← Take.optional text)) (fun (text, removed) =>
    let removed := match removed with
      | some set => set.toList.contains
      | none => Text.isBlank
    .ok (Value.text (String.ofList (trimChars removed text.toList)))) vs

def split : Filter := fun s vs =>
  let text := Value.asText s.spaces
  Take.make (do return (← Take.converted text, ← Take.optional text, ← Take.optional Value.asWord))
    (fun (text, pattern, limit) =>
      let limit := limit.bind fun n => if 0 ≤ n then some (n.toNat + 1) else none
      .ok (lazyTexts (splitText text.toList (pattern.map String.toList) limit))) vs

def lines : Filter := fun s vs =>
  (Take.converted (Value.asText s.spaces)).make (fun text => .ok (lazyTexts (Text.lines text.toList))) vs

def indent : Filter := fun s vs =>
  Take.make (do return (← Take.converted (Value.asText s.spaces), ← Take.converted Value.asSize,
      ← Take.optional Value.asFlag, ← Take.optional Value.asFlag))
    (fun (text, width, firstLine, blankLines) =>
      .ok (Value.text (String.ofList
        (indentChars width (firstLine.getD false) (blankLines.getD false) text.toList)))) vs

def urlencode : Filter := fun s vs =>
  Take.value.make (fun v => .ok (encodeValue s.spaces v)) vs

def string : Filter := fun s vs =>
  Take.value.make (fun v =>
    match v with
    | .str _ _ => .ok v
    | v => .ok (Value.text (v.printed s.spaces))) vs

def pprint : Filter := fun s vs =>
  Take.value.make (fun v => .ok (Value.text (v.prettyText s.spaces))) vs

/-- The number of blanks for each level, if the text has several lines. -/
def indentWidth : Value → Result (Option Nat)
  | .bool true => .ok (some 2)
  | .bool false => .ok none
  | v => v.asSize.map some

/-- The value as JSON that can stand in HTML. -/
def jsonText (spaces : Spaces) (v : Value) (width : Option Nat) : Result Value :=
  match (v.settle spaces).toJson? with
  | none => .error .badSerialization
  | some value =>
    let cs := match width with
      | some width => value.indented width 0
      | none => value.compact
    .ok (.str (String.ofList (cs.flatMap escapeJsonChar)) true)

def tojson : Filter := fun s vs =>
  Take.withNamed (do return (← Take.value, ← Take.optional .ok)) (fun (v, width) named =>
    match width.or (named.get? "indent") with
    | none =>
      match named.expect ["indent"] with
      | .error fault => .error fault
      | .ok () => jsonText s.spaces v none
    | some width =>
      match named.expect ["indent"], (if width.isNone || width.isUndefined then .ok none else indentWidth width) with
      | .error fault, _ => .error fault
      | _, .error fault => .error fault
      | .ok (), .ok width => jsonText s.spaces v width) vs

def textFilter? : String → Option Filter
  | "safe" => some safe
  | "escape" => some escape
  | "e" => some escape
  | "lower" => some (mapText Text.toLower)
  | "upper" => some (mapText Text.toUpper)
  | "title" => some (mapText (titleChars true))
  | "capitalize" => some (mapText capitalizeChars)
  | "replace" => some replace
  | "trim" => some trim
  | "split" => some split
  | "lines" => some lines
  | "indent" => some indent
  | "urlencode" => some urlencode
  | "string" => some string
  | "pprint" => some pprint
  | "tojson" => some tojson
  | _ => none

end Filter
end Template
end Folio

import Folio.Decimal.Basic
import Folio.Json

/-!
# Folio.Json.Parser

Values from their text.

* `parse?`: the value of a text; none where the text is not JSON.

The readers here take the rest of the text, and give a value with what follows it. Those that call each other are
bounded by a number of steps, which grows with the text: each bracket and each comma takes two at most.
-/

namespace Folio
namespace Json

def isSpace (c : Char) : Bool :=
  c == ' ' || c == '\t' || c == '\n' || c == '\r'

def skipSpace (cs : List Char) : List Char :=
  cs.dropWhile isSpace

def hexValue? (c : Char) : Option Nat :=
  if '0' ≤ c ∧ c ≤ '9' then some (c.toNat - 48)
  else if 'a' ≤ c ∧ c ≤ 'f' then some (c.toNat - 87)
  else if 'A' ≤ c ∧ c ≤ 'F' then some (c.toNat - 55)
  else none

def fourDigits? : List Char → Option (Nat × List Char)
  | a :: b :: c :: d :: cs =>
    match hexValue? a, hexValue? b, hexValue? c, hexValue? d with
    | some a, some b, some c, some d => some (((a * 16 + b) * 16 + c) * 16 + d, cs)
    | _, _, _, _ => none
  | _ => none

def isHighSurrogate (n : Nat) : Bool :=
  0xD800 ≤ n ∧ n < 0xDC00

def isLowSurrogate (n : Nat) : Bool :=
  0xDC00 ≤ n ∧ n < 0xE000

/-- The character after `\u`. One outside the basic plane is written as a pair of surrogates; a lone surrogate
is no character. -/
def escapedNumber? (cs : List Char) : Option (Char × List Char) :=
  match fourDigits? cs with
  | none => none
  | some (n, cs) =>
    if isLowSurrogate n then none
    else if isHighSurrogate n then
      match cs with
      | '\\' :: 'u' :: cs =>
        match fourDigits? cs with
        | none => none
        | some (m, cs) =>
          if isLowSurrogate m then some (Char.ofNat (0x10000 + (n - 0xD800) * 0x400 + (m - 0xDC00)), cs) else none
      | _ => none
    else some (Char.ofNat n, cs)

/-- The character after a backslash. -/
def escaped? : List Char → Option (Char × List Char)
  | '"' :: cs => some ('"', cs)
  | '\\' :: cs => some ('\\', cs)
  | '/' :: cs => some ('/', cs)
  | 'b' :: cs => some ('\x08', cs)
  | 'f' :: cs => some ('\x0c', cs)
  | 'n' :: cs => some ('\n', cs)
  | 'r' :: cs => some ('\r', cs)
  | 't' :: cs => some ('\t', cs)
  | 'u' :: cs => escapedNumber? cs
  | _ => none

/-- The characters up to the closing quotation mark. -/
def quoted? : Nat → List Char → Option (List Char × List Char)
  | 0, _ => none
  | _ + 1, [] => none
  | _ + 1, '"' :: cs => some ([], cs)
  | n + 1, '\\' :: cs =>
    match escaped? cs with
    | none => none
    | some (c, cs) => (quoted? n cs).map fun (text, cs) => (c :: text, cs)
  | n + 1, c :: cs =>
    if c.toNat < 0x20 then none else (quoted? n cs).map fun (text, cs) => (c :: text, cs)

/-- The text after an opening quotation mark. -/
def string? (cs : List Char) : Option (String × List Char) :=
  (quoted? (cs.length + 1) cs).map fun (text, cs) => (String.ofList text, cs)

def digitsValue (cs : List Char) : Nat :=
  cs.foldl (fun n c => n * 10 + (c.toNat - 48)) 0

/-- Digits, of which there is at least one. -/
def digits? (cs : List Char) : Option (List Char × List Char) :=
  match cs.takeWhile Char.isDigit with
  | [] => none
  | digits => some (digits, cs.dropWhile Char.isDigit)

/-- The digits before the point: without zeros in front. -/
def whole? : List Char → Option (List Char × List Char)
  | '0' :: cs =>
    match cs with
    | c :: _ => if c.isDigit then none else some (['0'], cs)
    | [] => some (['0'], [])
  | cs => digits? cs

/-- The digits after the point, if there is one. -/
def fraction? : List Char → Option (Option (List Char) × List Char)
  | '.' :: cs => (digits? cs).map fun (digits, cs) => (some digits, cs)
  | cs => some (none, cs)

/-- The exponent, if there is one. -/
def exponent? (cs : List Char) : Option (Option Int × List Char) :=
  match cs with
  | c :: rest =>
    if c == 'e' || c == 'E' then
      match rest with
      | '-' :: rest => (digits? rest).map fun (digits, cs) => (some (-(digitsValue digits : Int)), cs)
      | '+' :: rest => (digits? rest).map fun (digits, cs) => (some (digitsValue digits : Int), cs)
      | rest => (digits? rest).map fun (digits, cs) => (some (digitsValue digits : Int), cs)
    else some (none, cs)
  | [] => some (none, [])

/-- A number without its sign. With a point or an exponent it is a float. -/
def unsigned? (negative : Bool) (cs : List Char) : Option (Json × List Char) := do
  let (whole, cs) ← whole? cs
  let (fraction, cs) ← fraction? cs
  let (exponent, cs) ← exponent? cs
  match fraction, exponent with
  | none, none =>
    let n : Int := digitsValue whole
    return (.int (if negative then -n else n), cs)
  | fraction, exponent =>
    let places := fraction.getD []
    let x := Decimal.toFloat ⟨digitsValue (whole ++ places), exponent.getD 0 - places.length⟩
    return (.float (if negative then -x else x), cs)

def number? : List Char → Option (Json × List Char)
  | '-' :: cs => unsigned? true cs
  | cs => unsigned? false cs

def word? : List Char → Option (Json × List Char)
  | 'n' :: 'u' :: 'l' :: 'l' :: cs => some (.null, cs)
  | 't' :: 'r' :: 'u' :: 'e' :: cs => some (.bool true, cs)
  | 'f' :: 'a' :: 'l' :: 's' :: 'e' :: cs => some (.bool false, cs)
  | _ => none

mutual

/-- The value that begins after blanks. -/
def value? : Nat → List Char → Option (Json × List Char)
  | 0, _ => none
  | n + 1, cs =>
    match skipSpace cs with
    | [] => none
    | '"' :: cs => (string? cs).map fun (text, cs) => (.str text, cs)
    | '[' :: cs =>
      match skipSpace cs with
      | ']' :: cs => some (.arr [], cs)
      | cs => (items? n cs).map fun (items, cs) => (.arr items, cs)
    | '\x7b' :: cs =>
      match skipSpace cs with
      | '\x7d' :: cs => some (.obj [], cs)
      | cs => (members? n cs).map fun (members, cs) => (.obj members, cs)
    | c :: cs => if c == '-' || c.isDigit then number? (c :: cs) else word? (c :: cs)

/-- The items of an array, up to its end. -/
def items? : Nat → List Char → Option (List Json × List Char)
  | 0, _ => none
  | n + 1, cs =>
    match value? n cs with
    | none => none
    | some (item, cs) =>
      match skipSpace cs with
      | ']' :: cs => some ([item], cs)
      | ',' :: cs => (items? n cs).map fun (items, cs) => (item :: items, cs)
      | _ => none

/-- The members of an object, up to its end. -/
def members? : Nat → List Char → Option (List (String × Json) × List Char)
  | 0, _ => none
  | n + 1, cs =>
    match skipSpace cs with
    | '"' :: cs =>
      match string? cs with
      | none => none
      | some (name, cs) =>
        match skipSpace cs with
        | ':' :: cs =>
          match value? n cs with
          | none => none
          | some (value, cs) =>
            match skipSpace cs with
            | '\x7d' :: cs => some ([(name, value)], cs)
            | ',' :: cs => (members? n cs).map fun (members, cs) => ((name, value) :: members, cs)
            | _ => none
        | _ => none
    | _ => none

end

/-- The value of a text. -/
def parse? (text : String) : Option Json :=
  match value? (2 * text.length + 1) text.toList with
  | some (value, rest) => if (skipSpace rest).isEmpty then some value else none
  | none => none

end Json
end Folio

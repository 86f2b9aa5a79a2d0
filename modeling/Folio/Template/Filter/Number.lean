import Folio.Template.Filter.Text

/-!
# Folio.Template.Filter.Number

Filters on numbers, and those that make numbers.

* `Decimal.ofText?`: the float that a text is.
* `numberFilter?`: the filter with a name.
-/

namespace Folio
namespace Decimal

/-- The digits at the start of a text, and what follows them. -/
def digitsOf (cs : List Char) : List Char × List Char :=
  (cs.takeWhile Char.isDigit, cs.dropWhile Char.isDigit)

def digitsValue (cs : List Char) : Nat :=
  cs.foldl (fun n c => n * 10 + (c.toNat - 48)) 0

/-- The exponent in a text that is nothing else. -/
def exponentOf? (cs : List Char) : Option Int :=
  let (negative, digits) := match cs with
    | '-' :: cs => (true, cs)
    | '+' :: cs => (false, cs)
    | cs => (false, cs)
  if digits.isEmpty || !digits.all Char.isDigit then none
  else some (if negative then -(digitsValue digits : Int) else digitsValue digits)

/-- The float that a text without a sign is. -/
def unsignedOfText? (cs : List Char) : Option Float :=
  let word := Text.asciiLower (String.ofList cs)
  if word = "inf" ∨ word = "infinity" then some (1 / 0)
  else if word = "nan" then some (0 / 0)
  else
    let (whole, rest) := digitsOf cs
    let (fraction, rest) := match rest with
      | '.' :: rest => digitsOf rest
      | rest => ([], rest)
    if whole.isEmpty && fraction.isEmpty then none
    else
      let exponent := match rest with
        | [] => some 0
        | c :: rest => if c = 'e' ∨ c = 'E' then exponentOf? rest else none
      exponent.map fun e => toFloat ⟨digitsValue (whole ++ fraction), e - fraction.length⟩

/-- The float that a text is. -/
def ofText? (cs : List Char) : Option Float :=
  match cs with
  | '-' :: cs => (unsignedOfText? cs).map (-·)
  | '+' :: cs => unsignedOfText? cs
  | cs => unsignedOfText? cs

def intOfText? (cs : List Char) : Option Int :=
  (exponentOf? cs).bind fun n => if -bitLimit 127 ≤ n && n < bitLimit 127 then some n else none

end Decimal

namespace Template
namespace Filter

/-- The whole number next to a float, towards zero. One out of range is cut. -/
def cutFloat (x : Float) : Int :=
  if x.isNaN then 0
  else if x.isFinite then max Value.minInt (min Value.maxInt (Decimal.truncated x))
  else if x < 0 then Value.minInt
  else Value.maxInt

def toInt (v : Value) : Result Value :=
  match v with
  | .undefined _ => .ok (.int 0)
  | .none => .ok (.int 0)
  | .bool b => .ok (.int (if b then 1 else 0))
  | .int n => .ok (.int n)
  | .float x => .ok (.int (cutFloat x))
  | .str s _ =>
    match Decimal.intOfText? s.toList with
    | some n => .ok (.int n)
    | none =>
      match Decimal.ofText? s.toList with
      | some x => .ok (.int (cutFloat x))
      | none => .error .invalidOperation
  | _ => .error .invalidOperation

def toFloat (v : Value) : Result Value :=
  match v with
  | .undefined _ => .ok (.float 0)
  | .none => .ok (.float 0)
  | .bool b => .ok (.float (if b then 1 else 0))
  | .int n => .ok (.float (Decimal.ofInt n))
  | .float x => .ok (.float x)
  | .str s _ =>
    match Decimal.ofText? s.toList with
    | some x => .ok (.float x)
    | none => .error .invalidOperation
  | _ => .error .invalidOperation

def absolute (v : Value) : Result Value :=
  match v with
  | .int n => Value.exact n.natAbs
  | .float x => .ok (.float x.abs)
  | _ => .error .invalidOperation

/-- The number with so many digits after the point. A half goes away from zero. -/
def rounded (v : Value) (precision : Int) : Result Value :=
  match v with
  | .int n => .ok (.int n)
  | .float x =>
    let scale := Decimal.tenTo precision
    .ok (.float ((scale * x).round / scale))
  | _ => .error .invalidOperation

def round : Filter := fun _ vs =>
  Take.make (do return (← Take.value, ← Take.optional (Value.asInt (-Decimal.bitLimit 31) (Decimal.bitLimit 31 - 1))))
    (fun (v, precision) => rounded v (precision.getD 0)) vs

def numberFilter? : String → Option Filter
  | "int" => some fun _ vs => Take.value.make toInt vs
  | "float" => some fun _ vs => Take.value.make toFloat vs
  | "abs" => some fun _ vs => Take.value.make absolute vs
  | "round" => some round
  | "bool" => some fun s vs => Take.value.make (fun v => .ok (.bool (v.isTrue s.spaces))) vs
  | _ => none

end Filter
end Template
end Folio

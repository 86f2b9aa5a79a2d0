/-!
# Folio.Decimal.Basic

Decimal numbers and binary floats.

* `Decimal`: a natural number times a power of ten. `Decimal.toFloat` is the float next to it.
* `Decimal.shortest`: for a finite float, the decimal with the fewest digits that reads back as it; of several, the
  one nearest to it.
-/

namespace Folio

/-- The number `digits · 10 ^ exponent`. -/
structure Decimal where
  digits : Nat
  exponent : Int
  deriving DecidableEq, Repr

namespace Decimal

/-- Whole numbers with a sign and so many bits are below this, and not below its negative. -/
def bitLimit (bits : Nat) : Int :=
  Nat.pow 2 bits

def width (n : Nat) : Nat :=
  (Nat.toDigits 10 n).length

/-- A bound on the exponents of floats, to both sides. -/
def exponentBound : Nat := 400

/-- The float next to a decimal. Exponents far out of range are cut, which changes nothing. -/
def toFloat (d : Decimal) : Float :=
  if 0 ≤ d.exponent then Float.ofScientific d.digits false (min d.exponent.toNat exponentBound)
  else Float.ofScientific d.digits true (min d.exponent.natAbs (exponentBound + width d.digits))

/-- The size of a finite float is `m · 2 ^ e` for this pair. -/
def binary (x : Float) : Nat × Int :=
  let bits := x.toBits.toNat
  let fraction := bits % Nat.pow 2 52
  let biased : Nat := bits / Nat.pow 2 52 % Nat.pow 2 11
  if biased = 0 then (fraction, -1074) else (fraction + Nat.pow 2 52, (biased : Int) - 1075)

/-- The numbers that round to one float: `value / unit`, and the ends `low / unit` and `high / unit`, which belong to
them where `closed` is set. -/
structure Interval where
  low : Nat
  value : Nat
  high : Nat
  unit : Nat
  closed : Bool

/-- The interval of a finite float that is not zero. Below a power of two the floats are twice as dense. -/
def interval (x : Float) : Interval :=
  let (m, e) := binary x
  let isPower := m == Nat.pow 2 52 && -1074 < e
  let scale := Nat.pow 2 (e - 2).toNat
  { low := (4 * m - if isPower then 1 else 2) * scale
    value := 4 * m * scale
    high := (4 * m + 2) * scale
    unit := Nat.pow 2 (2 - e).toNat
    closed := m % 2 == 0 }

namespace Interval

/-- The interval in units of `10 ^ k`. -/
def scaled (i : Interval) (k : Int) : Interval :=
  let up := Nat.pow 10 (-k).toNat
  { i with low := i.low * up, value := i.value * up, high := i.high * up, unit := i.unit * Nat.pow 10 k.toNat }

def holds (i : Interval) (n : Nat) : Bool :=
  if i.closed then i.low ≤ n * i.unit && n * i.unit ≤ i.high
  else i.low < n * i.unit && n * i.unit < i.high

/-- The whole number in the interval that is nearest to the value, if there is one. A tie goes to the even one. -/
def nearest? (i : Interval) : Option Nat :=
  let below := i.value / i.unit
  let above := below + 1
  let twice := 2 * (i.value - below * i.unit)
  match i.holds below, i.holds above with
  | true, true =>
    some (if twice < i.unit || (twice == i.unit && below % 2 == 0) then below else above)
  | true, false => some below
  | false, true => some above
  | false, false => none

/-- The exponent of the first digit of the value, found upwards from `k` in at most `n` steps. -/
def leading (i : Interval) : Nat → Int → Int
  | 0, k => k
  | n + 1, k =>
    let s := i.scaled (k + 1)
    if s.unit ≤ s.value then leading i n (k + 1) else k

/-- The decimal in the interval with the fewest digits, beyond the `n - 1` that are too few. -/
def fewest (i : Interval) (first : Int) : Nat → Nat → Decimal
  | 0, n => ⟨(i.scaled (first - n)).value / (i.scaled (first - n)).unit, first - n⟩
  | steps + 1, n =>
    let k := first - n + 1
    match (i.scaled k).nearest? with
    | some d => ⟨d, k⟩
    | none => fewest i first steps (n + 1)

end Interval

/-- The decimal without zeros at the end of its digits, of which at most `n` are taken away. -/
def trimmed (d : Decimal) : Nat → Decimal
  | 0 => d
  | n + 1 =>
    if d.digits != 0 && d.digits % 10 == 0 then trimmed ⟨d.digits / 10, d.exponent + 1⟩ n else d

/-- The most digits that a float needs. -/
def maxDigits : Nat := 17

/-- The shortest decimal that reads back as a finite float, signs apart. -/
def shortest (x : Float) : Decimal :=
  if (binary x).1 = 0 then ⟨0, 0⟩
  else
    let i := interval x
    let guess : Int := ((Nat.log2 i.value : Int) - Nat.log2 i.unit - 1) * 30103 / 100000 - 1
    let d := i.fewest (i.leading 8 guess) maxDigits 1
    d.trimmed (maxDigits + 1)

/-- The place of the point: the number of digits before it, negative where zeros stand after it. -/
def point (d : Decimal) : Int :=
  width d.digits + d.exponent

def digitChars (n : Nat) : List Char :=
  Nat.toDigits 10 n

/-- The digits before the point, and those after it. -/
def positional (d : Decimal) : List Char × List Char :=
  let digits := digitChars d.digits
  if 0 ≤ d.exponent then (digits ++ List.replicate d.exponent.toNat '0', [])
  else if 0 < d.point then (digits.take d.point.toNat, digits.drop d.point.toNat)
  else (['0'], List.replicate (-d.point).toNat '0' ++ digits)

/-- The digits with the point, which always has a digit after it. -/
def plain (d : Decimal) : List Char :=
  let (whole, fraction) := d.positional
  whole ++ '.' :: (if fraction.isEmpty then ['0'] else fraction)

/-- One digit before the point, and an exponent. -/
def scientific (d : Decimal) : List Char :=
  let exponent := d.point - 1
  let sign := if exponent < 0 then ['-'] else []
  (match digitChars d.digits with
    | [] => []
    | [c] => [c]
    | c :: cs => c :: '.' :: cs) ++ 'e' :: sign ++ digitChars exponent.natAbs

/-- The digits with the point, unless its place is below `low` or above `high`. -/
def general (d : Decimal) (low high : Int) : List Char :=
  if d.digits == 0 || (low ≤ d.point && d.point ≤ high) then d.plain else d.scientific

end Decimal

/-- Whether the sign of a float is a minus. That of a zero counts. -/
def isNegative (x : Float) : Bool :=
  x.toBits.toNat / Nat.pow 2 63 == 1

end Folio

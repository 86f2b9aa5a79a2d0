import Folio.Decimal.Basic

/-!
# Folio.Decimal.Binary

Floats as numbers.

* `truncated`: the whole number next to a finite float, towards zero.
* `wholeNumber?`: the whole number that a float is.
* `orderKey`: the place of a float among all floats, with minus zero below zero and what is no number at the ends.
* `floatRemainder`, `floatEuclid`: the remainder with the sign of the dividend, and the quotient whose remainder is
  not negative.
-/

namespace Folio
namespace Decimal

def signed (x : Float) (n : Nat) : Int :=
  if isNegative x then -(n : Int) else n

/-- The size of a finite float, without its fraction. -/
def wholeSize (x : Float) : Nat :=
  let (m, e) := binary x
  if 0 ≤ e then m * Nat.pow 2 e.toNat else m / Nat.pow 2 (-e).toNat

/-- The whole number next to a finite float, towards zero. -/
def truncated (x : Float) : Int :=
  signed x (wholeSize x)

def hasFraction (x : Float) : Bool :=
  let (m, e) := binary x
  e < 0 && m % Nat.pow 2 (-e).toNat != 0

/-- The whole number that a float is, unless it is too large for one of 64 bits. -/
def wholeNumber? (x : Float) : Option Int :=
  if !x.isFinite || hasFraction x then none
  else
    let n := truncated x
    if -bitLimit 63 ≤ n && n ≤ bitLimit 63 then some n else none

def ofInt (n : Int) : Float :=
  let x := Float.ofNat n.natAbs
  if n < 0 then -x else x

/-- The place of a float among all floats. -/
def orderKey (x : Float) : Int :=
  let bits := x.toBits.toNat
  if bits < Nat.pow 2 63 then bits else -((bits - Nat.pow 2 63 : Nat) : Int) - 1

/-- The remainder of a division, with the sign of `x`. -/
def floatRemainder (x y : Float) : Float :=
  if !x.isFinite || y.isNaN || y == 0 then 0 / 0
  else if !y.isFinite then x
  else
    let (m, e) := binary x
    let (k, f) := binary y
    let low := min e f
    let rest := m * Nat.pow 2 (e - low).toNat % (k * Nat.pow 2 (f - low).toNat)
    let size := Float.scaleB (Float.ofNat rest) low
    if isNegative x then -size else size

/-- The whole part of a float. -/
def floatWhole (x : Float) : Float :=
  if x < 0 then x.ceil else x.floor

/-- The quotient of a division whose remainder is not negative. -/
def floatEuclid (x y : Float) : Float :=
  let q := floatWhole (x / y)
  if floatRemainder x y < 0 then (if 0 < y then q - 1 else q + 1) else q

def tenTo (n : Int) : Float :=
  let x := Float.ofNat (Nat.pow 10 (min n.natAbs 400))
  if n < 0 then 1 / x else x

end Decimal
end Folio

import Folio.Template.Access

/-!
# Folio.Template.Arithmetic

Operators on values.

* `Value.add` and so on: whole numbers are exact, up to the largest one; a result beyond it is a fault. A float on
  one side makes a float.
* `Value.operate`: the operators of two values that do not choose between them.
-/

namespace Folio
namespace Template
namespace Value

/-- A whole number as a result. -/
def exact (n : Int) : Result Value :=
  if inRange n then .ok (.int n) else .error .invalidOperation

/-- A calculation with two numbers. -/
def calculate (a b : Value) (ints : Int → Int → Result Value) (floats : Float → Float → Float) : Result Value :=
  match numbers? false a b with
  | some (.ints n m) => ints n m
  | some (.floats x y) => .ok (.float (floats x y))
  | Option.none => .error .invalidOperation

def add (a b : Value) : Result Value :=
  match a, b with
  | .str s _, .str t _ => .ok (text (s ++ t))
  | a, b =>
    match a.ownItems?, b.ownItems? with
    | some xs, some ys => .ok (.iterator (xs ++ ys) ((a.size? #[]).isSome && (b.size? #[]).isSome))
    | _, _ => calculate a b (fun n m => exact (n + m)) (· + ·)

def subtract (a b : Value) : Result Value :=
  calculate a b (fun n m => exact (n - m)) (· - ·)

/-- The number of repetitions that a value names. -/
def times? (v : Value) : Option Nat :=
  match v.int? with
  | some n => if 0 ≤ n && n < Decimal.bitLimit 64 then some n.toNat else Option.none
  | Option.none => Option.none

def repeatItems (v count : Value) (items : List Value) : Result Value :=
  match times? count, v.size? #[] with
  | some n, some _ => .ok (.iterator (List.replicate n items).flatten true)
  | _, _ => .error .invalidOperation

def repeatText (s : String) (count : Value) : Result Value :=
  match times? count with
  | some n => .ok (text (String.join (List.replicate n s)))
  | Option.none => .error .invalidOperation

def multiply (a b : Value) : Result Value :=
  match a, b with
  | .str s _, b => repeatText s b
  | a, .str s _ => repeatText s a
  | a, b =>
    match a.ownItems?, b.ownItems? with
    | some items, _ => repeatItems a b items
    | _, some items => repeatItems b a items
    | Option.none, Option.none => calculate a b (fun n m => exact (n * m)) (· * ·)

def divide (a b : Value) : Result Value :=
  match a.float? false, b.float? false with
  | some x, some y => .ok (.float (x / y))
  | _, _ => .error .invalidOperation

/-- The quotient whose remainder is not negative. -/
def divideFloor (a b : Value) : Result Value :=
  calculate a b (fun n m => if m = 0 then .error .invalidOperation else exact (n / m)) Decimal.floatEuclid

/-- The remainder: of whole numbers one that is not negative, of floats one with the sign of the first. -/
def remainder (a b : Value) : Result Value :=
  calculate a b (fun n m => if m = 0 then .error .invalidOperation else exact (n % m)) Decimal.floatRemainder

/-- A power of a whole number. One of other numbers than 0, 1 and -1 with a large exponent is out of range. -/
def intPower (n m : Int) : Result Value :=
  if m < 0 || Decimal.bitLimit 32 ≤ m then .error .invalidOperation
  else if n.natAbs ≤ 1 then exact (if m = 0 then 1 else if m % 2 = 0 then n * n else n)
  else if 128 ≤ m then .error .invalidOperation
  else exact (Int.pow n m.toNat)

def power (a b : Value) : Result Value :=
  calculate a b intPower Float.pow

def negate (v : Value) : Result Value :=
  match v with
  | .float x => .ok (.float (-x))
  | .int n => exact (-n)
  | _ => .error .invalidOperation

/-- Two texts, one after the other. -/
def concat (spaces : Spaces) (a b : Value) : Value :=
  text (a.printed spaces ++ b.printed spaces)

def order (spaces : Spaces) (a b : Value) : Ordering :=
  compare (a.settle spaces) (b.settle spaces)

def same (spaces : Spaces) (a b : Value) : Bool :=
  equal (a.settle spaces) (b.settle spaces)

def operate (spaces : Spaces) (op : BinaryOp) (a b : Value) : Result Value :=
  match op with
  | .either => .ok b
  | .both => .ok b
  | .eq => .ok (.bool (same spaces a b))
  | .ne => .ok (.bool (!same spaces a b))
  | .lt => .ok (.bool (order spaces a b == .lt))
  | .lte => .ok (.bool (order spaces a b != .gt))
  | .gt => .ok (.bool (order spaces a b == .gt))
  | .gte => .ok (.bool (order spaces a b != .lt))
  | .isIn => (b.holds spaces a).map .bool
  | .add => add a b
  | .subtract => subtract a b
  | .concat => .ok (concat spaces a b)
  | .multiply => multiply a b
  | .divide => divide a b
  | .divideFloor => divideFloor a b
  | .remainder => remainder a b
  | .power => power a b

end Value
end Template
end Folio

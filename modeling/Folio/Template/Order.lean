import Folio.Decimal.Binary
import Folio.Json
import Folio.Template.Value

/-!
# Folio.Template.Order

Which values are equal, and which of two comes first.

* `Value.number?`: the number that a value counts as; true and false count as one and zero.
* `Value.equal`: equality of values that have no namespaces inside. Numbers are compared by their size.
* `Value.compare`: their order. Values of different kinds are ordered by the kinds.
* `Value.insertPair`, `Value.findPair?`: the pairs of a map, in the order of their keys.
-/

namespace Folio
namespace Template

/-- Two numbers with one representation. -/
inductive NumberPair where
  | ints (a b : Int)
  | floats (a b : Float)

namespace Value

/-- The largest whole number that takes part in calculations. -/
def maxInt : Int := Decimal.bitLimit 127 - 1

def minInt : Int := -Decimal.bitLimit 127

def inRange (n : Int) : Bool :=
  minInt ≤ n && n ≤ maxInt

def int? : Value → Option Int
  | .bool b => some (if b then 1 else 0)
  | .int n => if inRange n then some n else Option.none
  | .float x => Decimal.wholeNumber? x
  | _ => Option.none

/-- The float that a value counts as. If it has to be exact, a whole number has to be one that a float can be. -/
def float? (exact : Bool) : Value → Option Float
  | .bool b => some (if b then 1 else 0)
  | .int n =>
    let x := Decimal.ofInt n
    if exact && Decimal.truncated x != n then Option.none else some x
  | .float x => some x
  | _ => Option.none

/-- Two numbers brought to one representation. -/
def numbers? (exact : Bool) (a b : Value) : Option NumberPair :=
  match a, b with
  | .float x, b => (b.float? exact).map (.floats x ·)
  | a, .float y => (a.float? exact).map (.floats · y)
  | a, b =>
    match a.int?, b.int? with
    | some n, some m => some (.ints n m)
    | _, _ => Option.none

def orderOfFloats (x y : Float) : Ordering :=
  Ord.compare (Decimal.orderKey x) (Decimal.orderKey y)

/-- Whether two values that are no objects are equal. -/
def equalAtoms (a b : Value) : Bool :=
  match a, b with
  | .none, .none => true
  | .undefined _, .undefined _ => true
  | .str s _, .str t _ => s == t
  | .function f, .function g => f == g
  | a, b =>
    match numbers? true a b with
    | some (.ints n m) => n == m
    | some (.floats x y) => x == y
    | Option.none => false

/-- The items of a value that has its items itself. -/
def ownItems? : Value → Option (List Value)
  | .seq items => some items
  | .iterator items _ => some items
  | .group key items => some [key, .seq items]
  | _ => Option.none

def ownPairs? (v : Value) : Option (List (Value × Value)) :=
  v.pairs? #[]

/-- Orders of the parts of two values, one after the other. -/
def lexicographic : List Ordering → Ordering → Ordering
  | [], last => last
  | .eq :: os, last => lexicographic os last
  | o :: _, _ => o

def orderOfAtoms (a b : Value) : Ordering :=
  match a, b with
  | .str s _, .str t _ => Ord.compare s t
  | .function f, .function g => Ord.compare f.ctorIdx g.ctorIdx
  | a, b =>
    match numbers? false a b with
    | some (.ints n m) => Ord.compare n m
    | some (.floats x y) => orderOfFloats x y
    | Option.none => .eq

/-- The order of two values with their items and pairs down to a depth of `n`. -/
def compareTo : Nat → Value → Value → Ordering
  | 0, _, _ => .eq
  | n + 1, a, b =>
    if a.kind != b.kind then Ord.compare a.kind.rank b.kind.rank
    else
      match a.ownItems?, b.ownItems? with
      | some xs, some ys => items n xs ys
      | _, _ =>
        match a.ownPairs?, b.ownPairs? with
        | some ps, some qs => pairs n ps qs
        | _, _ => orderOfAtoms a b
where
  items (n : Nat) (xs ys : List Value) : Ordering :=
    lexicographic (List.zipWith (compareTo n) xs ys) (Ord.compare xs.length ys.length)
  pairs (n : Nat) (ps qs : List (Value × Value)) : Ordering :=
    lexicographic (List.zipWith (fun p q => (compareTo n p.1 q.1).then (compareTo n p.2 q.2)) ps qs)
      (Ord.compare ps.length qs.length)

/-- How deep values are compared. -/
def maxDepth : Nat := 10000

def compare (a b : Value) : Ordering :=
  compareTo maxDepth a b

/-- The value with a key. -/
def findPair? (key : Value) (pairs : List (Value × Value)) : Option Value :=
  (pairs.find? fun p => compare p.1 key == .eq).map (·.2)

/-- The pairs with one more. It takes the place of one with the same key. -/
def insertPair (key v : Value) : List (Value × Value) → List (Value × Value)
  | [] => [(key, v)]
  | p :: pairs =>
    match compare key p.1 with
    | .lt => (key, v) :: p :: pairs
    | .eq => (p.1, v) :: pairs
    | .gt => p :: insertPair key v pairs

/-- Pairs in the order of their keys. Of several with one key, the last one counts. -/
def sortPairs (pairs : List (Value × Value)) : List (Value × Value) :=
  pairs.foldl (fun sorted p => insertPair p.1 p.2 sorted) []

/-- Whether two values are equal, with their items and pairs down to a depth of `n`. -/
def equalTo : Nat → Value → Value → Bool
  | 0, _, _ => true
  | n + 1, a, b =>
    match a.ownItems?, b.ownItems? with
    | some xs, some ys => xs.length == ys.length && (List.zipWith (equalTo n) xs ys).all id
    | _, _ =>
      match a.ownPairs?, b.ownPairs? with
      | some ps, some qs =>
        ps.length == qs.length && ps.all fun p => ((findPair? p.1 qs).map (equalTo n p.2)).getD false
      | _, _ => equalAtoms a b

def equal (a b : Value) : Bool :=
  equalTo maxDepth a b

mutual

/-- A value with the structure of JSON. -/
def ofJson : Json → Value
  | .null => .none
  | .bool b => .bool b
  | .int n => .int n
  | .float x => .float x
  | .str s => text s
  | .arr items => .seq (ofJsonItems items)
  | .obj members => .map (sortPairs (ofJsonMembers members))

def ofJsonItems : List Json → List Value
  | [] => []
  | item :: items => ofJson item :: ofJsonItems items

def ofJsonMembers : List (String × Json) → List (Value × Value)
  | [] => []
  | (name, value) :: members => (text name, ofJson value) :: ofJsonMembers members

end

end Value
end Template
end Folio

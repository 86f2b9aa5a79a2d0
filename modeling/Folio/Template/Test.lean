import Folio.Template.Arguments
import Folio.Template.Arithmetic
import Folio.Text.Case

/-!
# Folio.Template.Test

The tests that can follow `is`.

* `Test.ofName?`: the test with a name. `Test.known` and `filterNames` are the names that tests on names know.
-/

namespace Folio
namespace Template

/-- A question about a value and some more arguments. -/
abbrev Test := Setting → List Value → Result Bool

/-- The names of all filters. -/
def filterNames : List String :=
  ["safe", "escape", "e", "lower", "upper", "title", "capitalize", "replace", "length", "count", "dictsort",
    "items", "reverse", "trim", "join", "split", "lines", "default", "d", "round", "abs", "int", "float", "attr",
    "first", "last", "min", "max", "sort", "list", "string", "bool", "batch", "slice", "sum", "indent", "select",
    "reject", "selectattr", "rejectattr", "map", "groupby", "unique", "chain", "zip", "pprint", "tojson",
    "urlencode"]

namespace Test

def ofValue (p : Value → Bool) : Test := fun _ vs =>
  (Take.all Take.value vs).map p

def ofPair (p : Spaces → Value → Value → Result Bool) : Test := fun s vs =>
  match Take.all (do return (← Take.value, ← Take.value)) vs with
  | .error fault => .error fault
  | .ok (a, b) => p s.spaces a b

def ofTexts (p : List Char → List Char → Bool) : Test := fun s vs =>
  let text := Take.converted (Value.asText s.spaces)
  (Take.all (do return (← text, ← text)) vs).map fun p' => p p'.1.toList p'.2.toList

def ofText (p : List Char → Bool) : Test := fun s vs =>
  (Take.all (Take.converted (Value.asText s.spaces)) vs).map fun text => p text.toList

def ofOrder (p : Ordering → Bool) : Test :=
  ofPair fun spaces a b => .ok (p (Value.order spaces a b))

def isSafe : Value → Bool
  | .str _ safe => safe
  | _ => false

def isInt : Value → Bool
  | .int _ => true
  | _ => false

def isFloat : Value → Bool
  | .float _ => true
  | _ => false

def isBool : Value → Bool
  | .bool _ => true
  | _ => false

def isTruth (b : Bool) : Value → Bool
  | .bool c => b == c
  | _ => false

/-- Whether a value is a whole number with this remainder by two. -/
def hasParity (odd : Bool) (v : Value) : Bool :=
  match v.int? with
  | some n => (n % 2 == 1) == odd
  | none => false

def dividesExactly (a b : Value) : Bool :=
  match Value.numbers? true a b with
  | some (.ints n m) => m != 0 && n % m == 0
  | some (.floats x y) => Decimal.floatRemainder x y == 0
  | none => false

def isIterable : Test := fun s vs =>
  (Take.all Take.value vs).map fun v => (v.items? s.spaces).isSome

def isLowerChar (c : Char) : Bool :=
  Text.upperChar c != [c] && Text.lowerChar c == [c]

def isUpperChar (c : Char) : Bool :=
  Text.lowerChar c != [c] && Text.upperChar c == [c]

/-- Whether two values are of one kind and equal. -/
def isSame (spaces : Spaces) (a b : Value) : Bool :=
  a.kind == b.kind && Value.same spaces a b

/-- The tests that are not about names. -/
def plain? : String → Option Test
  | "undefined" => some (ofValue Value.isUndefined)
  | "defined" => some (ofValue fun v => !v.isUndefined)
  | "none" => some (ofValue Value.isNone)
  | "safe" => some (ofValue isSafe)
  | "escaped" => some (ofValue isSafe)
  | "boolean" => some (ofValue isBool)
  | "odd" => some (ofValue (hasParity true))
  | "even" => some (ofValue (hasParity false))
  | "divisibleby" => some (ofPair fun _ a b => .ok (dividesExactly a b))
  | "number" => some (ofValue fun v => v.kind == .number)
  | "integer" => some (ofValue isInt)
  | "float" => some (ofValue isFloat)
  | "string" => some (ofValue fun v => v.kind == .str)
  | "sequence" => some (ofValue fun v => v.kind == .seq)
  | "mapping" => some (ofValue fun v => v.kind == .map)
  | "iterable" => some isIterable
  | "startingwith" => some (ofTexts fun text start => start.isPrefixOf text)
  | "endingwith" => some (ofTexts fun text ending => ending.isSuffixOf text)
  | "lower" => some (ofText fun text => text.all isLowerChar)
  | "upper" => some (ofText fun text => text.all isUpperChar)
  | "sameas" => some (ofPair fun spaces a b => .ok (isSame spaces a b))
  | "in" => some (ofPair fun spaces a b => b.holds spaces a)
  | "true" => some (ofValue (isTruth true))
  | "false" => some (ofValue (isTruth false))
  | _ => none

/-- The comparisons, which have several names each. -/
def comparison? (name : String) : Option Test :=
  if ["eq", "equalto", "=="].contains name then some (ofPair fun spaces a b => .ok (Value.same spaces a b))
  else if ["ne", "!="].contains name then some (ofPair fun spaces a b => .ok (!Value.same spaces a b))
  else if ["lt", "lessthan", "<"].contains name then some (ofOrder (· == .lt))
  else if ["le", "<="].contains name then some (ofOrder (· != .gt))
  else if ["gt", "greaterthan", ">"].contains name then some (ofOrder (· == .gt))
  else if ["ge", ">="].contains name then some (ofOrder (· != .lt))
  else none

/-- Whether a test has a name. -/
def known (name : String) : Bool :=
  (plain? name).isSome || (comparison? name).isSome || name == "filter" || name == "test"

/-- The test with a name. -/
def ofName? (name : String) : Option Test :=
  match plain? name with
  | some test => some test
  | none =>
    match comparison? name with
    | some test => some test
    | none =>
      match name with
      | "filter" => some (ofText fun text => filterNames.contains (String.ofList text))
      | "test" => some (ofText fun text => known (String.ofList text))
      | _ => none

end Test
end Template
end Folio

import Folio.Template.Statement

/-!
# Folio.Template.Value

What an expression of a template stands for.

* `Value`: the values. A map keeps its pairs in the order of their keys.
* `Kind`: what a value is for the tests, and for the order of values of different kinds.
* `Value.pairs?`, `Value.items?`: what is in a value.
* `Value.isTrue`: whether a value counts as true.
* `Value.settle`: the value with the names of a namespace in the place of the namespace.
-/

namespace Folio
namespace Template

/-- The functions that every template can call. -/
inductive Builtin where
  | range
  | dict
  | namespace
  | debug
  deriving DecidableEq, Repr

/-- A macro. `closure` is the number of the names that it has taken from where it stands, and `usesCaller` says
whether it asks for the body of the call. -/
structure Routine where
  name : String
  parameters : Parameters
  body : List Statement
  closure : Option Nat
  usesCaller : Bool

/-- The values.

* `undefined`: what has no value. A silent one may be printed.
* `str`: a text. A safe one is not escaped.
* `iterator`: items that are found one after the other. The number of items is known if it is sized.
* `group`: items with what they have in common.
* `named`: the named arguments of a call.
* `library`: the names that a template gives to others, and the text of that template.
* `space`: the namespace with a number.
* `loop`: where a loop is. The items before and after the present one are there if there are any. -/
inductive Value where
  | undefined (silent : Bool)
  | none
  | bool (b : Bool)
  | int (n : Int)
  | float (x : Float)
  | str (s : String) (safe : Bool)
  | seq (items : List Value)
  | iterator (items : List Value) (sized : Bool)
  | map (pairs : List (Value × Value))
  | group (key : Value) (items : List Value)
  | named (pairs : List (Value × Value))
  | library (pairs : List (Value × Value)) (text : String)
  | space (id : Nat)
  | loop (id index depth : Nat) (length : Option Nat) (before after : Option Value)
  | function (f : Builtin)
  | routine (r : Routine)

/-- The kinds of values, lowest first. -/
inductive Kind where
  | undefined
  | none
  | bool
  | number
  | str
  | seq
  | map
  | iterable
  | plain
  deriving DecidableEq, Repr

def Kind.rank : Kind → Nat
  | .undefined => 0
  | .none => 1
  | .bool => 2
  | .number => 3
  | .str => 4
  | .seq => 5
  | .map => 6
  | .iterable => 7
  | .plain => 8

/-- The names of all namespaces. -/
abbrev Spaces := Array (List (Value × Value))

namespace Value

instance : Inhabited Value := ⟨.undefined false⟩

def text (s : String) : Value :=
  .str s false

def ofNat (n : Nat) : Value :=
  .int n

def kind : Value → Kind
  | .undefined _ => .undefined
  | .none => .none
  | .bool _ => .bool
  | .int _ => .number
  | .float _ => .number
  | .str _ _ => .str
  | .seq _ => .seq
  | .iterator _ _ => .iterable
  | .map _ => .map
  | .group _ _ => .seq
  | .named _ => .map
  | .library _ _ => .map
  | .space _ => .map
  | .loop _ _ _ _ _ _ => .map
  | .function _ => .plain
  | .routine _ => .map

def isUndefined : Value → Bool
  | .undefined _ => true
  | _ => false

def isNone : Value → Bool
  | .none => true
  | _ => false

def text? : Value → Option String
  | .str s _ => some s
  | _ => Option.none

/-- Whether a value has a structure, or can be called. -/
def isObject (v : Value) : Bool :=
  match v.kind with
  | .seq => true
  | .map => true
  | .iterable => true
  | .plain => true
  | _ => false

/-! ### Namespaces -/

mutual

/-- The value with `names` in the place of its namespaces. -/
def replaceSpaces (names : Nat → List (Value × Value)) : Value → Value
  | .seq items => .seq (replaceAll names items)
  | .iterator items sized => .iterator (replaceAll names items) sized
  | .map pairs => .map (replacePairs names pairs)
  | .group key items => .group (replaceSpaces names key) (replaceAll names items)
  | .named pairs => .named (replacePairs names pairs)
  | .library pairs text => .library (replacePairs names pairs) text
  | .space id => .map (names id)
  | .loop id index depth length before after =>
    .loop id index depth length (replaceOptional names before) (replaceOptional names after)
  | v => v

def replaceOptional (names : Nat → List (Value × Value)) : Option Value → Option Value
  | Option.none => Option.none
  | some v => some (replaceSpaces names v)

def replaceAll (names : Nat → List (Value × Value)) : List Value → List Value
  | [] => []
  | v :: vs => replaceSpaces names v :: replaceAll names vs

def replacePairs (names : Nat → List (Value × Value)) : List (Value × Value) → List (Value × Value)
  | [] => []
  | (key, v) :: pairs => (replaceSpaces names key, replaceSpaces names v) :: replacePairs names pairs

end

/-- The names of a namespace, where those in namespaces inside of it are followed `n` times. -/
def namesOf (spaces : Spaces) : Nat → Nat → List (Value × Value)
  | 0, _ => []
  | n + 1, id => replacePairs (namesOf spaces n) (spaces[id]?.getD [])

/-- The value with the names of a namespace in the place of the namespace. -/
def settle (spaces : Spaces) (v : Value) : Value :=
  if spaces.isEmpty then v else replaceSpaces (namesOf spaces spaces.size) v

/-! ### What is in a value -/

def ofLength : Option Nat → Value
  | Option.none => .undefined false
  | some n => ofNat n

def ofOption (v : Option Value) : Value :=
  v.getD (.undefined false)

/-- What a loop tells about itself. -/
def loopPairs (index depth : Nat) (length : Option Nat) (before after : Option Value) : List (Value × Value) :=
  [("index0", ofNat index), ("index", ofNat (index + 1)), ("length", ofLength length),
    ("revindex", ofLength (length.map (· - index))), ("revindex0", ofLength (length.map (· - index - 1))),
    ("first", .bool (index == 0)), ("last", .bool after.isNone), ("depth", ofNat (depth + 1)),
    ("depth0", ofNat depth), ("previtem", ofOption before), ("nextitem", ofOption after)].map
    fun p => (text p.1, p.2)

/-- What a macro tells about itself. -/
def routinePairs (r : Routine) : List (Value × Value) :=
  [(text "name", text r.name), (text "arguments", .seq (r.parameters.names.map text)),
    (text "caller", .bool r.usesCaller)]

def pairs? (spaces : Spaces) : Value → Option (List (Value × Value))
  | .map pairs => some pairs
  | .named pairs => some pairs
  | .library pairs _ => some pairs
  | .space id => some (spaces[id]?.getD [])
  | .loop _ index depth length before after => some (loopPairs index depth length before after)
  | .routine r => some (routinePairs r)
  | _ => Option.none

/-- The items of a value with items. Those of a map are its keys. -/
def objectItems? (spaces : Spaces) (v : Value) : Option (List Value) :=
  match v with
  | .seq items => some items
  | .iterator items _ => some items
  | .group key items => some [key, .seq items]
  | v => (v.pairs? spaces).map fun pairs => pairs.map (·.1)

/-- What a value gives one after the other. -/
def items? (spaces : Spaces) (v : Value) : Option (List Value) :=
  match v with
  | .undefined _ => some []
  | .none => some []
  | .str s _ => some (s.toList.map fun c => text (String.singleton c))
  | v => v.objectItems? spaces

/-- The number of items of a value with items, if it is known. -/
def size? (spaces : Spaces) (v : Value) : Option Nat :=
  match v with
  | .iterator _ false => Option.none
  | v => (v.objectItems? spaces).map List.length

/-- Whether a value counts as true. -/
def isTrue (spaces : Spaces) (v : Value) : Bool :=
  match v with
  | .undefined _ => false
  | .none => false
  | .bool b => b
  | .int n => n != 0
  | .float x => !(x == 0)
  | .str s _ => !s.isEmpty
  | v => v.size? spaces != some 0

end Value
end Template
end Folio

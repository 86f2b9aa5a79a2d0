import Folio.Error
import Folio.Template.Print
import Folio.Text.Search

/-!
# Folio.Template.Access

Parts of values.

* `Value.member`, `Value.item`: the part with a name or a key. What has no value itself has no parts.
* `Value.path`: the part that a dotted name leads to.
* `Value.slice`: the items between two places.
* `Value.holds`: whether a value is in another one.
* `Value.iterate`: what a value gives one after the other.
-/

namespace Folio
namespace Template

/-- A result, or the fault that it fails with. -/
abbrev Result (α : Type) := Except TemplateFault α

namespace Value

/-- Whether a whole number has 64 bits. -/
def isWord (n : Int) : Bool :=
  -Decimal.bitLimit 63 ≤ n && n < Decimal.bitLimit 63

/-- The place that a value names. -/
def index? (v : Value) : Option Int :=
  match v.int? with
  | some n => if isWord n then some n else Option.none
  | Option.none => Option.none

/-- The place among items, of which there may be a known number. A negative one is counted from the end. -/
def place? (key : Value) (length : Option Nat) : Option Nat :=
  match key.index? with
  | Option.none => Option.none
  | some n =>
    if 0 ≤ n then some n.toNat
    else
      match length with
      | Option.none => Option.none
      | some length => if n.natAbs ≤ length then some (length - n.natAbs) else Option.none

/-- The part of an object with a key. -/
def part? (spaces : Spaces) (v key : Value) : Option Value :=
  match v with
  | .seq items => (place? key (some items.length)).bind (items[·]?)
  | .iterator items sized => (place? key (if sized then some items.length else Option.none)).bind (items[·]?)
  | .group grouper items =>
    match key with
    | .str "grouper" _ => some grouper
    | .str "list" _ => some (.seq items)
    | key => (place? key (some 2)).bind ([grouper, .seq items][·]?)
  | .str s _ =>
    let cs := s.toList
    ((place? key (some cs.length)).bind (cs[·]?)).map fun c => text (String.singleton c)
  | v => (v.pairs? spaces).bind (findPair? key)

/-- The member of an object with a name. -/
def member? (spaces : Spaces) (v : Value) (name : String) : Option Value :=
  match v with
  | .str _ _ => Option.none
  | v => v.part? spaces (text name)

/-- The part, if there is one. -/
def orUndefined (v : Value) (part : Option Value) : Result Value :=
  match part with
  | some part => .ok part
  | Option.none => if v.isUndefined then .error .undefinedValue else .ok (.undefined false)

def member (spaces : Spaces) (v : Value) (name : String) : Result Value :=
  v.orUndefined (v.member? spaces name)

def item (spaces : Spaces) (v key : Value) : Result Value :=
  v.orUndefined (v.part? spaces key)

/-- The number that a text is. -/
def digits? (cs : List Char) : Option Nat :=
  match cs with
  | '+' :: c :: cs => if (c :: cs).all Char.isDigit then (String.ofList (c :: cs)).toNat? else Option.none
  | c :: cs => if (c :: cs).all Char.isDigit then (String.ofList (c :: cs)).toNat? else Option.none
  | [] => Option.none

/-- The part that names lead to, one after the other. A number names an item. -/
def follow (spaces : Spaces) (v : Value) : List (List Char) → Result Value
  | [] => .ok v
  | name :: names =>
    let next := match digits? name with
      | some n => v.item spaces (ofNat n)
      | Option.none => v.member spaces (String.ofList name)
    match next with
    | .error e => .error e
    | .ok v => follow spaces v names

/-- A text between the places of a character. -/
def splitAt (separator : Char) : List Char → List (List Char)
  | [] => [[]]
  | c :: cs =>
    if c = separator then [] :: splitAt separator cs
    else
      match splitAt separator cs with
      | [] => [[c]]
      | part :: parts => (c :: part) :: parts

def path (spaces : Spaces) (v : Value) (names : String) : Result Value :=
  v.follow spaces (splitAt '.' names.toList)

/-! ### Slices -/

/-- A whole number as a size of 64 bits. A negative one becomes a very large one. -/
def wrapped (n : Int) : Nat :=
  (n % Decimal.bitLimit 64).toNat

/-- The first place of a slice that goes forward, and the number of places in it. -/
def forward (start stop : Option Int) (size : Nat) : Nat × Nat :=
  let start := start.getD 0
  let first := if start < 0 then wrapped (size + start) else start.toNat
  let last := match stop with
    | Option.none => size
    | some stop => if stop < 0 then wrapped (size + stop) else stop.toNat
  (first, last - first)

/-- Every item whose place is a multiple of `step`, where `n` items are left out before the next one. -/
def everyNth {α : Type} (step : Nat) : Nat → List α → List α
  | _, [] => []
  | 0, x :: xs => x :: everyNth step (step - 1) xs
  | n + 1, _ :: xs => everyNth step n xs

/-- The places of a slice that goes back. -/
def backward (start stop : Option Int) (step size : Nat) : List Nat :=
  let first := match start with
    | Option.none => size - 1
    | some start =>
      if (size : Int) ≤ start then size - 1 else if 0 ≤ start then start.toNat else (size + start).toNat
  let last := match stop with
    | Option.none => 0
    | some stop => if stop < 0 then (size + stop).toNat else stop.toNat
  if first < last then []
  else
    let places := everyNth step 0 ((List.range' last (first + 1 - last)).reverse)
    let count := if last = 0 then (first + step) / step else (first - last + step - 1) / step
    places.take count

/-- The items between two places. -/
def sliceItems {α : Type} (xs : List α) (start stop : Option Int) (step : Int) : List α :=
  if 0 < step then
    let (first, count) := forward start stop xs.length
    everyNth step.toNat 0 ((xs.drop first).take count)
  else (backward start stop step.natAbs xs.length).filterMap (xs[·]?)

/-- An end of a slice. -/
def sliceEnd (v : Value) : Result (Option Int) :=
  match v with
  | .none => .ok Option.none
  | v =>
    match v.index? with
    | some n => .ok (some n)
    | Option.none => .error .invalidOperation

/-- The items of a value between two places. -/
def sliceOf (v : Value) (start stop : Option Int) (step : Int) : Result Value :=
  if step = 0 then .error .invalidOperation
  else
    match v with
    | .undefined _ => .ok (.seq [])
    | .none => .ok (.seq [])
    | .str s _ => .ok (text (String.ofList (sliceItems s.toList start stop step)))
    | .iterator _ false => .error .invalidOperation
    | v =>
      match v.ownItems? with
      | some items => .ok (.iterator (sliceItems items start stop step) true)
      | Option.none => .error .invalidOperation

def slice (v start stop step : Value) : Result Value :=
  if v.isUndefined then .error .undefinedValue
  else
    match sliceEnd start, sliceEnd stop, sliceEnd step with
    | .ok start, .ok stop, .ok step => v.sliceOf start stop (step.getD 1)
    | _, _, _ => .error .invalidOperation

/-! ### Items -/

/-- The value, unless it is undefined. -/
def defined (v : Value) : Result Value :=
  match v with
  | .undefined false => .error .undefinedValue
  | v => .ok v

/-- What a value gives one after the other. -/
def iterate (spaces : Spaces) (v : Value) : Result (List Value) :=
  match v.defined with
  | .error e => .error e
  | .ok v =>
    match v.items? spaces with
    | some items => .ok items
    | Option.none => .error .invalidOperation

/-- Whether a value is in this one: a part of a text, a key of a map, or an item. -/
def holds (spaces : Spaces) (v part : Value) : Result Bool :=
  match v.defined with
  | .error e => .error e
  | .ok (.undefined _) => .ok false
  | .ok (.str s _) => .ok (Text.contains (part.printed spaces).toList s.toList)
  | .ok (.function _) => .ok false
  | .ok v =>
    match v.pairs? spaces with
    | some pairs => .ok (findPair? part pairs).isSome
    | Option.none =>
      match v.ownItems? with
      | some items => .ok (items.any fun item => equal (item.settle spaces) (part.settle spaces))
      | Option.none => .error .invalidOperation

/-- The truth of a value, which has to be known. -/
def truth (spaces : Spaces) (v : Value) : Result Bool :=
  match v.defined with
  | .error e => .error e
  | .ok v => .ok (v.isTrue spaces)

end Value
end Template
end Folio

import Folio.Template.Filter.Number
import Folio.Template.Test

/-!
# Folio.Template.Filter.Items

Filters on values with items.

* `itemFilter?`: the filter with a name.
-/

namespace Folio
namespace Template
namespace Filter

/-- What a value gives one after the other, where anything else is no operation. -/
def listed (s : Setting) (v : Value) : Result (List Value) :=
  match v.iterate s.spaces with
  | .ok items => .ok items
  | .error _ => .error .invalidOperation

def ofValue (f : Spaces → Value → Result Value) : Filter := fun s vs =>
  Take.value.make (f s.spaces) vs

/-- The order of two values. Texts are compared without regard to ASCII case, unless that is asked for. -/
def orderOf (spaces : Spaces) (caseSensitive : Bool) (a b : Value) : Ordering :=
  match a, b with
  | .str s _, .str t _ =>
    if caseSensitive then Ord.compare s t else Ord.compare (Text.asciiLower s) (Text.asciiLower t)
  | a, b => Value.order spaces a b

def sorted {α : Type} (order : α → α → Ordering) (xs : List α) : List α :=
  xs.mergeSort fun x y => order x y != .gt

def length (spaces : Spaces) (v : Value) : Result Value :=
  match v with
  | .str s _ => .ok (Value.ofNat s.length)
  | v =>
    match v.size? spaces with
    | some n => .ok (Value.ofNat n)
    | none => .error .invalidOperation

def ofPair (p : Value × Value) : Value :=
  .seq [p.1, p.2]

def pairsOf (spaces : Spaces) (v : Value) : Result (List (Value × Value)) :=
  match v.pairs? spaces with
  | some pairs => .ok pairs
  | none => .error .invalidOperation

def items (spaces : Spaces) (v : Value) : Result Value :=
  (pairsOf spaces v).map fun pairs => .seq (pairs.map ofPair)

/-- Whether the pairs of a map are ordered by their values. -/
def byValue (named : Named) : Result Bool :=
  match named.optional "by" Value.asName with
  | .error fault => .error fault
  | .ok none => .ok false
  | .ok (some "key") => .ok false
  | .ok (some "value") => .ok true
  | .ok (some _) => .error .invalidOperation

def dictsort : Filter := fun s vs =>
  Take.value.withNamed (fun v named => do
    let pairs ← pairsOf s.spaces v
    let byValue ← byValue named
    let caseSensitive ← named.flag "case_sensitive"
    let reversed ← named.flag "reverse"
    named.expect ["by", "case_sensitive", "reverse"]
    let key := fun (p : Value × Value) => if byValue then p.2 else p.1
    let pairs := sorted (fun p q => orderOf s.spaces caseSensitive (key p) (key q)) pairs
    return .seq ((if reversed then pairs.reverse else pairs).map ofPair)) vs

def reverse (spaces : Spaces) (v : Value) : Result Value :=
  match v with
  | .undefined _ => .ok v
  | .none => .ok v
  | .str s _ => .ok (Value.text (String.ofList s.toList.reverse))
  | v =>
    match v.objectItems? spaces with
    | some items => .ok (.iterator items.reverse true)
    | none => .error .invalidOperation

/-- Texts with a separator between them. No separator stands before the first text that is not empty. -/
def joinTexts (separator : String) (texts : List String) : String :=
  texts.foldl (fun joined text => (if joined.isEmpty then joined else joined ++ separator) ++ text) ""

def join : Filter := fun s vs =>
  Take.make (do return (← Take.value, ← Take.optional (Value.asText s.spaces))) (fun (v, separator) =>
    match v.items? s.spaces with
    | none => .error .invalidOperation
    | some items => .ok (Value.text (joinTexts (separator.getD "") (items.map (·.printed s.spaces))))) vs

def default : Filter := fun s vs =>
  Take.make (do return (← Take.value, ← Take.optional .ok, ← Take.optional Value.asFlag)) (fun (v, other, lax) =>
    if v.isUndefined || (lax.getD false && !v.isTrue s.spaces) then .ok (other.getD (Value.text "")) else .ok v) vs

def attr : Filter := fun s vs =>
  Take.make (do return (← Take.value, ← Take.value)) (fun (v, key) => v.item s.spaces key) vs

def first (spaces : Spaces) (v : Value) : Result Value :=
  match v with
  | .str s _ => .ok (Value.ofOption (s.toList.head?.map fun c => Value.text (String.singleton c)))
  | v =>
    match v.objectItems? spaces with
    | some items => .ok (Value.ofOption items.head?)
    | none => .error .invalidOperation

def last (v : Value) : Result Value :=
  match v with
  | .str s _ => .ok (Value.ofOption (s.toList.getLast?.map fun c => Value.text (String.singleton c)))
  | v =>
    match v.ownItems? with
    | some items => .ok (Value.ofOption items.getLast?)
    | none => .error .invalidOperation

/-- The first of the items that come before all others. -/
def least (spaces : Spaces) : List Value → Option Value
  | [] => none
  | v :: vs => some (vs.foldl (fun a b => if Value.order spaces a b == .gt then b else a) v)

/-- The last of the items that come after all others. -/
def greatest (spaces : Spaces) : List Value → Option Value
  | [] => none
  | v :: vs => some (vs.foldl (fun a b => if Value.order spaces a b == .gt then a else b) v)

def extreme (find : Spaces → List Value → Option Value) : Filter := fun s vs =>
  Take.value.make (fun v => (listed s v).map fun items => Value.ofOption (find s.spaces items)) vs

def list : Filter := fun s vs =>
  Take.value.make (fun v => (listed s v).map .seq) vs

/-- The part of an item that a name leads to. -/
def partOf (s : Setting) (dotted : Option String) (v : Value) : Result Value :=
  match dotted with
  | none => .ok v
  | some names => v.path s.spaces names

/-- The order of two items by a part of them. Where one has no such part, they are left as they are. -/
def orderByPart (s : Setting) (dotted : Option String) (caseSensitive : Bool) (a b : Value) : Ordering :=
  match partOf s dotted a, partOf s dotted b with
  | .ok a, .ok b => orderOf s.spaces caseSensitive a b
  | _, _ => .eq

def sort : Filter := fun s vs =>
  Take.value.withNamed (fun v named => do
    let items ← listed s v
    let caseSensitive ← named.flag "case_sensitive"
    let dotted ← named.optional "attribute" Value.asName
    let reversed ← named.flag "reverse"
    named.expect ["attribute", "case_sensitive", "reverse"]
    let items := sorted (orderByPart s dotted caseSensitive) items
    return .seq (if reversed then items.reverse else items)) vs

/-- Items in groups of `count`, read in at most `n` steps. -/
def groupsOf (count : Nat) (fill : Option Value) : Nat → List Value → List Value
  | 0, _ => []
  | n + 1, vs =>
    if vs.isEmpty then []
    else
      let group := vs.take count
      let missing := count - group.length
      let group := match fill with
        | some v => group ++ List.replicate missing v
        | none => group
      .seq group :: groupsOf count fill n (vs.drop count)

def takeGroups : Take (Value × Nat × Option Value) :=
  return (← Take.value, ← Take.converted Value.asSize, ← Take.optional .ok)

def batch : Filter := fun s vs =>
  takeGroups.make (fun (v, count, fill) =>
    if count = 0 then .error .invalidOperation
    else (v.iterate s.spaces).map fun items => .seq (groupsOf count fill items.length items)) vs

/-- Items in `count` groups, where the first `extra` groups have one item more than the others. -/
def columns (size extra : Nat) (fill : Option Value) : Nat → List Value → List Value
  | 0, _ => []
  | count + 1, vs =>
    let isLong := 0 < extra
    let taken := if isLong then size + 1 else size
    let group := vs.take taken
    let group := match fill with
      | some v => if isLong then group else group ++ [v]
      | none => group
    .seq group :: columns size (extra - 1) fill count (vs.drop taken)

def slice : Filter := fun s vs =>
  takeGroups.make (fun (v, count, fill) =>
    if count = 0 then .error .invalidOperation
    else (v.iterate s.spaces).map fun items =>
      .seq (columns (items.length / count) (items.length % count) fill count items)) vs

/-- The sum of numbers, added to one that is given. -/
def sumFrom (total : Value) : List Value → Result Value
  | [] => .ok total
  | v :: vs =>
    if v.isUndefined then sumFrom total vs
    else
      match Value.add total v with
      | .error fault => .error fault
      | .ok total => sumFrom total vs

def sum : Filter := fun s vs =>
  Take.value.make (fun v =>
    match v.iterate s.spaces with
    | .error fault => .error fault
    | .ok items => sumFrom (.int 0) items) vs

/-- Whether an item passes a test, or counts as true where there is none. -/
def passes (s : Setting) (test : Option Test) (arguments : List Value) (v : Value) : Result Bool :=
  match test with
  | some test => test s (v :: arguments)
  | none => .ok (v.isTrue s.spaces)

/-- The items that pass a test, or those that do not. -/
def selectFrom (s : Setting) (wanted : Bool) (dotted : Option String) (test : Option Test)
    (arguments : List Value) : List Value → Result (List Value)
  | [] => .ok []
  | v :: vs => do
    let part ← partOf s dotted v
    let passed ← passes s test arguments part
    let rest ← selectFrom s wanted dotted test arguments vs
    return if passed == wanted then v :: rest else rest

def select (wanted byPart : Bool) : Filter := fun s vs =>
  let text := Value.asText s.spaces
  let take : Take (Value × Option String × Option String × List Value) := do
    let v ← Take.value
    let dotted ← if byPart then some <$> Take.converted text else pure none
    return (v, dotted, ← Take.optional text, ← Take.rest)
  take.make (fun (v, dotted, name, arguments) => do
    let test ← match name with
      | none => pure none
      | some name =>
        match Test.ofName? name with
        | some test => pure (some test)
        | none => throw .unknownTest
    return .seq (← selectFrom s wanted dotted test arguments (← v.iterate s.spaces))) vs

/-- The part of an item, or a value for those that have none. -/
def partOrDefault (s : Setting) (dotted : String) (other : Value) (v : Value) : Value :=
  match v.path s.spaces dotted with
  | .ok part => if part.isUndefined then other else part
  | .error _ => other

/-- Ordered items with their keys, in groups of those with one key. -/
def groupRuns (order : Value → Value → Ordering) : List (Value × Value) → List (Value × List Value)
  | [] => []
  | (key, v) :: rest =>
    match groupRuns order rest with
    | [] => [(key, [v])]
    | (next, vs) :: groups =>
      if order key next == .eq then (next, v :: vs) :: groups else (key, [v]) :: (next, vs) :: groups

def groupby : Filter := fun s vs =>
  Take.withNamed (do return (← Take.value, ← Take.optional Value.asName)) (fun (v, dotted) named => do
    let other := ((← named.optional "default" .ok)).getD (.undefined false)
    let caseSensitive ← named.flag "case_sensitive"
    let dotted ← match dotted with
      | some dotted => pure dotted
      | none =>
        match named.get? "attribute" with
        | some v => v.asName
        | none => throw .missingArgument
    named.expect (["default", "case_sensitive", "attribute"])
    let items ← match v.items? s.spaces with
      | some items => pure items
      | none => throw .invalidOperation
    let order := orderOf s.spaces caseSensitive
    let keyed := items.map fun v => (partOrDefault s dotted other v, v)
    return .seq ((groupRuns order (sorted (fun p q => order p.1 q.1) keyed)).map fun g => .group g.1 g.2)) vs

/-- What items are told apart by. -/
def uniqueKey (caseSensitive : Bool) (v : Value) : Value :=
  match v with
  | .str s _ => if caseSensitive then v else Value.text (String.ofList (Text.toLower s.toList))
  | v => v

/-- Items with their keys, without those whose key was met before. -/
def uniqueFrom (spaces : Spaces) (seen : List Value) : List (Value × Value) → List Value
  | [] => []
  | (key, v) :: rest =>
    if seen.any fun k => Value.order spaces k key == .eq then uniqueFrom spaces seen rest
    else v :: uniqueFrom spaces (key :: seen) rest

def unique : Filter := fun s vs =>
  Take.value.withNamed (fun v named => do
    let dotted ← named.optional "attribute" Value.asName
    let caseSensitive ← named.flag "case_sensitive"
    named.expect ["attribute", "case_sensitive"]
    let items ← listed s v
    let keyed ← items.mapM fun v => return (uniqueKey caseSensitive (← partOf s dotted v), v)
    return .seq (uniqueFrom s.spaces [] keyed)) vs

/-- Values one after the other: maps make one map. -/
def chain : Filter := fun s vs =>
  Take.make (do return (← Take.value, ← Take.rest)) (fun (v, others) => do
    let all := v :: others
    match all.mapM fun v => v.pairs? s.spaces with
    | some pairs => return .map (Value.sortPairs pairs.flatten)
    | none =>
      let items ← all.mapM fun v => v.iterate s.spaces
      if all.all fun v => v.kind == .seq then return .seq items.flatten
      else return .iterator items.flatten false) vs

/-- Lists of the items at one place, as far as all have one. `n` places are read at most. -/
def zipItems : Nat → List (List Value) → List Value
  | 0, _ => []
  | n + 1, lists =>
    match lists.mapM List.head? with
    | some heads => .seq heads :: zipItems n (lists.map List.tail)
    | none => []

def zip : Filter := fun s vs =>
  Take.make (do return (← Take.value, ← Take.rest)) (fun (v, others) => do
    let lists ← (v :: others).mapM fun v => listed s v
    let longest := (lists.map List.length).foldl max 0
    return .iterator (zipItems longest lists) true) vs

/-- The filters on values with items. -/
def itemFilter? : String → Option Filter
  | "length" => some (ofValue length)
  | "count" => some (ofValue length)
  | "items" => some (ofValue items)
  | "dictsort" => some dictsort
  | "reverse" => some (ofValue reverse)
  | "join" => some join
  | "default" => some default
  | "d" => some default
  | "attr" => some attr
  | "first" => some (ofValue first)
  | "last" => some (ofValue fun _ v => last v)
  | "min" => some (extreme least)
  | "max" => some (extreme greatest)
  | "sort" => some sort
  | "list" => some list
  | "batch" => some batch
  | "slice" => some slice
  | "sum" => some sum
  | "select" => some (select true false)
  | "reject" => some (select false false)
  | "selectattr" => some (select true true)
  | "rejectattr" => some (select false true)
  | "groupby" => some groupby
  | "unique" => some unique
  | "chain" => some chain
  | "zip" => some zip
  | _ => none

end Filter
end Template
end Folio

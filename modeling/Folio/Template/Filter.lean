import Folio.Template.Filter.Items

/-!
# Folio.Template.Filter

The filters that can follow a value.

* `Filter.apply`: applies the filter with a name. The filter `map` applies others, named by one argument less, so that
  `n` bounds how often it can be named.
-/

namespace Folio
namespace Template
namespace Filter

/-- The part of a value by its key, or by a dotted name. -/
def partBy (s : Setting) (part v : Value) : Result Value :=
  match part with
  | .str names _ => v.path s.spaces names
  | key => v.item s.spaces key

/-- What is found, or the value for what is not found, if there is one. -/
def orOther (found : Result Value) : Option Value → Result Value
  | none => found
  | some other =>
    match found with
    | .ok v => .ok (if v.isUndefined then other else v)
    | .error _ => .ok other

/-- A part of each item. -/
def mapParts (s : Setting) (part : Value) (other : Option Value) : List Value → Result (List Value)
  | [] => .ok []
  | v :: vs =>
    match orOther (partBy s part v) other with
    | .error fault => .error fault
    | .ok found => (mapParts s part other vs).map (found :: ·)

/-- The value of a filter for each item. -/
def mapEach (s : Setting) (f : Filter) (arguments : List Value) : List Value → Result (List Value)
  | [] => .ok []
  | v :: vs =>
    match f s (v :: arguments) with
    | .error fault => .error fault
    | .ok v => (mapEach s f arguments vs).map (v :: ·)

/-- Maps the items of a value, by a part of them or by a filter. -/
def mapItems (find? : String → Option Filter) : Filter := fun s vs =>
  Take.make (do return (← Take.value, ← Take.rest)) (fun (v, others) => do
    let (positional, named) := Named.split others
    match ← named.optional "attribute" .ok with
    | some part =>
      if !positional.isEmpty then throw .tooManyArguments
      let other := (named.get? "default").bind fun v => if v.isUndefined then none else some v
      let items ← mapParts s part other (← v.iterate s.spaces)
      named.expect ["attribute", "default"]
      return .seq items
    | none =>
      match others with
      | .str name _ :: arguments =>
        match find? name with
        | some f => return .seq (← mapEach s f arguments (← v.iterate s.spaces))
        | none => throw .unknownFilter
      | _ => throw .invalidOperation) vs

/-- The filter with a name. -/
def find? : Nat → String → Option Filter
  | 0, _ => none
  | n + 1, name =>
    if name = "map" then some (mapItems (find? n))
    else ((textFilter? name).or (numberFilter? name)).or (itemFilter? name)

/-- Applies the filter with a name. -/
def apply (s : Setting) (name : String) (vs : List Value) : Result Value :=
  match find? (vs.length + 1) name with
  | some f => f s vs
  | none => .error .unknownFilter

end Filter
end Template
end Folio

import Folio.Template.Escape

/-!
# Folio.Template.Arguments

What a function, a filter or a test is called with.

* `Take`: reading arguments one after the other. Those that are left over are too many.
* `Named`: the named arguments. Those that are not expected are too many.
* `Setting`: what a filter or a test knows of the place it is called from.
-/

namespace Folio
namespace Template

/-- What a filter or a test knows of the place it is called from. -/
structure Setting where
  spaces : Spaces
  escaping : Escaping

/-- Reading from a list of arguments. -/
abbrev Take := StateT (List Value) (Except TemplateFault)

/-! ### Conversions -/

namespace Value

def asText (spaces : Spaces) (v : Value) : Result String :=
  match v with
  | .named _ => .error .invalidOperation
  | v => .ok (v.printed spaces)

def asName (v : Value) : Result String :=
  match v with
  | .str s _ => .ok s
  | _ => .error .invalidOperation

def asFlag (v : Value) : Result Bool :=
  match v with
  | .bool b => .ok b
  | _ => .error .invalidOperation

/-- A whole number from `low` up to `high`. -/
def asInt (low high : Int) (v : Value) : Result Int :=
  match v.int? with
  | some n => if low ≤ n && n ≤ high then .ok n else .error .invalidOperation
  | Option.none => .error .invalidOperation

/-- A size of at most 64 bits. -/
def asSize (v : Value) : Result Nat :=
  (v.asInt 0 (Decimal.bitLimit 64 - 1)).map Int.toNat

def asWord (v : Value) : Result Int :=
  v.asInt (-Decimal.bitLimit 63) (Decimal.bitLimit 63 - 1)

end Value

namespace Take

/-- The next argument, which may be undefined. -/
def value : Take Value := fun vs =>
  match vs with
  | [] => .error .missingArgument
  | v :: vs => .ok (v, vs)

/-- The next argument, which may not be undefined. -/
def converted {α : Type} (convert : Value → Result α) : Take α := fun vs =>
  match vs with
  | [] => .error .missingArgument
  | v :: vs =>
    if v.isUndefined then .error .undefinedValue
    else
      match convert v with
      | .error fault => .error fault
      | .ok x => .ok (x, vs)

/-- The next argument, if there is one with a value. -/
def optional {α : Type} (convert : Value → Result α) : Take (Option α) := fun vs =>
  match vs with
  | [] => .ok (none, [])
  | v :: vs =>
    if v.isUndefined || v.isNone then .ok (none, vs)
    else
      match convert v with
      | .error fault => .error fault
      | .ok x => .ok (some x, vs)

def rest : Take (List Value) := fun vs =>
  .ok (vs, [])

/-- Reads arguments, of which none may be left. -/
def all {α : Type} (take : Take α) (vs : List Value) : Result α :=
  match take vs with
  | .error fault => .error fault
  | .ok (x, []) => .ok x
  | .ok (_, _ :: _) => .error .tooManyArguments

end Take

/-- The named arguments of a call. -/
abbrev Named := List (Value × Value)

namespace Named

/-- The named arguments at the end, and those before them. -/
def split (vs : List Value) : List Value × Named :=
  match vs.getLast? with
  | some (.named pairs) => (vs.dropLast, pairs)
  | _ => (vs, [])

def get? (named : Named) (name : String) : Option Value :=
  Value.findPair? (Value.text name) named

/-- The argument with a name, if it has a value. -/
def optional {α : Type} (named : Named) (name : String) (convert : Value → Result α) : Result (Option α) :=
  match named.get? name with
  | none => .ok none
  | some v => if v.isUndefined || v.isNone then .ok none else (convert v).map some

/-- The flag with a name. It is off where it is not given. -/
def flag (named : Named) (name : String) : Result Bool :=
  (named.optional name Value.asFlag).map (·.getD false)

/-- Refuses all but the expected names. -/
def expect (named : Named) (names : List String) : Result Unit :=
  let isExpected := fun (p : Value × Value) => match p.1 with
    | .str s _ => names.contains s
    | _ => true
  if named.all isExpected then .ok () else .error .tooManyArguments

end Named

/-- Reads arguments, where those with names stand last. More positional ones than are read are a fault. -/
def Take.withNamed {α : Type} (take : Take α) (use : α → Named → Result Value) (vs : List Value) : Result Value :=
  let (positional, named) := Named.split vs
  match take positional with
  | .error fault => .error fault
  | .ok (x, []) => use x named
  | .ok (_, _ :: _) => .error .invalidOperation

/-- Reads arguments, and takes the value that is made from them. -/
def Take.make {α : Type} (take : Take α) (use : α → Result Value) (vs : List Value) : Result Value :=
  match take.all vs with
  | .error fault => .error fault
  | .ok x => use x

end Template
end Folio

import Folio.Template.Call

/-!
# Folio.Template.Evaluation

The values of expressions.

* `Expr.eval`: the value of an expression.
* `Target.assign`: gives a value to a target.
-/

namespace Folio
namespace Template

/-- What an expression is given from outside: the text that its first filter is for, and the named arguments that its
call has besides those that are written. -/
structure Given where
  input : Value := .undefined false
  named : List (Value × Value) := []

def Value.ofLiteral : Literal → Value
  | .none => .none
  | .bool b => .bool b
  | .int n => .int n
  | .float x => .float x
  | .str s => Value.text s

/-- The arguments of a call, those with names at the end if there are any. -/
def withNamed (positional : List Value) (hasNamed : Bool) (named : List (Value × Value)) : List Value :=
  if hasNamed then positional ++ [.named (Value.sortPairs named)] else positional

def Argument.isNamed : Argument → Bool
  | .named _ _ => true
  | .spreadNamed _ => true
  | _ => false

/-- The pairs of a value that is spread over named arguments. -/
def spreadPairs (v : Value) : Run (List (Value × Value)) := do
  let v ← Run.ofResult v.defined
  match v.pairs? (← get).spaces with
  | some pairs => return pairs
  | none => Run.fail .invalidOperation

def iterate (v : Value) : Run (List Value) := do
  Run.ofResult (v.iterate (← get).spaces)

def applyFilter (name : String) (v : Value) (vs : List Value) : Run Value := do
  Run.ofResult (Filter.apply (← get).setting name (v :: vs))

def applyTest (name : String) (v : Value) (vs : List Value) : Run Value := do
  match Test.ofName? name with
  | none => Run.fail .unknownTest
  | some test => return .bool (← Run.ofResult (test (← get).setting (v :: vs)))

mutual

def Expr.eval (worker : Worker) (given : Given) : Expr → Run Value
  | .literal l => return Value.ofLiteral l
  | .name id => return Value.ofOption ((← get).lookup? id)
  | .unary .not e => do
    return .bool (!(← Run.truth (← e.eval worker {})))
  | .unary .negate e => do
    Run.ofResult (Value.negate (← e.eval worker {}))
  | .binary .either a b => do
    let v ← a.eval worker {}
    if ← Run.truth v then return v else b.eval worker {}
  | .binary .both a b => do
    let v ← a.eval worker {}
    if ← Run.truth v then b.eval worker {} else return v
  | .binary op a b => do
    let v ← a.eval worker {}
    let w ← b.eval worker {}
    Run.ofResult (Value.operate (← get).spaces op v w)
  | .choice test yes no => do
    if ← Run.truth (← test.eval worker {}) then yes.eval worker {}
    else Expr.evalOptional worker (.undefined true) no
  | .filter name e arguments => do
    let v ← Expr.evalOptional worker given.input e
    applyFilter name v (← Argument.evalAll worker [] arguments)
  | .test name e arguments => do
    let v ← e.eval worker {}
    applyTest name v (← Argument.evalAll worker [] arguments)
  | .member e name => do
    let v ← e.eval worker {}
    Run.ofResult (v.member (← get).spaces name)
  | .item e key => do
    let v ← e.eval worker {}
    let k ← key.eval worker {}
    Run.ofResult (v.item (← get).spaces k)
  | .slice e start stop step => do
    let v ← e.eval worker {}
    let start ← Expr.evalOptional worker .none start
    let stop ← Expr.evalOptional worker .none stop
    let step ← Expr.evalOptional worker .none step
    Run.ofResult (v.slice start stop step)
  | .call (.name id) arguments => do
    Run.callName worker id (← Argument.evalAll worker given.named arguments)
  | .call (.member (.name "self") name) _ => Run.blockText worker name
  | .call (.member e name) arguments => do
    let v ← e.eval worker {}
    v.callMethod worker name (← Argument.evalAll worker given.named arguments)
  | .call e arguments => do
    let v ← e.eval worker {}
    v.call worker (← Argument.evalAll worker given.named arguments)
  | .list items => return .seq (← Expr.evalAll worker items)
  | .dict pairs => return .map (Value.sortPairs (← Expr.evalPairs worker pairs))

/-- The value of an expression, or another value where there is none. -/
def Expr.evalOptional (worker : Worker) (other : Value) : Option Expr → Run Value
  | none => return other
  | some e => e.eval worker { input := other }

def Expr.evalAll (worker : Worker) : List Expr → Run (List Value)
  | [] => return []
  | e :: es => do
    let v ← e.eval worker {}
    return v :: (← Expr.evalAll worker es)

def Expr.evalPairs (worker : Worker) : List (Expr × Expr) → Run (List (Value × Value))
  | [] => return []
  | (key, value) :: pairs => do
    let k ← key.eval worker {}
    let v ← value.eval worker {}
    return (k, v) :: (← Expr.evalPairs worker pairs)

/-- The values of the arguments without names. -/
def Argument.evalPositional (worker : Worker) : List Argument → Run (List Value)
  | [] => return []
  | .positional e :: as => do
    let v ← e.eval worker {}
    return v :: (← Argument.evalPositional worker as)
  | .spread e :: as => do
    let vs ← iterate (← e.eval worker {})
    return vs ++ (← Argument.evalPositional worker as)
  | _ :: as => Argument.evalPositional worker as

/-- The pairs of the arguments with names. -/
def Argument.evalNamed (worker : Worker) : List Argument → Run (List (Value × Value))
  | [] => return []
  | .named name e :: as => do
    let v ← e.eval worker {}
    return (Value.text name, v) :: (← Argument.evalNamed worker as)
  | .spreadNamed e :: as => do
    let pairs ← spreadPairs (← e.eval worker {})
    return pairs ++ (← Argument.evalNamed worker as)
  | _ :: as => Argument.evalNamed worker as

def Argument.evalAll (worker : Worker) (more : List (Value × Value)) (arguments : List Argument) :
    Run (List Value) := do
  let positional ← Argument.evalPositional worker arguments
  let named ← Argument.evalNamed worker arguments
  return withNamed positional (arguments.any Argument.isNamed || !more.isEmpty) (named ++ more)

end

def assignMember (v : Value) (name : String) (value : Value) : Run Unit :=
  match v with
  | .space id => modify fun m => { m with spaces := m.spaces.modify id (Value.insertPair (Value.text name) value) }
  | _ => Run.fail .invalidOperation

/-- The items of a value that is given to a list of `count` targets. -/
def unpack (v : Value) (count : Nat) : Run (List Value) := do
  match v.objectItems? (← get).spaces with
  | none => Run.fail .cannotUnpack
  | some items => if items.length = count then return items else Run.fail .cannotUnpack

mutual

def Target.assign (worker : Worker) : Target → Value → Run Unit
  | .name id, v => Run.store id v
  | .list targets, v => do Target.assignAll worker targets (← unpack v targets.length)
  | .member e id, v => do assignMember (← e.eval worker {}) id v

def Target.assignAll (worker : Worker) : List Target → List Value → Run Unit
  | [], _ => return ()
  | _ :: _, [] => return ()
  | t :: ts, v :: vs => do
    Target.assign worker t v
    Target.assignAll worker ts vs

end

end Template
end Folio

import Folio.Template.Machine

/-!
# Folio.Template.Call

Calls of functions, macros and methods.

* `Job`: work that a call asks for, and which may call again.
* `Value.call`, `Value.callMethod`: the value of a call.
* `Run.callBlock`, `Run.callSuper`, `Run.callLoop`: a block, the block that the present one replaces, and the present
  loop once more.
-/

namespace Folio
namespace Template

/-- Work that is begun in the midst of other work.

* `statements`: the statements of a template or of a block.
* `routine`: the body of a macro, with a value for each parameter.
* `again`: a loop over the items of a value. -/
inductive Job where
  | statements (ss : List Statement)
  | routine (r : Routine) (values : List Value)
  | again (target : Target) (body : List Statement) (items : Value)

/-- How a job is done. -/
abbrev Worker := Job → Run Unit

namespace Builtin

def rangeItems (low high step : Int) : Nat → List Value
  | 0 => []
  | n + 1 => if (0 < step && low < high) || (step < 0 && high < low) then
      .int low :: rangeItems (low + step) high step n
    else []

def maxRange : Nat := 100000

def callRange : List Value → Result Value :=
  Take.make (do return (← Take.converted Value.asWord, ← Take.optional Value.asWord, ← Take.optional Value.asWord))
    fun (low, high, step) =>
      let (low, high) := match high with
        | some high => (low, high)
        | none => (0, low)
      let step := step.getD 1
      if step = 0 then .error .invalidOperation
      else
        let items := rangeItems low high step (maxRange + 1)
        if maxRange < items.length then .error .invalidOperation else .ok (.iterator items true)

/-- The pairs of a value that is given to a function, if one is. -/
def givenPairs (spaces : Spaces) : Option Value → Result (List (Value × Value))
  | none => .ok []
  | some v =>
    match v.pairs? spaces with
    | some pairs => .ok pairs
    | none => .error .invalidOperation

def callDict (spaces : Spaces) : List Value → Result Value :=
  (Take.optional .ok).withNamed fun given named =>
    (givenPairs spaces given).map fun pairs => .map (Value.sortPairs (pairs ++ named))

def spaceNames (spaces : Spaces) (vs : List Value) : Result (List (Value × Value)) := do
  let given ← (Take.optional .ok).all vs
  return Value.sortPairs ((← givenPairs spaces given).filter fun p => p.1.text?.isSome)

def callDebug (spaces : Spaces) (vs : List Value) : Value :=
  match vs with
  | [v] => Value.text (v.prettyText spaces)
  | vs => Value.text ((Value.seq vs).prettyText spaces)

end Builtin

def Builtin.call (f : Builtin) (vs : List Value) : Run Value := do
  let spaces := (← get).spaces
  match f with
  | .range => Run.ofResult (Builtin.callRange vs)
  | .dict => Run.ofResult (Builtin.callDict spaces vs)
  | .debug => return Builtin.callDebug spaces vs
  | .namespace =>
    let names ← Run.ofResult (Builtin.spaceNames spaces vs)
    modify fun m => { m with spaces := m.spaces.push names }
    return .space spaces.size

namespace Routine

/-- The value of each parameter in a call. One that is given twice is too much. -/
def bind (named : Named) : List String → List Value → Result (List Value)
  | [], [] => .ok []
  | [], _ :: _ => .error .tooManyArguments
  | name :: names, [] => (bind named names []).map (Value.ofOption (named.get? name) :: ·)
  | name :: names, v :: vs =>
    if (named.get? name).isSome then .error .tooManyArguments else (bind named names vs).map (v :: ·)

/-- The values for a call, and that of the body of the call. -/
def arguments (r : Routine) (vs : List Value) : Result (List Value × Value) := do
  let (positional, named) := Named.split vs
  if r.parameters.names.length < positional.length then throw .tooManyArguments
  let values ← bind named r.parameters.names positional
  named.expect (r.parameters.names ++ if r.usesCaller then ["caller"] else [])
  return (values, Value.ofOption (named.get? "caller"))

/-- What a call of a macro counts for, in scopes. -/
def cost : Nat := 4

/-- The lowest scope, without its own names. -/
def ground (m : Machine) : Frame :=
  match m.frames.getLast? with
  | some f => { ground := f.ground }
  | none => {}

/-- The machine in which the body of a macro begins. It sees the values that the template was given, and the names
that were taken for it. -/
def inner (r : Routine) (caller : Value) (m : Machine) : Machine :=
  let frame : Frame := { ground := (r.closure.map Ground.taken).getD .nothing }
  let inner := { m with
    frames := [frame, ground m], outer := m.depth + cost, written := [], discards := false
    block := none, blocks := [], loaded := [], parent := none }
  if r.usesCaller then inner.store "caller" caller else inner

/-- Calls a macro: the text that it writes. -/
def call (worker : Worker) (r : Routine) (vs : List Value) : Run Value := do
  let (values, caller) ← Run.ofResult (r.arguments vs)
  let outside ← get
  set (r.inner caller outside)
  Run.checkDepth
  worker (.routine r values)
  let inside ← get
  set { outside with spaces := inside.spaces, closures := inside.closures, asked := inside.asked }
  Run.writtenValue (String.join inside.written.reverse)

end Routine

namespace Value

def call (worker : Worker) (f : Value) (vs : List Value) : Run Value :=
  match f with
  | .function f => f.call vs
  | .routine r => r.call worker vs
  | .loop _ _ _ _ _ _ => Run.fail .unknownFunction
  | _ => Run.fail .invalidOperation

/-- Whether the arguments differ from those of the question before. -/
def askChanged (id : Nat) (vs : List Value) : Run Value := do
  let m ← get
  let isSame := match m.asked[id]?.getD Option.none with
    | some old => old.length == vs.length && (List.zipWith (Value.same m.spaces) old vs).all (· == true)
    | Option.none => false
  if isSame then return .bool false
  else
    set { m with asked := m.asked.modify id fun _ => some vs }
    return .bool true

def callMember (worker : Worker) (v : Value) (name : String) (vs : List Value) : Run Value := do
  if v.isObject then
    match v.member? (← get).spaces name with
    | some f => f.call worker vs
    | Option.none => Run.fail .unknownMethod
  else Run.fail .unknownMethod

def callMethod (worker : Worker) (v : Value) (name : String) (vs : List Value) : Run Value :=
  match v, name with
  | .loop id _ _ _ _ _, "changed" => askChanged id vs
  | .loop _ index _ _ _ _, "cycle" => return ofOption vs[index % vs.length]?
  | v, name => v.callMember worker name vs

end Value

namespace Run

def callBlock (worker : Worker) (name : String) : Run Unit := do
  match (← get).blocks.lookup name with
  | none => fail .unknownBlock
  | some chain =>
    let old := (← get).block
    modify fun m => { m with block := some name }
    inFrame {} (worker (.statements (chain.bodies[chain.level]?.getD [])))
    modify fun m => { m with block := old }

/-- The machine in which a block stands at another level. -/
def atLevel (name : String) (level : Nat) (m : Machine) : Machine :=
  { m with blocks := m.blocks.map fun p => if p.1 = name then (p.1, { p.2 with level }) else p }

/-- The text of the block that the present one replaces. -/
def callSuper (worker : Worker) : Run Value := do
  match (← get).block with
  | none => fail .invalidOperation
  | some name =>
    match (← get).blocks.lookup name with
    | none => fail .invalidOperation
    | some chain =>
      match chain.bodies[chain.level + 1]? with
      | none => fail .invalidOperation
      | some body =>
        modify (atLevel name (chain.level + 1))
        let (_, s) ← captured (inFrame {} (failingAs .blockFailed (worker (.statements body))))
        modify (atLevel name chain.level)
        writtenValue s

def callLoop (worker : Worker) (items : Value) : Run Value := do
  match (← get).loop? with
  | none => fail .unknownFunction
  | some l =>
    match l.again with
    | none => fail .invalidOperation
    | some (target, body) =>
      let (_, s) ← captured (worker (.again target body items))
      writtenValue s

def callName (worker : Worker) (name : String) (vs : List Value) : Run Value := do
  match name, vs with
  | "super", [] => callSuper worker
  | "super", _ => fail .invalidOperation
  | "loop", [items] => callLoop worker items
  | "loop", _ => fail .invalidOperation
  | name, vs =>
    match (← get).lookup? name with
    | some f => f.call worker vs
    | none => fail .unknownFunction

/-- The text of a block, by its name. A template that is replaced by another one has none. -/
def blockText (worker : Worker) (name : String) : Run Value := do
  if (← get).parent.isSome then writtenValue ""
  else
    let (_, s) ← captured (callBlock worker name)
    writtenValue s

end Run
end Template
end Folio

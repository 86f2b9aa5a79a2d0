import Folio.Template.Evaluation

/-!
# Folio.Template.Execution

What the statements of a template do.

* `Loader`: gives the templates that others name.
* `Statement.exec`: does a statement. Its `Signal` says whether the loop around it goes on.
* `runLoop`: the body of a loop for each item.
* `work`: the worker that does jobs with statements, up to a number of jobs that are begun in each other.
-/

namespace Folio
namespace Template

/-- The template with a name, or why there is none. -/
abbrev Loader := String → Except TemplateFault Document

/-- How the statements after one go on: as they stand, with the next item, or after the loop. -/
inductive Signal where
  | next
  | skip
  | leave
  deriving DecidableEq, Repr

/-! ### Loops -/

/-- Does something with each item, until it says that the loop is left: the number of the item that was last, or how
many items there are. -/
def turns (enter : Nat → Option Value → Option Value → Value → Run Unit) (body : Run Signal) (index : Nat)
    (before : Option Value) : List Value → Run Nat
  | [] => return index
  | v :: vs => do
    enter index before vs.head? v
    match ← body with
    | .leave => return index
    | _ => turns enter body (index + 1) (some v) vs

/-- The depth of a loop that is begun here: it grows where the loop around it can be started again. -/
def loopDepth (m : Machine) : Nat :=
  match m.loop? with
  | none => 0
  | some l => if l.again.isSome then l.depth + 1 else 0

/-- The number of items of a value, if it is known. -/
def itemCount (v : Value) (items : List Value) : Option Nat :=
  match v with
  | .iterator _ false => none
  | _ => some items.length

/-- Does the body for each item of a value. Whether there was an item after the first one or the first one was not
left, which is how a loop without items is told. -/
def runLoop (worker : Worker) (again : Option (Target × List Statement)) (isNamed : Bool) (target : Target)
    (v : Value) (body : Run Signal) : Run Bool := do
  let items ← iterate v
  let m ← get
  let start : LoopFrame := ⟨m.asked.size, isNamed, again, 0, loopDepth m, itemCount v items, none, none⟩
  modify fun m => { m with asked := m.asked.push none }
  let enter := fun index before after v => do
    modify fun m => m.mapTop fun f => { f with loop := some { start with index, before, after } }
    target.assign worker v
  let last ← Run.inFrame { loop := some start } (turns enter body 0 none items)
  return last != 0

/-- The items of a value for which a condition holds. -/
def chosenItems (worker : Worker) (target : Target) (v : Value) (condition : Expr) : Run Value := do
  let items ← iterate v
  let m ← get
  let start : LoopFrame := ⟨0, false, none, 0, loopDepth m, none, none, none⟩
  let chosen ← Run.inFrame { loop := some start } <| items.filterM fun v => do
    target.assign worker v
    Run.truth (← condition.eval worker {})
  return .seq chosen

/-! ### Other templates -/

def templateName (v : Value) : Run String :=
  match v.text? with
  | some name => return name
  | none => Run.fail .invalidOperation

/-- Takes up a template that the present one inherits from. What the present one writes from here on is dropped. -/
def inheritFrom (load : Loader) (v : Value) : Run Unit := do
  if (← get).parent.isSome then Run.fail .invalidOperation
  let name ← templateName v
  if (← get).loaded.contains name then Run.fail .invalidOperation
  let document ← Run.ofResult (load name)
  modify fun m => { m with
    loaded := name :: m.loaded, blocks := addBlocks m.blocks document.blocks, parent := some document
    discards := true }

/-- The names that a value gives to templates. -/
def templateNames (v : Value) : Run (List Value) := do
  match v.objectItems? (← get).spaces with
  | some names => return names
  | none => return [v]

/-- The first of the named templates that there is. -/
def firstTemplate (load : Loader) : List Value → Run (Option Document)
  | [] => return none
  | v :: vs => do
    match load (← templateName v) with
    | .ok document => return some document
    | .error .templateNotFound => firstTemplate load vs
    | .error fault => Run.fail fault

/-- What another template counts for, in scopes. -/
def insertCost : Nat := 10

/-- Writes another template here, with its own blocks and without escaping. It sees the names of this one. -/
def insertDocument (worker : Worker) (document : Document) : Run Unit := do
  let outside ← get
  let closure := outside.closure?
  set { outside.mapTop (fun f => { f with closure := none }) with
    escaping := .none, blocks := addBlocks [] document.blocks }
  Run.deeper insertCost (Run.failingAs .badInclude (worker (.statements document.body)))
  modify fun m => { m.mapTop (fun f => { f with closure }) with
    escaping := outside.escaping, blocks := outside.blocks, loaded := outside.loaded }

/-- Writes the first of the named templates. -/
def insertFirst (load : Loader) (worker : Worker) (v : Value) (ignoreMissing : Bool) : Run Unit := do
  let names ← templateNames v
  match ← firstTemplate load names with
  | some document => insertDocument worker document
  | none => if names.isEmpty || ignoreMissing then return () else Run.fail .templateNotFound

/-- The names of the innermost scope as a value. -/
def library (s : String) : Run Value := do
  match (← get).frames with
  | [] => return .library [] s
  | f :: _ => return .library (Value.sortPairs (f.names.map fun p => (Value.text p.1, p.2))) s

def loadLibrary (load : Loader) (worker : Worker) (v : Expr) : Run Value := do
  let (names, s) ← Run.captured <| Run.inFrame {} do
    insertFirst load worker (← v.eval worker {}) false
    library ""
  match names with
  | .library pairs _ => return .library pairs s
  | v => return v

/-- The values of some names of another template. -/
def takeNames (load : Loader) (worker : Worker) (v : Expr) (names : List String) : Run (List Value) :=
  Run.discarded <| Run.inFrame {} do
    insertFirst load worker (← v.eval worker {}) false
    let m ← get
    return names.map fun name => Value.ofOption (m.lookup? name)

/-! ### Macros -/

/-- The macro with a body, which takes the names that it needs from here. -/
def makeRoutine (name : String) (parameters : Parameters) (body : List Statement) : Run Routine := do
  let free := freeNames parameters body
  let taken := free.filter (· != "caller")
  modify fun m => taken.foldl Machine.enclose m
  return ⟨name, parameters, body, (← get).closure?, free.contains "caller"⟩

/-- Each parameter of a macro with the value for a call that gives none, last one first. -/
def Parameters.lastFirst (p : Parameters) : List (String × Option Expr) :=
  let defaults := p.defaults.reverse
  p.names.reverse.zip (defaults.map some ++ List.replicate (p.names.length - defaults.length) none)

/-- Gives the parameters of a macro their values. -/
def bindParameters (worker : Worker) : List ((String × Option Expr) × Value) → Run Unit
  | [] => return ()
  | ((name, other), v) :: rest => do
    let v ← match other with
      | none => pure v
      | some e => if v.isUndefined then e.eval worker {} else pure v
    Run.store name v
    bindParameters worker rest

/-! ### Statements -/

/-- The value of a call, given the body of the call as one more argument. -/
def callWithBody (worker : Worker) (callee : Expr) (arguments : List Argument) (body : Routine) : Run Value :=
  (Expr.call callee arguments).eval worker { named := [(Value.text "caller", .routine body)] }

def throughFilter (worker : Worker) (filter : Option Expr) (s : String) : Run Value := do
  let v ← Run.writtenValue s
  match filter with
  | none => return v
  | some e => e.eval worker { input := v }

mutual

/-- Does a statement. -/
def Statement.exec (load : Loader) (worker : Worker) : Statement → Run Signal
  | .text cs => do
    Run.emit (String.ofList cs)
    return .next
  | .print e => do
    Run.print (← e.eval worker {})
    return .next
  | .loop target items condition isRecursive body otherwise => do
    let v ← items.eval worker {}
    let v ← match condition with
      | none => pure v
      | some condition => chosenItems worker target v condition
    let again := if isRecursive then some (target, body) else none
    if ← runLoop worker again true target v (Statement.execAll load worker body) then return .next
    else Statement.execAll load worker otherwise
  | .branch test yes no => do
    if ← Run.truth (← test.eval worker {}) then Statement.execAll load worker yes
    else Statement.execAll load worker no
  | .within assignments body =>
    Run.inFrame {} do
      assignments.forM fun a => do a.1.assign worker (← a.2.eval worker {})
      Statement.execAll load worker body
  | .assign target e => do
    target.assign worker (← e.eval worker {})
    return .next
  | .capture target filter body => do
    let (signal, s) ← Run.captured (Statement.execAll load worker body)
    target.assign worker (← throughFilter worker filter s)
    return signal
  | .escaping mode body => do
    let e ← Run.ofResult (Escaping.ofValue (← mode.eval worker {}))
    Run.withEscaping e (Statement.execAll load worker body)
  | .filtered filter body => do
    let (signal, s) ← Run.captured (Statement.execAll load worker body)
    Run.print (← throughFilter worker (some filter) s)
    return signal
  | .block name _ => do
    let m ← get
    if m.parent.isNone && !m.discards then Run.callBlock worker name
    return .next
  | .inherit e => do
    inheritFrom load (← e.eval worker {})
    return .next
  | .insert e ignoreMissing => do
    insertFirst load worker (← e.eval worker {}) ignoreMissing
    return .next
  | .load e target => do
    target.assign worker (← loadLibrary load worker e)
    return .next
  | .loadNames e names => do
    let values ← takeNames load worker e (names.map (·.1))
    (names.zip values).reverse.forM fun p => Run.store p.1.2 p.2
    return .next
  | .define name parameters body => do
    Run.store name (.routine (← makeRoutine name parameters body))
    return .next
  | .callWith callee arguments parameters body => do
    let routine ← makeRoutine "caller" parameters body
    Run.print (← callWithBody worker callee arguments routine)
    return .next
  | .perform callee arguments => do
    let _ ← (Expr.call callee arguments).eval worker {}
    return .next
  | .skip => return .skip
  | .leave => return .leave

/-- Does statements, up to one that ends the turn of the loop. -/
def Statement.execAll (load : Loader) (worker : Worker) : List Statement → Run Signal
  | [] => return .next
  | s :: ss => do
    match ← s.exec load worker with
    | .next => Statement.execAll load worker ss
    | signal => return signal

end

/-- Goes on with the template that the present one inherits from, if it inherits from one. -/
def continueWithParent (worker : Worker) (discards : Bool) : Run Unit := do
  match (← get).parent with
  | none => return ()
  | some document =>
    modify fun m => { m with discards, parent := none }
    worker (.statements document.body)

/-- Does statements as a whole: what they inherit from is theirs alone. -/
def runStatements (load : Loader) (worker : Worker) (ss : List Statement) : Run Unit := do
  let outside ← get
  set { outside with parent := none }
  let _ ← Statement.execAll load worker ss
  continueWithParent worker outside.discards
  modify fun m => { m with parent := outside.parent }

/-- Does jobs, of which at most `n` are begun in each other. -/
def work (load : Loader) : Nat → Worker
  | 0, _ => Run.fail .invalidOperation
  | n + 1, job =>
    let worker := work load n
    match job with
    | .statements ss => runStatements load worker ss
    | .routine r values => do
      bindParameters worker (r.parameters.lastFirst.zip values.reverse)
      let _ ← Statement.execAll load worker r.body
    | .again target body items => do
      let _ ← runLoop worker (some (target, body)) true target items (Statement.execAll load worker body)

end Template
end Folio

import Folio.Template.Filter

/-!
# Folio.Template.Machine

Where the evaluation of a template is.

* `Frame`: the names of one scope. `Machine.lookup?` looks for a name in all of them, innermost first.
* `Machine`: the scopes, the text written so far, and the blocks that are known.
* `Run`: a step of the evaluation, which changes the machine or fails.
* `Run.inFrame`, `Run.captured`: steps in a scope of their own, and steps whose text is kept apart.
-/

namespace Folio
namespace Template

/-- Where a loop is. Its number is that of what was asked about changes. `again` is what it does with each item, if
it can be started once more from inside. -/
structure LoopFrame where
  id : Nat
  isNamed : Bool
  again : Option (Target × List Statement)
  index : Nat
  depth : Nat
  length : Option Nat
  before : Option Value
  after : Option Value

/-- What lies beneath the names of a scope: nothing, the parts of a value, or the names that a macro has taken from
where it stands. -/
inductive Ground where
  | nothing
  | parts (v : Value)
  | taken (closure : Nat)

/-- A scope. `closure` is the number of the names that macros have taken from it. -/
structure Frame where
  names : List (String × Value) := []
  loop : Option LoopFrame := none
  closure : Option Nat := none
  ground : Ground := .nothing

/-- The bodies of a block: that of the template itself first, and then those that it replaces. `level` is the one
that stands for the block at the moment. -/
structure BlockChain where
  bodies : List (List Statement)
  level : Nat

/-- The evaluation.

* `frames`: the scopes, innermost first. `outer` counts what lies around them.
* `spaces`, `closures`, `asked`: the namespaces, the names that macros have taken, and what loops were asked last.
* `written`: the text so far, last part first. Nothing is added to it while `discards` is set.
* `block`: the block that is written. `blocks` are all that are known.
* `loaded`: the templates that inherit from each other. `parent` is the one that goes on after the present one. -/
structure Machine where
  frames : List Frame
  outer : Nat := 0
  spaces : Spaces := #[]
  closures : Array (List (String × Value)) := #[]
  asked : Array (Option (List Value)) := #[]
  written : List String := []
  discards : Bool := false
  escaping : Escaping := .none
  block : Option String := none
  blocks : List (String × BlockChain) := []
  loaded : List String := []
  parent : Option Document := none

/-- A step of the evaluation. -/
abbrev Run := StateT Machine (Except TemplateFault)

namespace Builtin

/-- The function with a name. -/
def ofName? : String → Option Builtin
  | "range" => some .range
  | "dict" => some .dict
  | "namespace" => some .namespace
  | "debug" => some .debug
  | _ => none

end Builtin

def LoopFrame.value (l : LoopFrame) : Value :=
  .loop l.id l.index l.depth l.length l.before l.after

/-- Names with one more. It takes the place of the same name. -/
def setName (name : String) (v : Value) : List (String × Value) → List (String × Value)
  | [] => [(name, v)]
  | p :: names => if p.1 = name then (name, v) :: names else p :: setName name v names

/-- The bodies of blocks, with those of one more template. -/
def addBlocks (blocks : List (String × BlockChain)) (more : List (String × List Statement)) :
    List (String × BlockChain) :=
  more.foldl (fun blocks p =>
    match blocks.lookup p.1 with
    | none => blocks ++ [(p.1, ⟨[p.2], 0⟩)]
    | some chain => blocks.map fun q => if q.1 = p.1 then (q.1, ⟨chain.bodies ++ [p.2], chain.level⟩) else q) blocks

namespace Machine

/-- The value of a name in what lies beneath a scope. -/
def groundValue? (m : Machine) (name : String) : Ground → Option Value
  | .nothing => none
  | .parts v => v.member? m.spaces name
  | .taken id => (m.closures[id]?.getD []).lookup name

/-- The value of a name in a scope. -/
def frameValue? (m : Machine) (name : String) (f : Frame) : Option Value :=
  match f.names.lookup name with
  | some v => some v
  | none =>
    match f.loop with
    | some l => if l.isNamed && name == "loop" then some l.value else m.groundValue? name f.ground
    | none => m.groundValue? name f.ground

/-- The value of a name, innermost scope first. -/
def lookup? (m : Machine) (name : String) : Option Value :=
  match m.frames.findSome? (m.frameValue? name) with
  | some v => some v
  | none => (Builtin.ofName? name).map Value.function

/-- The number of scopes and of what counts like them. -/
def depth (m : Machine) : Nat :=
  m.outer + m.frames.length

/-- The innermost loop. -/
def loop? (m : Machine) : Option LoopFrame :=
  m.frames.findSome? (·.loop)

/-- What macros have taken from the innermost scope. -/
def closure? (m : Machine) : Option Nat :=
  match m.frames with
  | [] => none
  | f :: _ => f.closure

/-- The machine with another innermost scope. -/
def mapTop (m : Machine) (f : Frame → Frame) : Machine :=
  match m.frames with
  | [] => m
  | top :: frames => { m with frames := f top :: frames }

/-- The machine with a value for a name in the innermost scope. Macros that have taken names from there see it. -/
def store (m : Machine) (name : String) (v : Value) : Machine :=
  let m := m.mapTop fun f => { f with names := setName name v f.names }
  match m.closure? with
  | none => m
  | some id => { m with closures := m.closures.modify id (setName name v) }

/-- The machine in which macros have taken a name from the innermost scope. -/
def enclose (m : Machine) (name : String) : Machine :=
  let (m, id) := match m.closure? with
    | some id => (m, id)
    | none =>
      let id := m.closures.size
      ({ (m.mapTop fun f => { f with closure := some id }) with closures := m.closures.push [] }, id)
  if ((m.closures[id]?.getD []).lookup name).isSome then m
  else
    let v := Value.ofOption (m.lookup? name)
    { m with closures := m.closures.modify id (setName name v) }

def setting (m : Machine) : Setting :=
  ⟨m.spaces, m.escaping⟩

end Machine

namespace Run

def fail {α : Type} (fault : TemplateFault) : Run α :=
  throw fault

def ofResult {α : Type} (r : Result α) : Run α :=
  match r with
  | .ok x => pure x
  | .error fault => throw fault

/-- A step that fails in one way only. -/
def failingAs {α : Type} (fault : TemplateFault) (run : Run α) : Run α := fun m =>
  match run m with
  | .ok r => .ok r
  | .error _ => .error fault

/-- The deepest that scopes may lie in each other. -/
def maxDepth : Nat := 500

def checkDepth : Run Unit := do
  if maxDepth < (← get).depth then fail .invalidOperation

/-- Steps in a scope of their own. -/
def inFrame {α : Type} (f : Frame) (run : Run α) : Run α := do
  checkDepth
  modify fun m => { m with frames := f :: m.frames }
  let x ← run
  modify fun m => { m with frames := m.frames.drop 1 }
  return x

/-- Steps that count as so many scopes. -/
def deeper {α : Type} (cost : Nat) (run : Run α) : Run α := do
  modify fun m => { m with outer := m.outer + cost }
  checkDepth
  let x ← run
  modify fun m => { m with outer := m.outer - cost }
  return x

def emit (s : String) : Run Unit :=
  modify fun m => if m.discards then m else { m with written := s :: m.written }

/-- Steps, and the text that they write. -/
def captured {α : Type} (run : Run α) : Run (α × String) := do
  let outside ← get
  set { outside with written := [], discards := false }
  let x ← run
  let inside ← get
  set { inside with written := outside.written, discards := outside.discards }
  return (x, String.join inside.written.reverse)

/-- Steps whose text is dropped. -/
def discarded {α : Type} (run : Run α) : Run α := do
  let discards := (← get).discards
  modify fun m => { m with discards := true }
  let x ← run
  modify fun m => { m with discards }
  return x

/-- Steps with another escaping. -/
def withEscaping {α : Type} (e : Escaping) (run : Run α) : Run α := do
  let old := (← get).escaping
  modify fun m => { m with escaping := e }
  let x ← run
  modify fun m => { m with escaping := old }
  return x

/-- A text that was written with the present escaping. -/
def writtenValue (s : String) : Run Value := do
  return Value.written (← get).escaping s

def truth (v : Value) : Run Bool := do
  ofResult (v.truth (← get).spaces)

def print (v : Value) : Run Unit := do
  let m ← get
  emit (← ofResult (v.emitted m.spaces m.escaping))

def store (name : String) (v : Value) : Run Unit :=
  modify fun m => m.store name v

end Run
end Template
end Folio

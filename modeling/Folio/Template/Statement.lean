/-!
# Folio.Template.Statement

What an engine template says.

* `Expr`: what has a value. `Argument` is an argument of a call, of a filter or of a test.
* `Target`: what a value can be given to.
* `Statement`: the texts and tags of a template.
* `Statement.freeNames`: the names that the body of a macro takes from where the macro stands.
-/

namespace Folio
namespace Template

inductive UnaryOp where
  | not
  | negate
  deriving DecidableEq, Repr

inductive BinaryOp where
  | either
  | both
  | eq
  | ne
  | lt
  | lte
  | gt
  | gte
  | isIn
  | add
  | subtract
  | concat
  | multiply
  | divide
  | divideFloor
  | remainder
  | power
  deriving DecidableEq, Repr

inductive Literal where
  | none
  | bool (b : Bool)
  | int (n : Nat)
  | float (x : Float)
  | str (s : String)
  deriving Repr

mutual

inductive Expr where
  | literal (l : Literal)
  | name (id : String)
  | unary (op : UnaryOp) (e : Expr)
  | binary (op : BinaryOp) (left right : Expr)
  | choice (test yes : Expr) (no : Option Expr)
  | filter (name : String) (e : Option Expr) (arguments : List Argument)
  | test (name : String) (e : Expr) (arguments : List Argument)
  | member (e : Expr) (name : String)
  | item (e key : Expr)
  | slice (e : Expr) (start stop step : Option Expr)
  | call (e : Expr) (arguments : List Argument)
  | list (items : List Expr)
  | dict (pairs : List (Expr × Expr))
  deriving Repr

inductive Argument where
  | positional (e : Expr)
  | named (name : String) (e : Expr)
  | spread (e : Expr)
  | spreadNamed (e : Expr)
  deriving Repr

end

inductive Target where
  | name (id : String)
  | list (items : List Target)
  | member (e : Expr) (name : String)
  deriving Repr

/-- The parameters of a macro. The values that are given for some of them belong to the last ones. -/
structure Parameters where
  names : List String
  defaults : List Expr
  deriving Repr

inductive Statement where
  | text (cs : List Char)
  | print (e : Expr)
  | loop (target : Target) (items : Expr) (condition : Option Expr) (isRecursive : Bool)
      (body otherwise : List Statement)
  | branch (test : Expr) (yes no : List Statement)
  | within (assignments : List (Target × Expr)) (body : List Statement)
  | assign (target : Target) (e : Expr)
  | capture (target : Target) (filter : Option Expr) (body : List Statement)
  | escaping (mode : Expr) (body : List Statement)
  | filtered (filter : Expr) (body : List Statement)
  | block (name : String) (body : List Statement)
  | inherit (template : Expr)
  | insert (template : Expr) (ignoreMissing : Bool)
  | load (template : Expr) (target : Target)
  | loadNames (template : Expr) (names : List (String × String))
  | define (name : String) (parameters : Parameters) (body : List Statement)
  | callWith (callee : Expr) (arguments : List Argument) (parameters : Parameters) (body : List Statement)
  | perform (callee : Expr) (arguments : List Argument)
  | skip
  | leave
  deriving Repr

/-- A template: its statements, and its blocks by their names. -/
structure Document where
  name : String
  body : List Statement
  blocks : List (String × List Statement)
  deriving Repr

/-! ### Names -/

/-- Names that are met: those that are assigned so far, and those that are used before. -/
structure NameUse where
  assigned : List String
  free : List String
  deriving Repr

namespace NameUse

def assign (u : NameUse) (name : String) : NameUse :=
  { u with assigned := name :: u.assigned }

def use (u : NameUse) (name : String) : NameUse :=
  if u.assigned.contains name || u.free.contains name then u else { u with free := u.free ++ [name] }

/-- What is assigned inside of a scope is not assigned after it. -/
def inside (u : NameUse) (inner : NameUse → NameUse) : NameUse :=
  { inner u with assigned := u.assigned }

end NameUse

mutual

def Expr.uses (u : NameUse) : Expr → NameUse
  | .literal _ => u
  | .name id => u.use id
  | .unary _ e => e.uses u
  | .binary _ left right => right.uses (left.uses u)
  | .choice test yes no => Expr.usesOptional (yes.uses (test.uses u)) no
  | .filter _ e arguments => Argument.usesAll (Expr.usesOptional u e) arguments
  | .test _ e arguments => Argument.usesAll (e.uses u) arguments
  | .member e _ => e.uses u
  | .item e key => key.uses (e.uses u)
  | .slice e start stop step =>
    Expr.usesOptional (Expr.usesOptional (Expr.usesOptional (e.uses u) start) stop) step
  | .call e arguments => Argument.usesAll (e.uses u) arguments
  | .list items => Expr.usesAll u items
  | .dict pairs => Expr.usesPairs u pairs

def Expr.usesOptional (u : NameUse) : Option Expr → NameUse
  | none => u
  | some e => e.uses u

def Expr.usesAll (u : NameUse) : List Expr → NameUse
  | [] => u
  | e :: es => Expr.usesAll (e.uses u) es

def Expr.usesPairs (u : NameUse) : List (Expr × Expr) → NameUse
  | [] => u
  | (key, value) :: pairs => Expr.usesPairs (value.uses (key.uses u)) pairs

def Argument.uses (u : NameUse) : Argument → NameUse
  | .positional e => e.uses u
  | .named _ e => e.uses u
  | .spread e => e.uses u
  | .spreadNamed e => e.uses u

def Argument.usesAll (u : NameUse) : List Argument → NameUse
  | [] => u
  | a :: as => Argument.usesAll (a.uses u) as

end

mutual

def Target.assigns (u : NameUse) : Target → NameUse
  | .name id => u.assign id
  | .list items => Target.assignsAll u items
  | .member e _ => e.uses u

def Target.assignsAll (u : NameUse) : List Target → NameUse
  | [] => u
  | t :: ts => Target.assignsAll (t.assigns u) ts

end

/-- The names in parameters. Each parameter is assigned before the values given for some of them. -/
def Parameters.uses (u : NameUse) (p : Parameters) : NameUse :=
  Expr.usesAll (p.names.foldl NameUse.assign u) p.defaults

def usesAssignments (u : NameUse) (assignments : List (Target × Expr)) : NameUse :=
  assignments.foldl (fun u a => a.2.uses (a.1.assigns u)) u

mutual

def Statement.uses (u : NameUse) : Statement → NameUse
  | .text _ => u
  | .print e => e.uses u
  | .loop target items condition _ body otherwise =>
    let u := u.inside fun u =>
      Statement.usesAll (Expr.usesOptional (target.assigns (items.uses (u.assign "loop"))) condition) body
    u.inside fun u => Statement.usesAll u otherwise
  | .branch test yes no =>
    let u := (test.uses u).inside fun u => Statement.usesAll u yes
    u.inside fun u => Statement.usesAll u no
  | .within assignments body => u.inside fun u => Statement.usesAll (usesAssignments u assignments) body
  | .assign target e => e.uses (target.assigns u)
  | .capture target _ body => (target.assigns u).inside fun u => Statement.usesAll u body
  | .escaping _ body => u.inside fun u => Statement.usesAll u body
  | .filtered _ body => u.inside fun u => Statement.usesAll u body
  | .block _ body => u.inside fun u => Statement.usesAll (u.assign "super") body
  | .inherit _ => u
  | .insert _ _ => u
  | .load _ target => target.assigns u
  | .loadNames _ names => names.foldl (fun u p => u.assign p.2) u
  | .define name parameters body => Statement.usesAll (parameters.uses (u.assign name)) body
  | .callWith callee arguments parameters body =>
    Statement.usesAll (parameters.uses (Argument.usesAll (callee.uses u) arguments)) body
  | .perform callee arguments => Argument.usesAll (callee.uses u) arguments
  | .skip => u
  | .leave => u

def Statement.usesAll (u : NameUse) : List Statement → NameUse
  | [] => u
  | s :: ss => Statement.usesAll (s.uses u) ss

end

/-- The names that the body of a macro takes from where the macro stands. -/
def freeNames (parameters : Parameters) (body : List Statement) : List String :=
  (Statement.usesAll (parameters.uses ⟨[], []⟩) body).free

end Template
end Folio

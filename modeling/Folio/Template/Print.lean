import Folio.Decimal.Basic
import Folio.Template.Order
import Folio.Text.Quoted

/-!
# Folio.Template.Print

The texts of values.

* `Shape`: a value as it is written inside of another one. `Shape.line` writes it in one line, `Shape.pretty` with
  each item in a line of its own.
* `Value.printed`: the text of a value, where it stands alone.
* `Value.toJson?`: the value as JSON.
-/

namespace Folio
namespace Template

/-- The parts of a written value. -/
inductive Shape where
  | atom (cs : List Char)
  | list (items : List Shape)
  | dict (pairs : List (Shape × Shape))

namespace Shape

/-- Texts with a comma and a blank between them. -/
def spaced : List (List Char) → List Char
  | [] => []
  | [text] => text
  | text :: texts => text ++ ',' :: ' ' :: spaced texts

mutual

def line : Shape → List Char
  | .atom cs => cs
  | .list items => '[' :: spaced (lines items) ++ [']']
  | .dict pairs => '\x7b' :: spaced (pairLines pairs) ++ ['\x7d']

def lines : List Shape → List (List Char)
  | [] => []
  | s :: ss => line s :: lines ss

def pairLines : List (Shape × Shape) → List (List Char)
  | [] => []
  | (key, s) :: pairs => (line key ++ ':' :: ' ' :: line s) :: pairLines pairs

end

def newLine (depth : Nat) : List Char :=
  '\n' :: List.replicate (4 * depth) ' '

/-- Texts in lines of their own between two brackets, with a comma after each. -/
def bracketed (depth : Nat) (opening closing : Char) (texts : List (List Char)) : List Char :=
  if texts.isEmpty then [opening, closing]
  else opening :: texts.flatMap (fun text => newLine (depth + 1) ++ text ++ [',']) ++ newLine depth ++ [closing]

mutual

def pretty (depth : Nat) : Shape → List Char
  | .atom cs => cs
  | .list items => bracketed depth '[' ']' (prettyItems (depth + 1) items)
  | .dict pairs => bracketed depth '\x7b' '\x7d' (prettyPairs (depth + 1) pairs)

def prettyItems (depth : Nat) : List Shape → List (List Char)
  | [] => []
  | s :: ss => pretty depth s :: prettyItems depth ss

def prettyPairs (depth : Nat) : List (Shape × Shape) → List (List Char)
  | [] => []
  | (key, s) :: pairs => (pretty depth key ++ ':' :: ' ' :: pretty depth s) :: prettyPairs depth pairs

end

end Shape

namespace Value

/-- The text of a float, where `finite` writes the size of one that is finite. -/
def floatText (finite : Decimal → List Char) (x : Float) : List Char :=
  if x.isNaN then "NaN".toList
  else
    (if isNegative x then ['-'] else []) ++
      (if x.isFinite then finite (Decimal.shortest x) else "inf".toList)

def boolText (b : Bool) : List Char :=
  if b then "True".toList else "False".toList

def intText (n : Int) : List Char :=
  (toString n).toList

/-- The name under which a function is printed. -/
def Builtin.path : Builtin → String
  | .range => "minijinja::functions::builtins::range"
  | .dict => "minijinja::functions::builtins::dict"
  | .namespace => "minijinja::functions::builtins::namespace"
  | .debug => "minijinja::functions::builtins::debug"

def loopText (index : Nat) (length : Option Nat) : String :=
  "<loop " ++ toString index ++ "/" ++ ((length.map toString).getD "?") ++ ">"

/-- The text of a value that is written the same everywhere, if it is. -/
def plainText? : Value → Option (List Char)
  | .none => some "None".toList
  | .bool b => some (boolText b)
  | .int n => some (intText n)
  | .iterator _ false => some "<iterator>".toList
  | .library _ s => some s.toList
  | .loop _ index _ length _ _ => some (loopText index length).toList
  | .function f => some (Builtin.path f).toList
  | .routine r => some ("<macro " ++ r.name ++ ">").toList
  | _ => Option.none

mutual

/-- The value as it is written inside of another one. -/
def shape : Value → Shape
  | .undefined _ => .atom "undefined".toList
  | .float x => .atom (floatText (fun d => d.general (-3) 16) x)
  | .str s _ => .atom (Text.quoted s.toList)
  | .seq items => .list (shapes items)
  | .iterator items true => .list (shapes items)
  | .map pairs => .dict (pairShapes pairs)
  | .named pairs => .dict (pairShapes pairs)
  | .group key items => .list [shape key, .list (shapes items)]
  | v => .atom (v.plainText?.getD [])

def shapes : List Value → List Shape
  | [] => []
  | v :: vs => shape v :: shapes vs

def pairShapes : List (Value × Value) → List (Shape × Shape)
  | [] => []
  | (key, v) :: pairs => (shape key, shape v) :: pairShapes pairs

end

/-- The text of a value without namespaces inside. -/
def settledText (v : Value) : List Char :=
  match v with
  | .undefined _ => []
  | .float x => floatText Decimal.plain x
  | .str s _ => s.toList
  | v => v.shape.line

def printed (spaces : Spaces) (v : Value) : String :=
  match v with
  | .str s _ => s
  | v => String.ofList (v.settle spaces).settledText

/-- The text of a value with each item in a line of its own. -/
def prettyText (spaces : Spaces) (v : Value) : String :=
  String.ofList ((v.settle spaces).shape.pretty 0)

def memberName? : Value → Option String
  | .str s _ => some s
  | .bool b => some (if b then "true" else "false")
  | .int n => some (toString n)
  | .float x => if x.isFinite then some (String.ofList (floatText (fun d => d.general (-4) 16) x)) else Option.none
  | _ => Option.none

mutual

/-- The value as JSON, if all its keys can be names. -/
def toJson? : Value → Option Json
  | .undefined _ => some .null
  | .none => some .null
  | .bool b => some (.bool b)
  | .int n => some (.int n)
  | .float x => some (.float x)
  | .str s _ => some (.str s)
  | .seq items => (toJsonItems? items).map .arr
  | .iterator items _ => (toJsonItems? items).map .arr
  | .group key items =>
    match toJson? key, toJsonItems? items with
    | some key, some items => some (.arr [key, .arr items])
    | _, _ => Option.none
  | .map pairs => (toJsonMembers? pairs).map .obj
  | .named pairs => (toJsonMembers? pairs).map .obj
  | .library pairs _ => (toJsonMembers? pairs).map .obj
  | .space _ => some .null
  | .loop _ index depth length before after =>
    some (.obj ([("index0", .int index), ("index", .int (index + 1)), ("length", lengthJson length),
      ("revindex", lengthJson (length.map (· - index))), ("revindex0", lengthJson (length.map (· - index - 1))),
      ("first", .bool (index == 0)), ("last", .bool after.isNone), ("depth", .int (depth + 1)),
      ("depth0", .int depth), ("previtem", optionalJson before), ("nextitem", optionalJson after)]))
  | .function f => some (.str (Builtin.path f))
  | .routine r =>
    some (.obj [("name", .str r.name), ("arguments", .arr (r.parameters.names.map .str)),
      ("caller", .bool r.usesCaller)])
where
  lengthJson : Option Nat → Json
    | Option.none => .null
    | some n => .int n

def optionalJson : Option Value → Json
  | Option.none => .null
  | some v => ((toJson? v).getD .null)

def toJsonItems? : List Value → Option (List Json)
  | [] => some []
  | v :: vs =>
    match toJson? v, toJsonItems? vs with
    | some item, some items => some (item :: items)
    | _, _ => Option.none

def toJsonMembers? : List (Value × Value) → Option (List (String × Json))
  | [] => some []
  | (key, v) :: pairs =>
    match memberName? key, toJson? v, toJsonMembers? pairs with
    | some name, some item, some members => some ((name, item) :: members)
    | _, _, _ => Option.none

end

end Value
end Template
end Folio

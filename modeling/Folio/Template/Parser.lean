import Folio.Template.Statement
import Folio.Template.Token

/-!
# Folio.Template.Parser

Templates from their parts.

* `Parse`: reading from a list of tokens.
* `expr`, `statements`: the readers of expressions and of statements. `n` bounds how deep they call each other and
  how often they go on; the length of the list gives a bound that is never met.
* `Document.parse`: the template in a text, or its first fault.
-/

namespace Folio
namespace Template

/-- How far a template is read.

* `depth`: the number of open constructs that count against the limit on nesting.
* `inLoop`, `inMacro`: what the next statement stands in.
* `started`: the names of the blocks so far. `blocks` are those that are complete. -/
structure Reading where
  rest : List Token
  depth : Nat := 0
  inLoop : Bool := false
  inMacro : Bool := false
  started : List String := []
  blocks : List (String × List Statement) := []

abbrev Parse := StateT Reading (Except TemplateFault)

namespace Parse

def fail {α : Type} : Parse α :=
  throw .syntaxError

/-- The next token, if there is one. -/
def peek : Parse (Option Token) := do
  match (← get).rest with
  | [] => return none
  | .broken fault :: _ => throw fault
  | t :: _ => return some t

def next : Parse (Option Token) := do
  let t ← peek
  modify fun s => { s with rest := s.rest.drop 1 }
  return t

def atSign (sign : Sign) : Parse Bool := do
  match ← peek with
  | some (.sign s) => return s == sign
  | _ => return false

def atWord (word : String) : Parse Bool := do
  match ← peek with
  | some (.word w) => return w == word
  | _ => return false

def atTagEnd : Parse Bool := do
  match ← peek with
  | some .tagEnd => return true
  | _ => return false

/-- Passes a sign, if it is next. -/
def skipSign (sign : Sign) : Parse Bool := do
  if ← atSign sign then
    let _ ← next
    return true
  else return false

/-- Passes a word, if it is next. -/
def skipWord (word : String) : Parse Bool := do
  if ← atWord word then
    let _ ← next
    return true
  else return false

def expectSign (sign : Sign) : Parse Unit := do
  if ← skipSign sign then return () else fail

def expectWord (word : String) : Parse Unit := do
  if ← skipWord word then return () else fail

def expectTagEnd : Parse Unit := do
  match ← next with
  | some .tagEnd => return ()
  | _ => fail

def expectName : Parse String := do
  match ← next with
  | some (.word name) => return name
  | _ => fail

/-- The most open constructs. -/
def maxDepth : Nat := 150

/-- Reads a construct that counts against the limit on nesting. -/
def nested {α : Type} (p : Parse α) : Parse α := do
  if maxDepth ≤ (← get).depth then fail
  else
    modify fun s => { s with depth := s.depth + 1 }
    let x ← p
    modify fun s => { s with depth := s.depth - 1 }
    return x

/-- Reads items up to a closing sign, with commas between them. A comma may stand after the last one. -/
def listed {α : Type} (closing : Sign) (item : Parse α) : Nat → Bool → Parse (List α)
  | 0, _ => fail
  | n + 1, isFirst => do
    if ← skipSign closing then return []
    else
      if !isFirst then expectSign .comma
      if ← (if isFirst then pure false else skipSign closing) then return []
      else
        let x ← item
        return x :: (← listed closing item n false)

/-- Reads operators of one level with the operands after them. -/
def chain (operator? : Token → Option BinaryOp) (operand : Parse Expr) : Nat → Expr → Parse Expr
  | 0, _ => fail
  | n + 1, left => do
    match (← peek).bind operator? with
    | none => return left
    | some op =>
      let _ ← next
      let right ← operand
      chain operator? operand n (.binary op left right)

def orOperator? : Token → Option BinaryOp
  | .word "or" => some .either
  | _ => none

def andOperator? : Token → Option BinaryOp
  | .word "and" => some .both
  | _ => none

def comparison? : Token → Option BinaryOp
  | .sign .eq => some .eq
  | .sign .ne => some .ne
  | .sign .lt => some .lt
  | .sign .lte => some .lte
  | .sign .gt => some .gt
  | .sign .gte => some .gte
  | .word "in" => some .isIn
  | _ => none

def sumOperator? : Token → Option BinaryOp
  | .sign .plus => some .add
  | .sign .minus => some .subtract
  | _ => none

def concatOperator? : Token → Option BinaryOp
  | .sign .tilde => some .concat
  | _ => none

def productOperator? : Token → Option BinaryOp
  | .sign .times => some .multiply
  | .sign .divide => some .divide
  | .sign .divideFloor => some .divideFloor
  | .sign .modulo => some .remainder
  | _ => none

def powerOperator? : Token → Option BinaryOp
  | .sign .power => some .power
  | _ => none

/-- Whether a token after the name of a test begins its argument. -/
def beginsTestArgument : Token → Bool
  | .word w => !(["and", "or", "else", "is"].contains w)
  | .quoted _ => true
  | .integer _ => true
  | .float _ => true
  | .sign .plus => true
  | .sign .minus => true
  | .sign .bracketOpen => true
  | .sign .braceOpen => true
  | _ => false

/-- The value of a word that is no name. -/
def literalWord? : String → Option Literal
  | "true" => some (.bool true)
  | "True" => some (.bool true)
  | "false" => some (.bool false)
  | "False" => some (.bool false)
  | "none" => some .none
  | "None" => some .none
  | _ => none

/-! ### Expressions -/

mutual

def expr : Nat → Parse Expr
  | 0 => fail
  | n + 1 => nested (choice n)

/-- An expression, and the choices that follow it. -/
def choice : Nat → Parse Expr
  | 0 => fail
  | n + 1 => do choiceTail n (← disjunction n)

def choiceTail : Nat → Expr → Parse Expr
  | 0, _ => fail
  | n + 1, yes => do
    if ← skipWord "if" then
      let test ← disjunction n
      if ← skipWord "else" then
        let no ← choice n
        choiceTail n (.choice test yes (some no))
      else choiceTail n (.choice test yes none)
    else return yes

def disjunction : Nat → Parse Expr
  | 0 => fail
  | n + 1 => do chain orOperator? (conjunction n) n (← conjunction n)

def conjunction : Nat → Parse Expr
  | 0 => fail
  | n + 1 => do chain andOperator? (negation n) n (← negation n)

def negation : Nat → Parse Expr
  | 0 => fail
  | n + 1 => do
    if ← skipWord "not" then return .unary .not (← negation n) else comparisonTail n (← sum n)

/-- The comparisons that follow an expression. -/
def comparisonTail : Nat → Expr → Parse Expr
  | 0, _ => fail
  | n + 1, left => do
    match (← peek).bind comparison? with
    | some op =>
      let _ ← next
      comparisonTail n (.binary op left (← sum n))
    | none =>
      if ← skipWord "not" then
        expectWord "in"
        comparisonTail n (.unary .not (.binary .isIn left (← sum n)))
      else return left

def sum : Nat → Parse Expr
  | 0 => fail
  | n + 1 => do chain sumOperator? (concatenation n) n (← concatenation n)

def concatenation : Nat → Parse Expr
  | 0 => fail
  | n + 1 => do chain concatOperator? (product n) n (← product n)

def product : Nat → Parse Expr
  | 0 => fail
  | n + 1 => do chain productOperator? (power n) n (← power n)

def power : Nat → Parse Expr
  | 0 => fail
  | n + 1 => do chain powerOperator? (operand n) n (← operand n)

def operand : Nat → Parse Expr
  | 0 => fail
  | n + 1 => do filters n (← suffixes n (← signed n))

/-- A value with the minus signs before it. -/
def signed : Nat → Parse Expr
  | 0 => fail
  | n + 1 => do
    if ← skipSign .minus then return .unary .negate (← signed n) else nested (primary n)

def primary : Nat → Parse Expr
  | 0 => fail
  | n + 1 => do
    match ← next with
    | some (.word w) =>
      match literalWord? w with
      | some l => return .literal l
      | none => return .name w
    | some (.quoted s) => return .literal (.str s)
    | some (.integer i) => return .literal (.int i)
    | some (.float x) => return .literal (.float x)
    | some (.sign .parenOpen) => group n
    | some (.sign .bracketOpen) => return .list (← listed .bracketClose (expr n) n true)
    | some (.sign .braceOpen) => return .dict (← listed .braceClose (pair n) n true)
    | _ => fail

/-- What stands in round brackets: an expression, or a list. -/
def group : Nat → Parse Expr
  | 0 => fail
  | n + 1 => do
    if ← skipSign .parenClose then return .list []
    else
      let e ← expr n
      if ← atSign .comma then return .list (e :: (← listed .parenClose (expr n) n false))
      else
        expectSign .parenClose
        return e

def pair : Nat → Parse (Expr × Expr)
  | 0 => fail
  | n + 1 => do
    let key ← expr n
    expectSign .colon
    return (key, ← expr n)

/-- The members, items and calls that follow a value. -/
def suffixes : Nat → Expr → Parse Expr
  | 0, _ => fail
  | n + 1, e => do
    if ← skipSign .dot then
      match ← next with
      | some (.word name) => suffixes n (.member e name)
      | some (.integer i) => suffixes n (.item e (.literal (.int i)))
      | _ => fail
    else if ← skipSign .bracketOpen then suffixes n (← itemOrSlice n e)
    else if ← atSign .parenOpen then suffixes n (.call e (← arguments n))
    else return e

/-- An expression, unless a colon or the closing bracket is next. -/
def bound? : Nat → Parse (Option Expr)
  | 0 => fail
  | n + 1 => do
    if (← atSign .colon) || (← atSign .bracketClose) then return none else return some (← expr n)

def itemOrSlice : Nat → Expr → Parse Expr
  | 0, _ => fail
  | n + 1, e => do
    let start ← if ← atSign .colon then pure none else some <$> expr n
    if ← skipSign .colon then
      let stop ← bound? n
      let step ← if ← skipSign .colon then bound? n else pure none
      expectSign .bracketClose
      return .slice e start stop step
    else
      expectSign .bracketClose
      match start with
      | some key => return .item e key
      | none => fail

def filters : Nat → Expr → Parse Expr
  | 0, _ => fail
  | n + 1, e => do
    if ← skipSign .bar then
      let name ← expectName
      filters n (.filter name (some e) (← optionalArguments n))
    else if ← skipWord "is" then
      let negated ← skipWord "not"
      let name ← expectName
      let test := Expr.test name e (← testArguments n)
      filters n (if negated then .unary .not test else test)
    else return e

def optionalArguments : Nat → Parse (List Argument)
  | 0 => fail
  | n + 1 => do
    if ← atSign .parenOpen then arguments n else return []

def testArguments : Nat → Parse (List Argument)
  | 0 => fail
  | n + 1 => do
    if ← atSign .parenOpen then arguments n
    else if ((← peek).map beginsTestArgument).getD false then
      return [.positional (← suffixes n (← signed n))]
    else return []

def arguments : Nat → Parse (List Argument)
  | 0 => fail
  | n + 1 => do
    expectSign .parenOpen
    argumentsTail n true false

/-- The rest of some arguments. After a named one, no positional one may follow. -/
def argumentsTail : Nat → Bool → Bool → Parse (List Argument)
  | 0, _, _ => fail
  | n + 1, isFirst, named => do
    if ← skipSign .parenClose then return []
    else
      if !isFirst then expectSign .comma
      if ← (if isFirst then pure false else skipSign .parenClose) then return []
      else
        let (argument, named) ← argument n named
        return argument :: (← argumentsTail n false named)

def argument : Nat → Bool → Parse (Argument × Bool)
  | 0, _ => fail
  | n + 1, named => do
    if ← skipSign .power then return (.spreadNamed (← expr n), true)
    else if ← skipSign .times then return (.spread (← expr n), named)
    else
      match ← expr n with
      | .name id =>
        if ← skipSign .assign then return (.named id (← disjunction n), true)
        else if named then fail
        else return (.positional (.name id), false)
      | e => if named then fail else return (.positional e, false)

end

/-! ### Targets -/

/-- The names that no value can be given to. -/
def reservedNames : List String :=
  ["true", "True", "false", "False", "none", "None", "loop", "self"]

def targetName : Parse String := do
  let name ← expectName
  if reservedNames.contains name then fail else return name

/-- Whether a list of targets ends here. -/
def atTargetsEnd : Parse Bool := do
  match ← peek with
  | some (.sign .parenClose) => return true
  | some .printEnd => return true
  | some .tagEnd => return true
  | some (.word "in") => return true
  | _ => return false

mutual

/-- One target, or a list of them with commas between. -/
def targets : Nat → Parse Target
  | 0 => fail
  | n + 1 => do
    let (items, isList) ← targetItems n true
    match items, isList with
    | [item], false => return item
    | items, _ => return .list items

def targetItems : Nat → Bool → Parse (List Target × Bool)
  | 0, _ => fail
  | n + 1, isFirst => do
    if !isFirst then expectSign .comma
    if ← atTargetsEnd then return ([], !isFirst)
    else
      let item ← target n
      if ← atSign .comma then
        let (items, _) ← targetItems n false
        return (item :: items, true)
      else return ([item], false)

/-- A name, or targets in round brackets. -/
def target : Nat → Parse Target
  | 0 => fail
  | n + 1 => do
    if ← skipSign .parenOpen then
      let t ← targets n
      expectSign .parenClose
      return t
    else return .name (← targetName)

end

def memberTarget : Nat → Target → Expr → Parse Target
  | 0, _, _ => fail
  | n + 1, t, e => do
    if ← skipSign .dot then
      let name ← expectName
      memberTarget n (.member e name) (.member e name)
    else return t

def targetOfExpr? : Nat → Expr → Option Target
  | 0, _ => none
  | _ + 1, .name id => some (.name id)
  | n + 1, .list items => (items.mapM (targetOfExpr? n)).map Target.list
  | _ + 1, .member e name => some (.member e name)
  | _ + 1, _ => none

/-! ### Statements -/

/-- Passes the words that say whether a template sees the names around it. They mean nothing here. -/
def skipContextWords : Parse Unit := do
  if (← skipWord "with") || (← skipWord "without") then expectWord "context"

/-- Filters one after the other, the first of which has no value before it. -/
def filterChain (n : Nat) : Nat → Option Expr → Parse Expr
  | 0, _ => fail
  | steps + 1, e => do
    if ← atTagEnd then
      match e with
      | some e => return e
      | none => fail
    else
      if e.isSome then expectSign .bar
      let name ← expectName
      filterChain n steps (some (.filter name e (← optionalArguments n)))

/-- The parameters of a macro, up to the closing bracket. -/
def parameters (n : Nat) : Nat → Bool → Parameters → Parse Parameters
  | 0, _, _ => fail
  | steps + 1, isFirst, p => do
    if ← skipSign .parenClose then return p
    else
      if !isFirst then expectSign .comma
      if ← (if isFirst then pure false else skipSign .parenClose) then return p
      else
        let name ← targetName
        let p := { p with names := p.names ++ [name] }
        if ← skipSign .assign then
          parameters n steps false { p with defaults := p.defaults ++ [← expr n] }
        else if p.defaults.isEmpty then parameters n steps false p
        else fail

def assignments (n : Nat) : Nat → Bool → Parse (List (Target × Expr))
  | 0, _ => fail
  | steps + 1, isFirst => do
    if ← atTagEnd then return []
    else
      if !isFirst then expectSign .comma
      let t ← target n
      expectSign .assign
      let e ← expr n
      return (t, e) :: (← assignments n steps false)

/-- The names that are taken from a template, each with the name that it gets. -/
def importedNames : Nat → Bool → Parse (List (String × String))
  | 0, _ => fail
  | n + 1, isFirst => do
    if (← atTagEnd) || (← atWord "with") || (← atWord "without") then return []
    else
      if !isFirst then expectSign .comma
      if ← atTagEnd then return []
      else
        let name ← targetName
        let newName ← if ← skipWord "as" then targetName else pure name
        return (name, newName) :: (← importedNames n false)

/-- Reads what stands in a loop or a macro, or no longer in one. -/
def within {α : Type} (inLoop inMacro : Bool) (p : Parse α) : Parse α := do
  let s ← get
  set { s with inLoop, inMacro }
  let x ← p
  modify fun t => { t with inLoop := s.inLoop, inMacro := s.inMacro }
  return x

/-- The call in a tag that is about a call. -/
def calledExpr (n : Nat) : Parse (Expr × List Argument) := do
  match ← expr n with
  | .call e arguments => return (e, arguments)
  | _ => fail

mutual

/-- The statements up to a tag with one of these words, which is not passed, or up to the end of the template. -/
def statements : Nat → List String → Parse (List Statement)
  | 0, _ => fail
  | n + 1, ends => do
    match ← next with
    | none => return []
    | some (.text cs) => return .text cs :: (← statements n ends)
    | some .printStart =>
      let e ← expr n
      match ← next with
      | some .printEnd => return .print e :: (← statements n ends)
      | _ => fail
    | some .tagStart =>
      match ← peek with
      | none => fail
      | some (.word w) =>
        if ends.contains w then return []
        else
          let s ← nested (statement n)
          expectTagEnd
          return s :: (← statements n ends)
      | some _ => fail
    | some _ => fail

/-- The statements between a tag that ends here and one with a word, which is passed. -/
def body : Nat → String → Parse (List Statement)
  | 0, _ => fail
  | n + 1, word => do
    expectTagEnd
    let ss ← statements n [word]
    let _ ← next
    return ss

def statement : Nat → Parse Statement
  | 0 => fail
  | n + 1 => do
    match ← expectName with
    | "for" => loop n
    | "if" => branch n
    | "with" => return .within (← assignments n n true) (← body n "endwith")
    | "set" => assignment n
    | "autoescape" => return .escaping (← expr n) (← body n "endautoescape")
    | "filter" => return .filtered (← filterChain n n none) (← body n "endfilter")
    | "block" => block n
    | "extends" => return .inherit (← expr n)
    | "include" => inclusion n
    | "import" => importation n
    | "from" =>
      let e ← expr n
      expectWord "import"
      let names ← importedNames n true
      skipContextWords
      return .loadNames e names
    | "macro" =>
      let name ← expectName
      expectSign .parenOpen
      let p ← parameters n n true ⟨[], []⟩
      return .define name p (← within false true (body n "endmacro"))
    | "call" =>
      let p ← if ← skipSign .parenOpen then parameters n n true ⟨[], []⟩ else pure ⟨[], []⟩
      let (callee, arguments) ← calledExpr n
      return .callWith callee arguments p (← within false true (body n "endcall"))
    | "continue" => if (← get).inLoop then return .skip else fail
    | "break" => if (← get).inLoop then return .leave else fail
    | "do" =>
      let (callee, arguments) ← calledExpr n
      return .perform callee arguments
    | _ => fail

def loop : Nat → Parse Statement
  | 0 => fail
  | n + 1 => do
    within true (← get).inMacro do
      let t ← targets n
      expectWord "in"
      let items ← disjunction n
      let condition ← if ← skipWord "if" then some <$> expr n else pure none
      let isRecursive ← skipWord "recursive"
      expectTagEnd
      let ss ← statements n ["endfor", "else"]
      let otherwise ← if ← skipWord "else" then body n "endfor" else (do let _ ← next; return [])
      return .loop t items condition isRecursive ss otherwise

def branch : Nat → Parse Statement
  | 0 => fail
  | n + 1 => do
    let test ← expr n
    expectTagEnd
    let yes ← statements n ["endif", "else", "elif"]
    match ← next with
    | some (.word "else") => return .branch test yes (← body n "endif")
    | some (.word "elif") => return .branch test yes [← branch n]
    | _ => return .branch test yes []

def assignment : Nat → Parse Statement
  | 0 => fail
  | n + 1 => do
    if ← atSign .parenOpen then
      let t ← target n
      expectSign .assign
      return .assign t (← expr n)
    else
      let name ← targetName
      let t ← memberTarget n (.name name) (.name name)
      if ← skipSign .bar then
        let filter ← filterChain n n none
        return .capture t (some filter) (← body n "endset")
      else if ← atTagEnd then return .capture t none (← body n "endset")
      else
        expectSign .assign
        return .assign t (← expr n)

def block : Nat → Parse Statement
  | 0 => fail
  | n + 1 => do
    let s ← get
    if s.inMacro then fail
    else
      let name ← expectName
      if s.started.contains name then fail
      else
        modify fun s => { s with started := name :: s.started }
        within false false do
          let ss ← body n "endblock"
          match ← peek with
          | some (.word last) =>
            if last == name then
              let _ ← next
            else fail
          | _ => pure ()
          modify fun s => { s with blocks := s.blocks ++ [(name, ss)] }
          return .block name ss

def inclusion : Nat → Parse Statement
  | 0 => fail
  | n + 1 => do
    let e ← expr n
    skipContextWords
    if ← skipWord "ignore" then
      expectWord "missing"
      skipContextWords
      return .insert e true
    else return .insert e false

def importation : Nat → Parse Statement
  | 0 => fail
  | n + 1 => do
    let e ← expr n
    expectWord "as"
    let name ← expr n
    skipContextWords
    match targetOfExpr? n name with
    | some t => return .load e t
    | none => fail

end

end Parse

/-- A bound on the steps between two tokens. -/
def stepsPerToken : Nat := 32

/-- The template in a text. -/
def Document.parse (name source : String) : Except TemplateFault Document :=
  let ts := tokens source
  match (Parse.statements (stepsPerToken * (ts.length + 2)) []).run { rest := ts } with
  | .error fault => .error fault
  | .ok (ss, s) => .ok ⟨name, ss, s.blocks⟩

end Template
end Folio

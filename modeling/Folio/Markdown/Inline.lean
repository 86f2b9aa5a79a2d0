import Folio.Text.Punctuation
import Folio.Markdown.Emphasis
import Folio.Markdown.RawHtml
import Folio.Markdown.Reference

/-!
# Folio.Markdown.Inline

The events of the text of a paragraph, a heading or a table cell.

* `Opener`: an opening bracket, with the pieces that precede it.
* `inlineLink?`, `reference`: what follows the closing bracket of a link.
* `inlineEvents`: the events of a text.

Constructs are recognized from left to right: an escape, a code span, an address or HTML is taken where it begins,
and brackets inside it count for nothing. Emphasis is resolved within each link and within the whole text.
-/

namespace Folio
namespace Markdown

/-- Characters that may begin more than themselves. -/
def isSpecial (c : Char) : Bool :=
  "\\`*_~&<[]!\n\r".toList.contains c

def textPiece (cs : List Char) : Piece :=
  .done [.text (String.ofList cs)]

/-- The contents of a code span closed by a run of `n` backticks, and what follows it; `run` backticks stand right
before the text. -/
def codeSpan? (n : Nat) (run : Nat) : List Char → Option (List Char × List Char)
  | [] => if run = n then some ([], []) else none
  | '`' :: cs => codeSpan? n (run + 1) cs
  | c :: cs =>
    if run = n then some ([], c :: cs)
    else (codeSpan? n 0 cs).map fun (code, rest) => (List.replicate run '`' ++ c :: code, rest)

/-- Line ends as spaces. -/
def joinLines : List Char → List Char
  | [] => []
  | '\r' :: '\n' :: cs => ' ' :: joinLines cs
  | c :: cs => (if isLineBreak c then ' ' else c) :: joinLines cs

/-- The text of a code span. One space is dropped at both ends, if it stands at both and not all is blank. -/
def codeText (cs : List Char) : String :=
  let code := joinLines cs
  if code.head? == some ' ' && code.getLast? == some ' ' && !code.all (· == ' ') then
    String.ofList (code.drop 1).dropLast
  else String.ofList code

/-- Whether a run of marks can begin emphasis, by the characters around it. -/
def canOpen (mark : Char) (size : Nat) (before after : Option Char) : Bool :=
  match after with
  | none => false
  | some c =>
    if Text.isBlank c then false
    else if mark == '*' && !Text.isPunctuation c then true
    else if mark == '~' && 1 < size then true
    else
      match before with
      | none => true
      | some b =>
        (mark == '~' && b == '~' && !Text.isPunctuation c) || Text.isBlank b || Text.isPunctuation b

/-- Whether a run of marks can end emphasis, by the characters around it. -/
def canClose (mark : Char) (size : Nat) (before after : Option Char) : Bool :=
  match before with
  | none => false
  | some b =>
    if Text.isBlank b then false
    else
      match after with
      | none => true
      | some c =>
        ((mark == '*' || (mark == '~' && 1 < size)) && !Text.isPunctuation b)
          || (mark == '~' && b == '~') || Text.isBlank c || Text.isPunctuation c

/-- The piece for a run of marks. Three tildes or more stand for themselves. -/
def markPiece (mark : Char) (size : Nat) (before after : Option Char) : Piece :=
  let opens := canOpen mark size before after
  let closes := canClose mark size before after
  if (opens || closes) && (mark != '~' || size ≤ 2) then .run mark size opens closes
  else textPiece (List.replicate size mark)

/-- An opening bracket: whether it begins an image, whether a link may still begin here, the pieces before it in
reverse, and the text after it. -/
structure Opener where
  image : Bool
  active : Bool
  before : List Piece
  inside : List Char

/-- The bracket as text. -/
def Opener.piece (o : Opener) : Piece :=
  textPiece (if o.image then ['!', '['] else ['['])

/-- The pieces of open brackets that stand for themselves, before the pieces `out`; all in reverse. -/
def flatten : List Opener → List Piece → List Piece
  | [], out => out
  | o :: os, out => flatten os (out ++ o.piece :: o.before)

/-- Blanks with at most one line end among them. -/
def skipSeparator (cs : List Char) : List Char :=
  let cs := cs.dropWhile isLineBlank
  match cs with
  | [] => []
  | c :: rest =>
    if isLineBreak c then ((lineEnd? (c :: rest)).getD []).dropWhile isLineBlank else c :: rest

/-- The number of parentheses that may be open in the target of a link, less one. -/
def linkDepth : Nat := 5

/-- The target and title between parentheses, and what follows them. -/
def inlineLink? : List Char → Option (Target × List Char)
  | '(' :: cs =>
    match destination? linkDepth (skipSeparator cs) with
    | none => none
    | some (url, rest) =>
      let rest := skipSeparator rest
      let (title, rest) :=
        match title? (fun cs => some (cs.dropWhile isSpaceOrTab)) rest with
        | some (title, after) => (title, skipSeparator after)
        | none => ([], rest)
      match rest with
      | ')' :: rest => some (⟨String.ofList (unescape url), String.ofList (unescape title)⟩, rest)
      | _ => none
  | _ => none

/-- A label between brackets, of a footnote or a link. -/
inductive BracketLabel where
  | note (label : List Char)
  | link (label : List Char)

/-- The label whose opening bracket is already read, and what follows it. -/
def bracketLabel? (cs : List Char) : Option (BracketLabel × List Char) :=
  let link := (label? some cs).map fun (label, rest) => (BracketLabel.link label, rest)
  match cs with
  | '^' :: c :: rest =>
    if c = ']' then link
    else
      match label? (fun _ => none) (c :: rest) with
      | some (label, rest) => some (.note label, rest)
      | none => link
  | _ => link

/-- What a closing bracket makes of the text since its opening bracket. -/
inductive Closing where
  | link (target : Target) (rest : List Char)
  | note (label : String)
  | plain

/-- The label of the brackets themselves, where `rest` follows the closing one. -/
def ownLabel? (inside rest : List Char) : Option BracketLabel :=
  match bracketLabel? inside with
  | some (label, after) => if after.length = rest.length then some label else none
  | none => none

/-- The closing of a bracket whose own text is the label; a link goes on with `after`. -/
def ownReference (refs : References) (inside rest after : List Char) : Closing :=
  match ownLabel? inside rest with
  | some (.note label) => if refs.hasNote label then .note (String.ofList label) else .plain
  | some (.link label) =>
    match refs.target? label with
    | some target => .link target after
    | none => .plain
  | none => .plain

/-- The closing of a bracket by a label, and the text after the label if that is not defined. The bracket is not
a reference by itself where `refused` is set. -/
def reference (refs : References) (refused : Bool) (inside rest : List Char) : Closing × Option Nat :=
  let own := fun after => if refused then Closing.plain else ownReference refs inside rest after
  match rest with
  | '[' :: ']' :: after => (own after, none)
  | '[' :: label =>
    match bracketLabel? label with
    | some (.link label, after) =>
      match refs.target? label with
      | some target => (.link target after, none)
      | none => (.plain, some after.length)
    | _ => (own rest, none)
  | _ => (own rest, none)

/-- The events of a link or an image. -/
def linkEvents (image : Bool) (target : Target) (es : List Event) : List Event :=
  wrap (if image then .image target.url target.title else .link .place target.url target.title) es

/-- The place in a text: the character before it, the closing bracket that is no reference by itself (by what is
left after it), the open brackets, and the pieces since the last of them, in reverse. -/
structure Scan where
  before : Option Char
  refused : Option Nat
  openers : List Opener
  out : List Piece

namespace Scan

def start : Scan := ⟨none, none, [], []⟩

def push (s : Scan) (piece : Piece) (before : Option Char) : Scan :=
  { s with before, out := piece :: s.out }

/-- The scan after a closing bracket, and the text that follows. -/
def close (refs : References) (s : Scan) (rest : List Char) : Scan × List Char :=
  match s.openers with
  | [] => (s.push (textPiece [']']) (some ']'), rest)
  | o :: openers =>
    let plain : Scan :=
      { s with before := some ']', openers, out := textPiece [']'] :: s.out ++ o.piece :: o.before }
    let link := fun (target : Target) (mark : Char) =>
      { s with
        before := some mark
        openers := if o.image then openers else openers.map fun p => { p with active := p.image && p.active }
        out := .done (linkEvents o.image target (resolve s.out.reverse)) :: o.before }
    if o.active then
      match inlineLink? rest with
      | some (target, rest) => (link target ')', rest)
      | none =>
        match reference refs (s.refused == some rest.length) o.inside rest with
        | (.link target rest, _) => (link target ']', rest)
        | (.note label, _) =>
          let out := if o.image then textPiece ['!'] :: o.before else o.before
          ({ s with
              before := some ']'
              openers := []
              out := .done [.footnoteReference label] :: flatten openers out }, rest)
        | (.plain, refused) => ({ plain with refused := refused.or s.refused }, rest)
    else (plain, rest)

/-- The scan after the text from a `<`, and the text that follows. -/
def angle (s : Scan) (cs : List Char) : Scan × List Char :=
  let linked := fun (kind : LinkKind) (address : List Char) =>
    let text := String.ofList address
    s.push (.done (wrap (.link kind text "") [.text text])) (some '>')
  match webAddress? cs with
  | some (address, rest) => (linked .place address, rest)
  | none =>
    match mailAddress? cs with
    | some (address, rest) => (linked .mail address, rest)
    | none =>
      match rawHtml? cs with
      | some rest =>
        let html := '<' :: cs.take (cs.length - rest.length)
        (s.push (.done [.inlineHtml (String.ofList html)]) (some '>'), rest)
      | none => (s.push (textPiece ['<']) (some '<'), cs)

/-- The scan after plain text up to the end of its line. Two blanks or more at the end break the line. -/
def lineEnd (s : Scan) (text : List Char) (rest : List Char) : Scan × List Char :=
  let blanks := (text.reverse.takeWhile isLineBlank).length
  let rest := ((lineEnd? rest).getD []).dropWhile isSpaceOrTab
  let hard := 2 ≤ blanks
  let text := if hard then text.take (text.length - blanks) else text
  let s := if text.isEmpty then s else s.push (textPiece text) none
  (s.push (.done [if hard then .hardBreak else .softBreak]) none, rest)

/-- The scan after the bracket that begins a link or an image. -/
def opening (s : Scan) (image : Bool) (rest : List Char) : Scan :=
  { s with before := some '[', openers := ⟨image, true, s.out, rest⟩ :: s.openers, out := [] }

/-- The scan after one step, and the text that follows. -/
def step (refs : References) (s : Scan) (cs : List Char) : Scan × List Char :=
  match cs with
  | [] => (s, [])
  | '\\' :: rest =>
    match rest with
    | [] => (s.push (textPiece ['\\']) (some '\\'), [])
    | c :: after =>
      if isLineBreak c then
        (s.push (.done [.hardBreak]) none, ((lineEnd? rest).getD []).dropWhile isSpaceOrTab)
      else if Text.isAsciiPunctuation c then (s.push (textPiece [c]) (some c), after)
      else (s.push (textPiece ['\\']) (some '\\'), rest)
  | '`' :: rest =>
    let size := 1 + (rest.takeWhile (· == '`')).length
    let inside := rest.dropWhile (· == '`')
    match codeSpan? size 0 inside with
    | some (code, after) => (s.push (.done [.code (codeText code)]) (some '`'), after)
    | none => (s.push (textPiece (List.replicate size '`')) (some '`'), inside)
  | '&' :: rest =>
    match entity? cs with
    | some (value, after) => (s.push (textPiece value) (some ';'), after)
    | none => (s.push (textPiece ['&']) (some '&'), rest)
  | '<' :: rest => s.angle rest
  | '!' :: '[' :: rest => (s.opening true rest, rest)
  | '[' :: rest => (s.opening false rest, rest)
  | ']' :: rest => s.close refs rest
  | c :: rest =>
    if c == '*' || c == '_' || c == '~' then
      let size := 1 + (rest.takeWhile (· == c)).length
      let after := rest.dropWhile (· == c)
      (s.push (markPiece c size s.before after.head?) (some c), after)
    else if isLineBreak c then s.lineEnd [] cs
    else
      let text := c :: rest.takeWhile fun d => !isSpecial d
      let after := rest.dropWhile fun d => !isSpecial d
      if (after.head?.map isLineBreak).getD false then s.lineEnd text after
      else (s.push (textPiece text) text.getLast?, after)

/-- The pieces of a text, read in at most `n` steps. -/
def pieces (refs : References) : Nat → Scan → List Char → List Piece
  | 0, s, _ => (flatten s.openers s.out).reverse
  | n + 1, s, cs =>
    if cs.isEmpty then (flatten s.openers s.out).reverse
    else pieces refs n (s.step refs cs).1 (s.step refs cs).2

end Scan

def inlineEvents (refs : References) (cs : List Char) : List Event :=
  resolve (Scan.start.pieces refs cs.length cs)

end Markdown
end Folio

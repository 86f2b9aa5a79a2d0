import Folio.Decimal.Basic
import Folio.Error
import Folio.Text.Blank

/-!
# Folio.Template.Token

The parts of an engine template.

* `Token`: text that is copied, and between the marks of a tag the words, numbers, texts and signs in it.
* `tokens`: all parts of a template. A part that cannot be read is the last one and says why.

A mark with a hyphen takes away the blanks next to the tag. One line break at the end of a template is no part of it.
-/

namespace Folio
namespace Template

inductive Sign where
  | plus
  | minus
  | times
  | divide
  | divideFloor
  | power
  | modulo
  | tilde
  | dot
  | comma
  | colon
  | assign
  | bar
  | eq
  | ne
  | lt
  | lte
  | gt
  | gte
  | bracketOpen
  | bracketClose
  | parenOpen
  | parenClose
  | braceOpen
  | braceClose
  deriving DecidableEq, Repr

inductive Token where
  | text (cs : List Char)
  | printStart
  | printEnd
  | tagStart
  | tagEnd
  | word (name : String)
  | quoted (text : String)
  | integer (n : Nat)
  | float (x : Float)
  | sign (s : Sign)
  | broken (fault : TemplateFault)
  deriving Repr

/-- What a mark does to the blanks next to it. -/
inductive Trim where
  | keep
  | remove
  deriving DecidableEq, Repr

/-- The sign after an opening mark or before a closing one. -/
def trimSign? : Char → Option Trim
  | '-' => some .remove
  | '+' => some .keep
  | _ => none

inductive TagKind where
  | print
  | tag
  | comment
  deriving DecidableEq, Repr

/-- The kind of tag that begins with a brace and this character. -/
def tagKind? : Char → Option TagKind
  | '\x7b' => some .print
  | '%' => some .tag
  | '#' => some .comment
  | _ => none

def isSpace (c : Char) : Bool :=
  c == ' ' || c == '\t' || c == '\n' || c == '\r' || c == '\x0c'

def skipSpace (cs : List Char) : List Char :=
  cs.dropWhile isSpace

/-- The text before the first tag, and its kind with what follows the mark. -/
def splitTag : List Char → List Char × Option (TagKind × List Char)
  | [] => ([], none)
  | '\x7b' :: cs =>
    match cs with
    | [] => (['\x7b'], none)
    | c :: rest =>
      match tagKind? c with
      | some kind => ([], some (kind, rest))
      | none =>
        let (before, tag) := splitTag (c :: rest)
        ('\x7b' :: before, tag)
  | c :: cs =>
    let (before, tag) := splitTag cs
    (c :: before, tag)

/-- The sign after an opening mark, if one is there, and what follows. -/
def openingTrim (cs : List Char) : Option Trim × List Char :=
  match cs with
  | c :: rest =>
    match trimSign? c with
    | some t => (some t, rest)
    | none => (none, cs)
  | [] => (none, [])

/-! ### Words, numbers and texts -/

def isWordStart (c : Char) : Bool :=
  c.isAlpha || c == '_'

def isWordPart (c : Char) : Bool :=
  c.isAlphanum || c == '_'

/-- How far a number is read. -/
inductive NumberPart where
  | whole
  | radixWhole
  | fraction
  | exponent
  | exponentDigits
  deriving DecidableEq, Repr

def isHexLetter (c : Char) : Bool :=
  ('a' ≤ c && c ≤ 'f') || ('A' ≤ c && c ≤ 'F')

/-- The part that a number is in after one more character; none where the number ends before it. -/
def NumberPart.next? (radix : Nat) (part : NumberPart) (c : Char) : Option NumberPart :=
  if c.isDigit then
    match part with
    | .exponent => some .exponentDigits
    | part => some part
  else if c == '_' then some part
  else
    match part with
    | .whole => if c == '.' then some .fraction else if c == 'e' || c == 'E' then some .exponent else none
    | .fraction => if c == 'e' || c == 'E' then some .exponent else none
    | .exponent => if c == '+' || c == '-' then some .exponentDigits else none
    | .radixWhole => if radix == 16 && isHexLetter c then some .radixWhole else none
    | .exponentDigits => none

/-- The characters of a number, the part it ends in, and what follows. -/
def takeNumber (radix : Nat) (part : NumberPart) : List Char → List Char × NumberPart × List Char
  | [] => ([], part, [])
  | c :: cs =>
    match part.next? radix c with
    | none => ([], part, c :: cs)
    | some part =>
      let (taken, part, rest) := takeNumber radix part cs
      (c :: taken, part, rest)

def digitValue (c : Char) : Nat :=
  if c.isDigit then c.toNat - 48
  else if 'a' ≤ c ∧ c ≤ 'z' then c.toNat - 87
  else c.toNat - 55

/-- The integer in a radix, if these are digits of it and the integer has no more than 128 bits. -/
def integer? (radix : Nat) (cs : List Char) : Option Nat :=
  let n := cs.foldl (fun n c => n * radix + digitValue c) 0
  if cs.isEmpty || !(cs.all fun c => digitValue c < radix) || Nat.pow 2 128 ≤ n then none else some n

/-- The digits of an exponent, with their sign. -/
def exponentValue? (cs : List Char) : Option Int :=
  let (negative, digits) := match cs with
    | '-' :: cs => (true, cs)
    | '+' :: cs => (false, cs)
    | cs => (false, cs)
  if digits.isEmpty || !digits.all Char.isDigit then none
  else
    let n : Int := digits.foldl (fun n c => n * 10 + digitValue c) 0
    some (if negative then -n else n)

/-- The float in digits with a point or an exponent. The digits on one side of the point may be missing. -/
def float? (cs : List Char) : Option Float :=
  let whole := cs.takeWhile Char.isDigit
  let rest := cs.dropWhile Char.isDigit
  let (fraction, rest) := match rest with
    | '.' :: rest => (rest.takeWhile Char.isDigit, rest.dropWhile Char.isDigit)
    | rest => ([], rest)
  let exponent := match rest with
    | [] => some 0
    | _ :: rest => exponentValue? rest
  if whole.isEmpty && fraction.isEmpty then none
  else
    exponent.map fun exponent =>
      Decimal.toFloat
        ⟨(whole ++ fraction).foldl (fun n c => n * 10 + digitValue c) 0, exponent - fraction.length⟩

/-- The radix that the first two characters of a number name. -/
def radix? : List Char → Option (Nat × List Char)
  | '0' :: c :: cs =>
    if c == 'b' || c == 'B' then some (2, cs)
    else if c == 'o' || c == 'O' then some (8, cs)
    else if c == 'x' || c == 'X' then some (16, cs)
    else none
  | _ => none

/-- The number that begins here. Underscores in it count for nothing, but none may end it. -/
def readNumber (cs : List Char) : Token × List Char :=
  let (radix, part, cs) := match radix? cs with
    | some (radix, cs) => (radix, NumberPart.radixWhole, cs)
    | none => (10, .whole, cs)
  let (taken, part, rest) := takeNumber radix part cs
  let digits := taken.filter (· != '_')
  let token :=
    if taken.getLast? == some '_' then none
    else if part == .whole || part == .radixWhole then (integer? radix digits).map Token.integer
    else (float? digits).map Token.float
  (token.getD (.broken .syntaxError), rest)

/-- The characters up to a quotation mark that no backslash stands before, and what follows it. -/
def takeQuoted (mark : Char) : List Char → Option (List Char × List Char)
  | [] => none
  | '\\' :: cs =>
    match cs with
    | [] => none
    | c :: cs => (takeQuoted mark cs).map fun (text, rest) => ('\\' :: c :: text, rest)
  | c :: cs =>
    if c == mark then some ([], cs) else (takeQuoted mark cs).map fun (text, rest) => (c :: text, rest)

def hexValue? (c : Char) : Option Nat :=
  if c.isDigit || isHexLetter c then some (digitValue c) else none

/-- The number in four hexadecimal digits; the first of them may be a plus sign. -/
def fourDigits? : List Char → Option (Nat × List Char)
  | a :: b :: c :: d :: cs =>
    match (if a == '+' then some 0 else hexValue? a), hexValue? b, hexValue? c, hexValue? d with
    | some a, some b, some c, some d => some (((a * 16 + b) * 16 + c) * 16 + d, cs)
    | _, _, _, _ => none
  | _ => none

/-- The characters with an escape of one letter. -/
def shortEscape? : Char → Option Char
  | '"' => some '"'
  | '\\' => some '\\'
  | '/' => some '/'
  | '\'' => some '\''
  | 'b' => some '\x08'
  | 'f' => some '\x0c'
  | 'n' => some '\n'
  | 'r' => some '\r'
  | 't' => some '\t'
  | _ => none

/-- A text without its escapes. After the first half of a pair of surrogates, `half` holds it. -/
def unescape? : Nat → Option Nat → List Char → Option (List Char)
  | 0, _, _ => none
  | _ + 1, none, [] => some []
  | _ + 1, some _, [] => none
  | n + 1, half, '\\' :: 'u' :: cs =>
    match fourDigits? cs with
    | none => none
    | some (unit, cs) =>
      let isSurrogate := 0xD800 ≤ unit && unit < 0xE000
      match half with
      | none =>
        if isSurrogate then unescape? n (some unit) cs
        else (unescape? n none cs).map (Char.ofNat unit :: ·)
      | some first =>
        if first < 0xDC00 && 0xDC00 ≤ unit && isSurrogate then
          (unescape? n none cs).map (Char.ofNat (0x10000 + (first - 0xD800) * 0x400 + (unit - 0xDC00)) :: ·)
        else none
  | n + 1, none, '\\' :: c :: cs =>
    match shortEscape? c with
    | none => none
    | some c => (unescape? n none cs).map (c :: ·)
  | n + 1, none, c :: cs => (unescape? n none cs).map (c :: ·)
  | _ + 1, some _, _ :: _ => none

/-- The text after an opening quotation mark. -/
def readQuoted (mark : Char) (cs : List Char) : Token × List Char :=
  match takeQuoted mark cs with
  | none => (.broken .syntaxError, [])
  | some (text, rest) =>
    match unescape? (text.length + 1) none text with
    | none => (.broken .badEscape, rest)
    | some text => (.quoted (String.ofList text), rest)

def longSign? : List Char → Option (Sign × List Char)
  | '/' :: '/' :: cs => some (.divideFloor, cs)
  | '*' :: '*' :: cs => some (.power, cs)
  | '=' :: '=' :: cs => some (.eq, cs)
  | '!' :: '=' :: cs => some (.ne, cs)
  | '>' :: '=' :: cs => some (.gte, cs)
  | '<' :: '=' :: cs => some (.lte, cs)
  | _ => none

def shortSign? : Char → Option Sign
  | '+' => some .plus
  | '-' => some .minus
  | '*' => some .times
  | '/' => some .divide
  | '%' => some .modulo
  | '.' => some .dot
  | ',' => some .comma
  | ':' => some .colon
  | '~' => some .tilde
  | '|' => some .bar
  | '=' => some .assign
  | '>' => some .gt
  | '<' => some .lt
  | '(' => some .parenOpen
  | ')' => some .parenClose
  | '[' => some .bracketOpen
  | ']' => some .bracketClose
  | '\x7b' => some .braceOpen
  | '\x7d' => some .braceClose
  | _ => none

/-- What a sign adds to the number of open brackets. -/
def Sign.nesting : Sign → Int
  | .parenOpen => 1
  | .bracketOpen => 1
  | .braceOpen => 1
  | .parenClose => -1
  | .bracketClose => -1
  | .braceClose => -1
  | _ => 0

/-- The part of a tag that begins with `c`. -/
def readPart (c : Char) (cs : List Char) : Token × List Char :=
  match longSign? (c :: cs) with
  | some (sign, rest) => (.sign sign, rest)
  | none =>
    match shortSign? c with
    | some sign => (.sign sign, cs)
    | none =>
      if c == '\'' || c == '"' then readQuoted c cs
      else if c.isDigit then readNumber (c :: cs)
      else if isWordStart c then
        (.word (String.ofList (c :: cs.takeWhile isWordPart)), cs.dropWhile isWordPart)
      else (.broken .syntaxError, cs)

/-! ### Tags -/

def TagKind.closing : TagKind → List Char
  | .print => ['\x7d', '\x7d']
  | .tag => ['%', '\x7d']
  | .comment => ['#', '\x7d']

/-- What follows a mark at the start of a text. -/
def afterMark? (mark cs : List Char) : Option (List Char) :=
  if mark.isPrefixOf cs then some (cs.drop mark.length) else none

/-- The end of a tag that stands here, with its sign, and what follows. -/
def tagEnd? (kind : TagKind) (cs : List Char) : Option (Trim × List Char) :=
  match cs with
  | [] => none
  | c :: rest =>
    match trimSign? c, afterMark? kind.closing rest with
    | some trim, some rest => some (trim, rest)
    | _, _ => (afterMark? kind.closing cs).map (Trim.keep, ·)

/-- Whether a tag is the one with this name and nothing else in it: the sign at its end, and what follows. -/
def plainTag? (name : String) (cs : List Char) : Option (Trim × List Char) :=
  match afterMark? name.toList (skipSpace cs) with
  | none => none
  | some rest => tagEnd? .tag (skipSpace rest)

/-- The end of a raw text: the text, what is done to the blanks at its end and after the tag, and what follows. -/
def takeRaw : List Char → Option (List Char × Option Trim × Trim × List Char)
  | [] => none
  | '\x7b' :: '%' :: cs =>
    let (trim, rest) := openingTrim cs
    match plainTag? "endraw" rest with
    | some (after, rest) => some ([], trim, after, rest)
    | none => (takeRaw ('%' :: cs)).map fun (text, more) => ('\x7b' :: text, more)
  | c :: cs => (takeRaw cs).map fun (text, more) => (c :: text, more)

/-- What follows a comment, and the character before its end. -/
def afterComment? (last : Option Char) : List Char → Option (Trim × List Char)
  | [] => none
  | '#' :: '\x7d' :: cs => some (if last == some '-' then .remove else .keep, cs)
  | c :: cs => afterComment? (some c) cs

/-- Where reading stands: in the text between tags, or in a tag with a number of open brackets. -/
inductive Mode where
  | outside (trim : Trim)
  | inside (kind : TagKind) (nesting : Int)
  deriving DecidableEq, Repr

def emitText (cs : List Char) (ts : List Token) : List Token :=
  if cs.isEmpty then ts else .text cs :: ts

/-- The parts of the rest of a template, in at most `n` steps. -/
def tokensFrom : Nat → Mode → List Char → List Token
  | 0, _, _ => [.broken .syntaxError]
  | _ + 1, _, [] => []
  | n + 1, .outside trim, cs =>
    let cs := if trim == .remove then Text.trimStart cs else cs
    match splitTag cs with
    | (text, none) => emitText text []
    | (text, some (kind, rest)) =>
      let (before, body) := openingTrim rest
      emitText (if before == some .remove then Text.trimEnd text else text)
        (match kind with
        | .comment =>
          match afterComment? none body with
          | none => [.broken .syntaxError]
          | some (after, rest) => tokensFrom n (.outside after) rest
        | .print => .printStart :: tokensFrom n (.inside .print 0) body
        | .tag =>
          match plainTag? "raw" body with
          | none => .tagStart :: tokensFrom n (.inside .tag 0) body
          | some (first, rest) =>
            match takeRaw rest with
            | none => [.broken .syntaxError]
            | some (text, last, after, rest) =>
              let text := if first == .remove then Text.trimStart text else text
              let text := if last == some .remove then Text.trimEnd text else text
              .text text :: tokensFrom n (.outside after) rest)
  | n + 1, .inside kind nesting, cs =>
    match skipSpace cs with
    | [] => []
    | c :: rest =>
      match (if nesting == 0 then tagEnd? kind (c :: rest) else none) with
      | some (after, rest) =>
        (if kind == .print then Token.printEnd else .tagEnd) :: tokensFrom n (.outside after) rest
      | none =>
        match readPart c rest with
        | (.broken fault, _) => [.broken fault]
        | (.sign sign, rest) => .sign sign :: tokensFrom n (.inside kind (nesting + sign.nesting)) rest
        | (token, rest) => token :: tokensFrom n (.inside kind nesting) rest

/-- A template without the line break at its end. -/
def withoutFinalBreak (cs : List Char) : List Char :=
  let dropLast := fun (c : Char) (cs : List Char) => if cs.getLast? == some c then cs.dropLast else cs
  dropLast '\r' (dropLast '\n' cs)

def tokens (source : String) : List Token :=
  let cs := withoutFinalBreak source.toList
  tokensFrom (cs.length + 1) (.outside .keep) cs

end Template
end Folio

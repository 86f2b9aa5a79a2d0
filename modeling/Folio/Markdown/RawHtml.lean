import Folio.Text.Search
import Folio.Text.Case
import Folio.Markdown.Cursor

/-!
# Folio.Markdown.RawHtml

HTML inside markdown.

* `blockEnd?`, `startsBlockTag`, `isLoneTag`: the three ways in which a block of HTML begins.
* `rawHtml?`: what follows a tag, comment, instruction or declaration inside a line.
* `autolink?`: an address between angle brackets.
-/

namespace Folio
namespace Markdown

def isAlpha (c : Char) : Bool :=
  c.isAlpha

def isNameChar (c : Char) : Bool :=
  c.isAlphanum || c == '-'

def isAttributeStart (c : Char) : Bool :=
  c.isAlpha || c == '_' || c == ':'

def isAttributeChar (c : Char) : Bool :=
  c.isAlphanum || c == '_' || c == '.' || c == ':' || c == '-'

/-- Characters that end a value without quotes. -/
def endsBareValue (c : Char) : Bool :=
  c == '\'' || c == '"' || c == ' ' || c == '=' || c == '>' || c == '<' || c == '`' || isLineBreak c

/-- The text after blanks; line ends are among them where `breaks` is set. -/
def skipBlanks (breaks : Bool) (cs : List Char) : List Char :=
  cs.dropWhile fun c => isLineBlank c || (breaks && isLineBreak c)

/-- What follows a value up to the quote that closes it. -/
def quotedValue? (breaks : Bool) (quote : Char) (cs : List Char) : Option (List Char) :=
  match cs.dropWhile fun c => c != quote && (breaks || !isLineBreak c) with
  | c :: rest => if c = quote then some rest else none
  | [] => none

def attributeValue? (breaks : Bool) : List Char → Option (List Char)
  | [] => none
  | '"' :: cs => quotedValue? breaks '"' cs
  | '\'' :: cs => quotedValue? breaks '\'' cs
  | c :: cs => if endsBareValue c then none else some (cs.dropWhile fun d => !endsBareValue d)

def attribute? (breaks : Bool) : List Char → Option (List Char)
  | [] => none
  | c :: cs =>
    if isAttributeStart c then
      let rest := cs.dropWhile isAttributeChar
      match skipBlanks breaks rest with
      | '=' :: value => attributeValue? breaks (skipBlanks breaks value)
      | _ => some rest
    else none

/-- What follows the attributes of a tag: a slash or the closing bracket. At most `n` attributes are read. -/
def attributes? (breaks : Bool) : Nat → List Char → Option (List Char)
  | 0, _ => none
  | n + 1, cs =>
    match skipBlanks breaks cs with
    | [] => none
    | '/' :: rest => some ('/' :: rest)
    | '>' :: rest => some ('>' :: rest)
    | c :: rest =>
      if (cs.head?.map isAsciiBlank).getD false then
        match attribute? breaks (c :: rest) with
        | none => none
        | some rest => attributes? breaks n rest
      else none

/-- What follows a tag whose opening bracket is already read. -/
def tag? (breaks : Bool) : List Char → Option (List Char)
  | '/' :: c :: cs =>
    if isAlpha c then
      match (cs.dropWhile isNameChar).dropWhile isLineBlank with
      | '>' :: rest => some rest
      | _ => none
    else none
  | c :: cs =>
    if isAlpha c then
      match attributes? breaks (cs.length + 1) (cs.dropWhile isNameChar) with
      | some ('/' :: '>' :: rest) => some rest
      | some ('>' :: rest) => some rest
      | _ => none
    else none
  | [] => none

/-- What follows the HTML whose opening bracket is already read. -/
def rawHtml? : List Char → Option (List Char)
  | '!' :: '-' :: '-' :: cs => Text.after? "-->".toList ('-' :: '-' :: cs)
  | '!' :: '[' :: cs =>
    if "CDATA[".toList.isPrefixOf cs then Text.after? "]]>".toList (cs.drop 6) else none
  | '!' :: c :: cs => if isAlpha c then Text.after? ">".toList cs else none
  | '?' :: cs => Text.after? "?>".toList cs
  | cs => tag? true cs

/-- The tags whose contents are kept up to their closing tag. -/
def keptTags : List (List Char × List Char) :=
  [("pre".toList, "</pre>".toList), ("style".toList, "</style>".toList),
   ("script".toList, "</script>".toList), ("textarea".toList, "</textarea>".toList)]

/-- Whether a text, after an opening bracket, begins with a tag name that ends there. -/
def startsWithTag (name cs : List Char) : Bool :=
  name == (cs.take name.length).map Text.asciiLowerChar &&
    match cs.drop name.length with
    | [] => true
    | c :: _ => isAsciiBlank c || c == '>'

/-- The text that ends the block of HTML whose opening bracket is already read. -/
def blockEnd? (cs : List Char) : Option (List Char) :=
  match keptTags.find? fun p => startsWithTag p.1 cs with
  | some p => some p.2
  | none =>
    match cs with
    | '!' :: '-' :: '-' :: _ => some "-->".toList
    | '?' :: _ => some "?>".toList
    | '!' :: c :: cs =>
      if "[CDATA[".toList.isPrefixOf (c :: cs) then some "]]>".toList
      else if isAlpha c then some ">".toList
      else none
    | _ => none

/-- The tags that begin a block of HTML wherever they stand at the start of a line. -/
def blockTags : List String :=
  ["address", "article", "aside", "base", "basefont", "blockquote", "body", "caption", "center", "col",
   "colgroup", "dd", "details", "dialog", "dir", "div", "dl", "dt", "fieldset", "figcaption", "figure",
   "footer", "form", "frame", "frameset", "h1", "h2", "h3", "h4", "h5", "h6", "head", "header", "hr", "html",
   "iframe", "legend", "li", "link", "main", "menu", "menuitem", "nav", "noframes", "ol", "optgroup",
   "option", "p", "param", "search", "section", "summary", "table", "tbody", "td", "tfoot", "th", "thead",
   "title", "tr", "track", "ul"]

/-- Whether a text, after an opening bracket, begins with one of the block tags. -/
def startsBlockTag (cs : List Char) : Bool :=
  let cs := match cs with
    | '/' :: cs => cs
    | cs => cs
  blockTags.contains (String.ofList ((cs.takeWhile Char.isAlphanum).map Text.asciiLowerChar)) &&
    match cs.dropWhile Char.isAlphanum with
    | [] => true
    | '/' :: '>' :: _ => true
    | c :: _ => c == ' ' || c == '\t' || isLineBreak c || c == '>'

/-- Whether a text, after an opening bracket, is one tag and blanks up to the end of its line. -/
def isLoneTag (cs : List Char) : Bool :=
  match tag? false cs with
  | some rest => (blankLine? rest).isSome
  | none => false

/-- Whether a character can stand in an address between angle brackets. -/
def isAddressChar (c : Char) : Bool :=
  c.toNat > 0x20 && c != '<' && c != '>'

/-- The web address at the start of a text, up to a closing bracket, and what follows that. -/
def webAddress? (cs : List Char) : Option (List Char × List Char) :=
  let isSchemeChar := fun (c : Char) => c.isAlphanum || c == '.' || c == '-' || c == '+'
  let scheme := cs.takeWhile isSchemeChar
  match cs, cs.dropWhile isSchemeChar with
  | c :: _, ':' :: path =>
    if isAlpha c && 2 ≤ scheme.length && scheme.length ≤ 32 then
      match path.dropWhile isAddressChar with
      | '>' :: rest => some (scheme ++ ':' :: path.takeWhile isAddressChar, rest)
      | _ => none
    else none
  | _, _ => none

/-- Whether a text is a list of host labels between dots, where `size` characters of the first label and
whether the last of them is a hyphen are known. -/
def isHost (size : Nat) (afterHyphen : Bool) : List Char → Bool
  | [] => 0 < size && size ≤ 63 && !afterHyphen
  | '.' :: cs => 0 < size && size ≤ 63 && !afterHyphen && isHost 0 false cs
  | '-' :: cs => 0 < size && isHost (size + 1) true cs
  | c :: cs => c.isAlphanum && isHost (size + 1) false cs

/-- The mail address at the start of a text, up to a closing bracket, and what follows that. -/
def mailAddress? (cs : List Char) : Option (List Char × List Char) :=
  let isUserChar := fun (c : Char) => c.isAlphanum || ".!#$%&'*+/=?^_`\x7b|\x7d~-".toList.contains c
  let user := cs.takeWhile isUserChar
  match cs.dropWhile isUserChar with
  | '@' :: host =>
    let isHostChar := fun (c : Char) => c.isAlphanum || c == '-' || c == '.'
    let name := host.takeWhile isHostChar
    match host.dropWhile isHostChar with
    | '>' :: rest => if !user.isEmpty && isHost 0 false name then some (user ++ '@' :: name, rest) else none
    | _ => none
  | _ => none

end Markdown
end Folio

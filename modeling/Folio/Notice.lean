import Folio.Path
import Folio.Json
import Folio.Text.Quoted

/-!
# Folio.Notice

What a run reports while it works.

* `Notice`: one report. `Notice.level`, `Notice.source` and `Notice.text` are the parts of its line.
* `Notice.line`: the line in the log.
-/

namespace Folio

/-- How the text of a page is made: by the engine, by substitution in a plain template, or without a template. -/
inductive Strategy where
  | engine (template : Path)
  | plain (template : Path)
  | bare
  deriving DecidableEq, Repr

/-- Documents are markdown texts or scripts. -/
inductive DocumentKind where
  | markdown
  | script
  deriving DecidableEq, Repr

/-- A call of the engine: where templates are looked for, the template, and the values it is given. -/
structure RenderCall where
  searchDirs : List Path
  name : String
  context : Json
  deriving Repr

inductive Notice where
  | loadingConfig (path : Path)
  | noConfig (dir : Path)
  | noIgnoreFile (path : Path)
  | reading (kind : DocumentKind) (path : Path)
  | chosen (strategy : Strategy)
  | rendering (call : RenderCall)
  | writing (path : Path)
  | ignored (path : Path)
  | unsupported (path : Path)
  | generated (path : Path)
  deriving Repr

namespace Notice

/-- Notices of the first level are reported on demand only. -/
inductive Level where
  | debug
  | info
  | warning
  deriving DecidableEq, Repr

def level : Notice → Level
  | .unsupported _ => .warning
  | .generated _ => .info
  | _ => .debug

def source : Notice → String
  | .loadingConfig _ => "config"
  | .noConfig _ => "config"
  | .noIgnoreFile _ => "ignore"
  | .reading _ _ => "provider"
  | .chosen _ => "template"
  | .rendering _ => "renderer"
  | .writing _ => "output"
  | .ignored _ => "processor"
  | .unsupported _ => "processor"
  | .generated _ => "processor"

/-- A byte that belongs to no character. -/
def quotedByte (b : UInt8) : List Char :=
  ['\\', 'x'] ++ (Nat.toDigits 16 b.toNat).map Char.toUpper

/-- The longest start of a byte sequence that is text, of at most `n` bytes, and the rest. -/
def textStart (bytes : List UInt8) : Nat → String × List UInt8
  | 0 => ("", bytes)
  | n + 1 =>
    match Text.decode? (bytes.take (n + 1)) with
    | some text => (text, bytes.drop (n + 1))
    | none => textStart bytes n

/-- The characters of a path between quotation marks, read in at most `n` steps. -/
def quotedBytes : Nat → List UInt8 → List Char
  | 0, _ => []
  | n + 1, bytes =>
    let (text, rest) := textStart bytes bytes.length
    let written := text.toList.flatMap Text.quotedChar
    match rest with
    | [] => written
    | b :: rest => written ++ quotedByte b ++ quotedBytes n rest

/-- A path between quotation marks. -/
def quotedPath (p : Path) : List Char :=
  '"' :: quotedBytes (p.bytes.length + 1) p.bytes ++ ['"']

def listed : List Path → List Char
  | [] => []
  | [p] => quotedPath p
  | p :: ps => quotedPath p ++ ", ".toList ++ listed ps

def text : Notice → String
  | .loadingConfig p => "Loading configuration from " ++ p.display
  | .noConfig dir => "No configuration file found in " ++ dir.display
  | .noIgnoreFile p => p.display ++ " does not exist"
  | .reading .markdown p => "Parsing markdown " ++ p.display
  | .reading .script p => "Formatting script " ++ p.display
  | .chosen (.engine p) => "Using template engine for " ++ p.display
  | .chosen (.plain p) => "Using placeholder substitution for " ++ p.display
  | .chosen .bare => "No template given, writing content and tooltips only"
  | .rendering call =>
    "Rendering '" ++ call.name ++ "' with search path [" ++ String.ofList (listed call.searchDirs) ++ "]"
  | .writing p => "Writing output to " ++ p.display
  | .ignored p => "Skipping ignored file " ++ p.display
  | .unsupported p => "Skipping unsupported file " ++ p.display
  | .generated p => "Generated '" ++ p.display ++ "'"

/-- The word for a level, padded to one width. -/
def Level.word : Level → String
  | .debug => "DEBUG"
  | .info => "INFO "
  | .warning => "WARN "

/-- A text whose lines are indented, but for the first one. -/
def indented (text : List Char) : List Char :=
  text.flatMap fun c => if c = '\n' then "\n    ".toList else [c]

/-- The line of a notice in the log. Where its text has several lines, the others are indented below it. -/
def line (n : Notice) : String :=
  "[" ++ n.level.word ++ " litdoc::" ++ n.source ++ "] " ++ String.ofList (indented n.text.toList)

/-- The call of the engine that a notice reports. -/
def call? : Notice → Option RenderCall
  | .rendering call => some call
  | _ => none

end Notice

end Folio

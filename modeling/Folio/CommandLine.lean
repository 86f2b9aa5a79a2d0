import Folio.Options
import Folio.Text.Search

/-!
# Folio.CommandLine

The arguments of a run.

* `Command`: what is to be done, with all that is chosen for it. `RenderArguments` are the choices for pages.
* `UsageError`: why arguments are not accepted, or which information they ask for.
* `CommandLine.parse`: the command that a list of arguments asks for.

An option's value is checked when the next option or argument is met, or at the end. So an unknown argument is
reported before a bad value right in front of it.
-/

namespace Folio

inductive UsageError where
  | helpRequested
  | versionRequested
  | noArguments
  | missingCommand
  | unknownCommand
  | missingArgument
  | unknownArgument
  | repeatedArgument
  | invalidValue
  | invalidReplacement
  | unexpectedValue
  deriving DecidableEq, Repr

/-- The choices for pages, as they are given. -/
structure RenderArguments where
  template : Option Path := none
  format : Option OutputFormat := none
  layoutRoots : List Path := []
  replacements : List (String × String) := []
  includeSource : Bool := false
  noIncludeSource : Bool := false

namespace RenderArguments

/-- Whether the source is wanted; none where neither flag is given. -/
def includeChoice (r : RenderArguments) : Option Bool :=
  if r.includeSource then some true else if r.noIncludeSource then some false else none

def choices (r : RenderArguments) : Choices where
  template := r.template
  format := r.format
  replacements := ParameterSet.ofPairs r.replacements
  layoutRoots := r.layoutRoots
  includeSource := r.includeChoice

end RenderArguments

inductive Command where
  | document (kind : DocumentKind) (input : Path) (output : Option Path) (render : RenderArguments)
  | directory (input outputDir : Path) (scriptExtensions : List String) (render : RenderArguments)

/-- The name of a parameter and its value, on both sides of the first equals sign. -/
def parseReplacement? (text : String) : Option (String × String) :=
  match Text.splitOnce '=' text.toList with
  | some (c :: name, value) => some (String.ofList (c :: name), String.ofList value)
  | _ => none

/-- What is wrong with a text that names no parameter. -/
def replacementMessage (text : String) : String :=
  "expected KEY=VALUE, got '" ++ text ++ "'"

structure CommandLine where
  verbose : Bool
  command : Command

namespace CommandLine

inductive CommandName where
  | markdown
  | script
  | directory
  deriving DecidableEq, Repr

def CommandName.ofWord? (word : String) : Option CommandName :=
  if word = "markdown" then some .markdown
  else if word = "script" then some .script
  else if word = "directory" then some .directory
  else none

/-- The number of arguments that a command has besides its options. -/
def CommandName.arity : CommandName → Nat
  | .markdown => 1
  | .script => 1
  | .directory => 2

/-- What an argument with a hyphen names: an option with a value, or a flag. -/
inductive Switch where
  | output
  | template
  | format
  | layoutRoot
  | replacement
  | scriptExtension
  | includeSource
  | noIncludeSource
  | verbose
  | help
  deriving DecidableEq, Repr

def Switch.takesValue : Switch → Bool
  | .includeSource => false
  | .noIncludeSource => false
  | .verbose => false
  | .help => false
  | _ => true

/-- The switch with a long name. -/
def Switch.ofLong? (command : CommandName) (name : String) : Option Switch :=
  match name with
  | "template" => some .template
  | "format" => some .format
  | "layout-root" => some .layoutRoot
  | "replace" => some .replacement
  | "include-source" => some .includeSource
  | "no-include-source" => some .noIncludeSource
  | "verbose" => some .verbose
  | "help" => some .help
  | "output" => if command = .directory then none else some .output
  | "script-ext" => if command = .directory then some .scriptExtension else none
  | _ => none

/-- The switch with a short name. -/
def Switch.ofShort? (command : CommandName) (name : Char) : Option Switch :=
  match name with
  | 't' => some .template
  | 'r' => some .replacement
  | 'v' => some .verbose
  | 'h' => some .help
  | 'o' => if command = .directory then none else some .output
  | _ => none

/-- A value that is not yet checked: of an option, which may still wait for it, or of an argument. -/
inductive Pending where
  | nothing
  | value (switch : Switch) (text : Option String)
  | argument (text : String)
  deriving Repr

/-- What is read of the arguments of a command. -/
structure Reading where
  verbose : Bool := false
  output : Option Path := none
  scriptExtensions : List String := []
  render : RenderArguments := {}
  arguments : List Path := []
  pending : Pending := .nothing

namespace Reading

/-- A path that is not empty. -/
def path? (text : String) : Except UsageError Path :=
  if text.isEmpty then .error .invalidValue else .ok (Path.ofString text)

/-- The value of an option that may be given once. -/
def once {α : Type} (old : Option α) (value : Except UsageError α) : Except UsageError (Option α) :=
  match old with
  | some _ => .error .repeatedArgument
  | none => value.map some

def assign (r : Reading) (switch : Switch) (text : String) : Except UsageError Reading :=
  match switch with
  | .output => (once r.output (path? text)).map fun output => { r with output }
  | .template =>
    (once r.render.template (path? text)).map fun template => { r with render := { r.render with template } }
  | .format =>
    let value := match OutputFormat.ofKeyword? text with
      | some format => .ok format
      | none => .error .invalidValue
    (once r.render.format value).map fun format => { r with render := { r.render with format } }
  | .layoutRoot =>
    (path? text).map fun root =>
      { r with render := { r.render with layoutRoots := r.render.layoutRoots ++ [root] } }
  | .replacement =>
    match parseReplacement? text with
    | none => .error .invalidReplacement
    | some p => .ok { r with render := { r.render with replacements := r.render.replacements ++ [p] } }
  | .scriptExtension => .ok { r with scriptExtensions := r.scriptExtensions ++ [text] }
  | _ => .ok r

/-- Checks and takes the pending value. -/
def settle (r : Reading) : Except UsageError Reading :=
  match r.pending with
  | .nothing => .ok r
  | .value _ none => .error .invalidValue
  | .value switch (some text) => { r with pending := .nothing }.assign switch text
  | .argument text =>
    (path? text).map fun p => { r with arguments := r.arguments ++ [p], pending := .nothing }

/-- Sets a flag. Each of the two flags for the source takes back the other one. -/
def raise (r : Reading) (switch : Switch) : Except UsageError Reading :=
  match switch with
  | .verbose => if r.verbose then .error .repeatedArgument else .ok { r with verbose := true }
  | .includeSource =>
    if r.render.includeSource then .error .repeatedArgument
    else .ok { r with render := { r.render with includeSource := true, noIncludeSource := false } }
  | .noIncludeSource =>
    if r.render.noIncludeSource then .error .repeatedArgument
    else .ok { r with render := { r.render with includeSource := false, noIncludeSource := true } }
  | .help => .error .helpRequested
  | _ => .ok r

def meetFlag (r : Reading) (switch : Switch) : Except UsageError Reading :=
  match r.settle with
  | .error e => .error e
  | .ok r => r.raise switch

/-- Meets an option, with its value where that is attached. -/
def meetOption (r : Reading) (switch : Switch) (value : Option String) : Except UsageError Reading :=
  match r.settle with
  | .error e => .error e
  | .ok r =>
    match value with
    | some text => r.assign switch text
    | none => .ok { r with pending := .value switch none }

/-- Meets an argument that begins with two hyphens. -/
def meetLong (command : CommandName) (r : Reading) (text : List Char) : Except UsageError Reading :=
  let (name, value) := match Text.splitOnce '=' text with
    | some (name, value) => (name, some (String.ofList value))
    | none => (text, none)
  match Switch.ofLong? command (String.ofList name) with
  | none => .error .unknownArgument
  | some switch =>
    if switch.takesValue then r.meetOption switch value
    else
      match value with
      | some _ => .error .unexpectedValue
      | none => r.meetFlag switch

/-- Meets the letters after one hyphen. The rest after an option is its value. -/
def meetShort (command : CommandName) (r : Reading) : List Char → Except UsageError Reading
  | [] => .ok r
  | c :: cs =>
    match Switch.ofShort? command c with
    | none => .error .unknownArgument
    | some switch =>
      if switch.takesValue then
        r.meetOption switch (match cs with
          | [] => none
          | '=' :: value => some (String.ofList value)
          | value => some (String.ofList value))
      else
        match r.meetFlag switch with
        | .error e => .error e
        | .ok r => meetShort command r cs

def argumentCount (r : Reading) : Nat :=
  r.arguments.length + match r.pending with
    | .argument _ => 1
    | _ => 0

/-- Meets an argument that is none of the switches. -/
def meetArgument (command : CommandName) (r : Reading) (text : String) : Except UsageError Reading :=
  if command.arity ≤ r.argumentCount then .error .unknownArgument
  else
    match r.settle with
    | .error e => .error e
    | .ok r => .ok { r with pending := .argument text }

/-- Meets a word that is no switch: the value that an option waits for, or an argument. -/
def meetWord (command : CommandName) (r : Reading) (text : String) : Except UsageError Reading :=
  match r.pending with
  | .value switch none => .ok { r with pending := .value switch (some text) }
  | _ => r.meetArgument command text

/-- Reads the arguments of a command. After two hyphens, `plain` is set and no switches are left. -/
def readAll (command : CommandName) : Bool → Reading → List String → Except UsageError Reading
  | _, r, [] => r.settle
  | true, r, word :: words =>
    match r.meetArgument command word with
    | .error e => .error e
    | .ok r => readAll command true r words
  | false, r, word :: words =>
    match word.toList with
    | ['-', '-'] => readAll command true r words
    | '-' :: '-' :: text =>
      match r.meetLong command text with
      | .error e => .error e
      | .ok r => readAll command false r words
    | '-' :: c :: text =>
      match r.meetShort command (c :: text) with
      | .error e => .error e
      | .ok r => readAll command false r words
    | _ =>
      match r.meetWord command word with
      | .error e => .error e
      | .ok r => readAll command false r words

/-- The command, if all its arguments are there. -/
def toCommand? (r : Reading) : CommandName → Option Command
  | .markdown => r.arguments.head?.map fun input => .document .markdown input r.output r.render
  | .script => r.arguments.head?.map fun input => .document .script input r.output r.render
  | .directory =>
    match r.arguments with
    | [input, outputDir] => some (.directory input outputDir r.scriptExtensions r.render)
    | _ => none

end Reading

/-- Reads a command after its name. -/
def parseCommand (verbose : Bool) (name : CommandName) (words : List String) : Except UsageError CommandLine :=
  match Reading.readAll name false {} words with
  | .error e => .error e
  | .ok r =>
    match r.toCommand? name with
    | none => .error .missingArgument
    | some command => .ok ⟨verbose || r.verbose, command⟩

/-- The answer to a request for help on commands. -/
def helpOn : List String → UsageError
  | [] => .helpRequested
  | [word] =>
    if word = "help" ∨ (CommandName.ofWord? word).isSome then .helpRequested else .unknownCommand
  | _ => .unknownCommand

/-- What is missing where no command is named. -/
def withoutCommand (verbose : Bool) : UsageError :=
  if verbose then .missingCommand else .noArguments

/-- What is wrong with the words after two hyphens where a command should stand. -/
def afterHyphens (verbose : Bool) : List String → UsageError
  | [] => withoutCommand verbose
  | word :: _ =>
    if word = "help" ∨ (CommandName.ofWord? word).isSome then .unknownArgument else .unknownCommand

/-- Meets an argument that begins with two hyphens before the command. -/
def rootLong (verbose : Bool) (text : List Char) : Except UsageError Bool :=
  let (name, value) := match Text.splitOnce '=' text with
    | some (name, _) => (name, true)
    | none => (text, false)
  let known := ["verbose", "help", "version"].contains (String.ofList name)
  if !known then .error .unknownArgument
  else if value then .error .unexpectedValue
  else if String.ofList name = "help" then .error .helpRequested
  else if String.ofList name = "version" then .error .versionRequested
  else if verbose then .error .repeatedArgument
  else .ok true

/-- Meets the letters after one hyphen before the command. -/
def rootShort (verbose : Bool) : List Char → Except UsageError Bool
  | [] => .ok verbose
  | 'v' :: cs => if verbose then .error .repeatedArgument else rootShort true cs
  | 'h' :: _ => .error .helpRequested
  | 'V' :: _ => .error .versionRequested
  | _ => .error .unknownArgument

/-- Reads arguments, where `verbose` says whether that flag is already met. -/
def parseFrom (verbose : Bool) : List String → Except UsageError CommandLine
  | [] => .error (withoutCommand verbose)
  | word :: words =>
    if word = "help" then .error (helpOn words)
    else
      match CommandName.ofWord? word with
      | some name => parseCommand verbose name words
      | none =>
        match word.toList with
        | ['-', '-'] => .error (afterHyphens verbose words)
        | '-' :: '-' :: text =>
          match rootLong verbose text with
          | .error e => .error e
          | .ok verbose => parseFrom verbose words
        | '-' :: c :: text =>
          match rootShort verbose (c :: text) with
          | .error e => .error e
          | .ok verbose => parseFrom verbose words
        | _ => .error .unknownCommand

def parse (words : List String) : Except UsageError CommandLine :=
  parseFrom false words

end CommandLine

end Folio

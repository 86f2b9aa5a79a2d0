import Folio.Batch
import Folio.CommandLine
import Folio.Config.Load

/-!
# Folio.Program

A run of the program.

* `Command.perform`: does what is asked for; the line that reports it.
* `Outcome`: how a run ends. `Outcome.code`, `Outcome.output` and `Outcome.complaint` are what is seen of it.
* `Program.run`: the run for a list of arguments.
-/

namespace Folio

/-- The page of one document, with the configuration of its directory. -/
def performDocument (renderer : Renderer) (kind : DocumentKind) (input : Path) (options : DocumentOptions) :
    Action String := do
  let config ← ProjectConfig.load input.directory
  let written ← processDocument renderer kind input (config.completeDocument options)
  return "Generated: '" ++ written.display ++ "'\n"

/-- The pages of a directory, with its configuration. -/
def performDirectory (renderer : Renderer) (input : Path) (options : DirectoryOptions) : Action String := do
  let config ← ProjectConfig.load input
  let options := config.completeDirectory options
  let written ← processDirectory renderer input options
  return "Documentation generation completed: " ++ toString written.length ++ " file(s) in "
    ++ options.outputDir.display ++ ".\n"

/-- Does what is asked for. Choices that are not made in the arguments are taken from the configuration. -/
def Command.perform (renderer : Renderer) : Command → Action String
  | .document kind input output render =>
    performDocument renderer kind input { render.choices with output }
  | .directory input outputDir scriptExtensions render =>
    performDirectory renderer input { render.choices with outputDir, scriptExtensions }

inductive Outcome where
  | finished (report : String)
  | failed (cause : Error)
  | misused (cause : UsageError)
  deriving DecidableEq, Repr

namespace UsageError

/-- Whether the arguments ask for information only. -/
def isRequest : UsageError → Bool
  | .helpRequested => true
  | .versionRequested => true
  | _ => false

/-- Whether something is missing that the help names. -/
def asksForHelp : UsageError → Bool
  | .helpRequested => true
  | .missingCommand => true
  | .missingArgument => true
  | _ => false

def message : UsageError → String
  | .helpRequested => ""
  | .versionRequested => ""
  | .noArguments => "error: no command is given"
  | .missingCommand => "error: no command is given"
  | .unknownCommand => "error: unrecognized command"
  | .missingArgument => "error: an argument is missing"
  | .unknownArgument => "error: unexpected argument"
  | .repeatedArgument => "error: an argument is given more than once"
  | .invalidValue => "error: invalid value"
  | .invalidReplacement => "error: a replacement needs a name and an equals sign"
  | .unexpectedValue => "error: unexpected value"

end UsageError

/-- The text on all commands and options. -/
def helpText : String :=
  "litdoc: render markdown and scripts into documentation pages\n\n" ++
  "Usage: litdoc [OPTIONS] <COMMAND>\n\n" ++
  "Commands:\n" ++
  "  markdown   Render a single markdown file\n" ++
  "  script     Render a single script file as a code listing\n" ++
  "  directory  Render every markdown and script file under a directory\n" ++
  "  help       Print this message or the help of the given subcommand(s)\n\n" ++
  "Options:\n" ++
  "  -v, --verbose  Enable verbose logging output\n" ++
  "  -h, --help     Print help\n" ++
  "  -V, --version  Print version\n"

def versionText : String := "litdoc 0.3.1\n"

namespace Outcome

/-- The exit status. -/
def code : Outcome → Nat
  | .finished _ => 0
  | .failed _ => 1
  | .misused cause => if cause.isRequest then 0 else if cause.asksForHelp then 1 else 2

/-- The text on the standard output. -/
def output : Outcome → String
  | .finished report => report
  | .failed _ => ""
  | .misused .versionRequested => versionText
  | .misused cause => if cause.asksForHelp then helpText else ""

/-- The text on the error output, apart from the log. -/
def complaint : Outcome → String
  | .finished _ => ""
  | .failed cause => cause.message
  | .misused cause => if cause.asksForHelp then "" else cause.message

end Outcome

namespace Program

/-- Whether a notice is logged. -/
def shows (verbose : Bool) (n : Notice) : Bool :=
  verbose || n.level != .debug

/-- A run: how it ends, the lines of its log, and the files after it. -/
def run (renderer : Renderer) (arguments : List String) (fs : FileSystem) : Outcome × List String × FileSystem :=
  match CommandLine.parse arguments with
  | .error e => (.misused e, [], fs)
  | .ok line =>
    let (result, world) := line.command.perform renderer ⟨fs, []⟩
    let log := (world.notices.filter (shows line.verbose)).map Notice.line
    match result with
    | .ok report => (.finished report, log, world.fs)
    | .error e => (.failed e, log, world.fs)

end Program

end Folio

import Folio.FileSystem.Basic

/-!
# Folio.Error

Why a page cannot be written.

* `TemplateFault`: what can be wrong with a template or with the values it is rendered with.
* `Error`: all causes; `Error.message` is the text shown for one.
-/

namespace Folio

inductive TemplateFault where
  | syntaxError
  | templateNotFound
  | invalidOperation
  | undefinedValue
  | nonKey
  | tooManyArguments
  | missingArgument
  | unknownFilter
  | unknownTest
  | unknownFunction
  | unknownMethod
  | unknownBlock
  | badInclude
  | badSerialization
  | badEscape
  | cannotUnpack
  | blockFailed
  deriving DecidableEq, Repr

inductive Error where
  | io (cause : IoError)
  | template (fault : TemplateFault)
  | missingParameter (name : String)
  | config (text : String)
  | ignore (text : String)
  | document (path : String) (reason : String)
  deriving DecidableEq, Repr

def Error.message : Error → String
  | .io cause => "IO error: " ++ cause.message ++ "."
  | .template _ => "Template engine error"
  | .missingParameter name => "Missing parameter '" ++ name ++ "'."
  | .config text => "Configuration error: " ++ text ++ "."
  | .ignore text => "Ignore file error: " ++ text ++ "."
  | .document path reason => "Cannot process '" ++ path ++ "': " ++ reason ++ "."

/-- The cause of a configuration that cannot be read. -/
def invalidConfig : Error :=
  .config "Invalid configuration format"

end Folio

import Folio.Options

/-!
# Folio.Config.Basic

The configuration of a project.

* `ProjectConfig`: what a project chooses for all its pages.
* `ProjectConfig.complete`: choices, completed by those of the project. What is chosen explicitly wins.
* `ProjectConfig.Field`: the members of a configuration, by the names they have in a file.
* `ProjectConfig.ValueReader`: how values are read in one of the notations. `ofMembers?` is a configuration from
  values with their names.
-/

namespace Folio

structure ProjectConfig where
  template : Option Path
  format : Option OutputFormat
  layoutRoots : List Path
  replacements : ParameterSet
  includeSource : Bool
  scriptExtensions : List String

namespace ProjectConfig

/-- The configuration of a project that chooses nothing. -/
def default : ProjectConfig where
  template := none
  format := none
  layoutRoots := []
  replacements := ParameterSet.empty
  includeSource := false
  scriptExtensions := []

/-- The choices, completed by those of the project. -/
def complete (config : ProjectConfig) (c : Choices) : Choices where
  template := c.template.or config.template
  format := c.format.or config.format
  replacements := config.replacements.insertAll c.replacements.pairs
  layoutRoots := c.layoutRoots ++ config.layoutRoots
  includeSource := some (c.includeSource.getD config.includeSource)

def completeDocument (config : ProjectConfig) (options : DocumentOptions) : DocumentOptions :=
  { options with toChoices := config.complete options.toChoices }

def completeDirectory (config : ProjectConfig) (options : DirectoryOptions) : DirectoryOptions :=
  { options with
    toChoices := config.complete options.toChoices
    scriptExtensions :=
      if options.scriptExtensions.isEmpty then config.scriptExtensions else options.scriptExtensions }

/-- The configuration with its paths taken from a directory. -/
def inDirectory (config : ProjectConfig) (dir : Path) : ProjectConfig :=
  { config with
    template := config.template.map dir.join
    layoutRoots := config.layoutRoots.map dir.join }

/-! ### Reading -/

inductive Field where
  | template
  | format
  | layoutRoots
  | replacements
  | includeSource
  | scriptExtensions
  deriving DecidableEq, Repr

/-- All members, in their order. -/
def Field.all : List Field :=
  [.template, .format, .layoutRoots, .replacements, .includeSource, .scriptExtensions]

def Field.name : Field → String
  | .template => "template"
  | .format => "format"
  | .layoutRoots => "layout_roots"
  | .replacements => "replacements"
  | .includeSource => "include_source"
  | .scriptExtensions => "script_extensions"

def Field.ofName? (name : String) : Option Field :=
  Field.all.find? (·.name == name)

/-- How values are read in a notation: each reader refuses the values that are not of its kind. -/
structure ValueReader (ν : Type) where
  optionalText? : ν → Option (Option String)
  optionalFormat? : ν → Option (Option OutputFormat)
  texts? : ν → Option (List String)
  pairs? : ν → Option (List (String × String))
  flag? : ν → Option Bool

/-- The configuration with a value for a member. -/
def set? {ν : Type} (r : ValueReader ν) (config : ProjectConfig) (field : Field) (value : ν) :
    Option ProjectConfig :=
  match field with
  | .template => (r.optionalText? value).map fun text => { config with template := text.map Path.ofString }
  | .format => (r.optionalFormat? value).map fun format => { config with format }
  | .layoutRoots => (r.texts? value).map fun texts => { config with layoutRoots := texts.map Path.ofString }
  | .replacements =>
    (r.pairs? value).map fun pairs => { config with replacements := ParameterSet.ofPairs pairs }
  | .includeSource => (r.flag? value).map fun flag => { config with includeSource := flag }
  | .scriptExtensions => (r.texts? value).map fun texts => { config with scriptExtensions := texts }

/-- The configuration with values for these members, one after the other. -/
def setAll? {ν : Type} (r : ValueReader ν) (config : ProjectConfig) : List (Field × ν) → Option ProjectConfig
  | [] => some config
  | (field, value) :: members =>
    match config.set? r field value with
    | none => none
    | some config => config.setAll? r members

/-- The members that these names stand for; a name that is unknown or met before stands for none. -/
def fields? {ν : Type} : List (String × ν) → Option (List (Field × ν))
  | [] => some []
  | (name, value) :: members =>
    match Field.ofName? name, fields? members with
    | some field, some fields =>
      if (fields.lookup field).isSome then none else some ((field, value) :: fields)
    | _, _ => none

/-- The configuration with these members. -/
def ofMembers? {ν : Type} (r : ValueReader ν) (members : List (String × ν)) : Option ProjectConfig :=
  (fields? members).bind (default.setAll? r)

/-- The configuration with these values, which are the first members in their order. -/
def ofValues? {ν : Type} (r : ValueReader ν) (values : List ν) : Option ProjectConfig :=
  if Field.all.length < values.length then none else default.setAll? r (Field.all.zip values)

end ProjectConfig

end Folio

import Folio.Config.Basic
import Folio.Error
import Folio.Json.Parser
import Folio.Yaml.Node

/-!
# Folio.Config.Text

Configurations from the text of a file.

* `ofJson?`: from JSON, where a configuration is an object, or an array of its values.
* `ofYaml?`: from YAML, where a configuration is a mapping. A text without quotation marks is a text in any case,
  whatever else it could be.
* `parse`: the configuration in a text: the JSON reading wins. A blank text chooses nothing.
-/

namespace Folio
namespace ProjectConfig

/-! ### JSON -/

namespace OfJson

def text? : Json → Option String
  | .str s => some s
  | _ => none

def optionalText? : Json → Option (Option String)
  | .null => some none
  | value => (text? value).map some

/-- A format by its name, which may also be the name of a null. -/
def format? : Json → Option OutputFormat
  | .str word => OutputFormat.ofKeyword? word
  | .obj [(word, .null)] => OutputFormat.ofKeyword? word
  | _ => none

def optionalFormat? : Json → Option (Option OutputFormat)
  | .null => some none
  | value => (format? value).map some

def texts? : Json → Option (List String)
  | .arr items => items.mapM text?
  | _ => none

def pairs? : Json → Option (List (String × String))
  | .obj members => members.mapM fun (name, value) => (text? value).map (name, ·)
  | _ => none

def flag? : Json → Option Bool
  | .bool b => some b
  | _ => none

def reader : ValueReader Json :=
  ⟨optionalText?, optionalFormat?, texts?, pairs?, flag?⟩

end OfJson

def ofJson? : Json → Option ProjectConfig
  | .obj members => ofMembers? OfJson.reader members
  | .arr items => ofValues? OfJson.reader items
  | _ => none

/-! ### YAML -/

namespace OfYaml

open Yaml

/-- The node that stands for this one in the document `root`. -/
def resolve (root node : Node) : Node :=
  match node with
  | .reference number => (root.target? number).getD node
  | node => node

/-- The words for nothing. -/
def isNullWord (text : String) : Bool :=
  ["null", "Null", "NULL", "~"].contains text

def nullTag : Tag :=
  Text.encode "tag:yaml.org,2002:null"

def boolTag : Tag :=
  Text.encode "tag:yaml.org,2002:bool"

/-- Whether a text stands for nothing; none where its tag says so and its text does not. -/
def isNull? (s : Scalar) : Option Bool :=
  if s.style != .plain then some false
  else
    match s.tag with
    | none => some (s.text.isEmpty || isNullWord s.text)
    | some tag => if tag == nullTag then (if isNullWord s.text then some true else none) else some false

/-- A scalar that is not written at all, tags apart. -/
def isMissing (s : Scalar) : Bool :=
  s.style == .plain && s.text.isEmpty

def text? (root node : Node) : Option String :=
  match resolve root node with
  | .scalar _ s => some s.text
  | _ => none

/-- A value that may be missing or null. -/
def optional? {α : Type} (read : Scalar → Option α) (root node : Node) : Option (Option α) :=
  match resolve root node with
  | .scalar _ s =>
    match isNull? s with
    | none => none
    | some true => some none
    | some false => (read s).map some
  | _ => none

def optionalText? (root node : Node) : Option (Option String) :=
  optional? (fun s => some s.text) root node

/-- The word in a tag that is local to the document. -/
def localWord? (tag : Tag) : Option String :=
  match tag with
  | 0x21 :: [] => Text.decode? tag
  | 0x21 :: bytes => Text.decode? bytes
  | _ => none

/-- A format by its name, or by a local tag without a text. -/
def format? (s : Scalar) : Option OutputFormat :=
  match s.tag.bind localWord? with
  | none => OutputFormat.ofKeyword? s.text
  | some word =>
    if isMissing s || (s.style == .plain && isNullWord s.text) then OutputFormat.ofKeyword? word else none

def optionalFormat? (root node : Node) : Option (Option OutputFormat) :=
  optional? format? root node

def texts? (root node : Node) : Option (List String) :=
  match resolve root node with
  | .sequence _ items => items.mapM (text? root)
  | .scalar _ s => if isMissing s then some [] else none
  | _ => none

def pairs? (root node : Node) : Option (List (String × String)) :=
  match resolve root node with
  | .mapping _ pairs => pairs.mapM fun (key, value) => do return (← text? root key, ← text? root value)
  | .scalar _ s => if isMissing s then some [] else none
  | _ => none

def flagWord? (text : String) : Option Bool :=
  if ["true", "True", "TRUE"].contains text then some true
  else if ["false", "False", "FALSE"].contains text then some false
  else none

def flag? (root node : Node) : Option Bool :=
  match resolve root node with
  | .scalar _ s =>
    if s.style == .plain || (s.style == .literal && s.tag == some boolTag) then flagWord? s.text else none
  | _ => none

def reader (root : Node) : ValueReader Node :=
  ⟨optionalText? root, optionalFormat? root, texts? root, pairs? root, flag? root⟩

end OfYaml

open Yaml in
def ofYaml? (root : Node) : Option ProjectConfig :=
  match root with
  | .mapping _ pairs =>
    match pairs.mapM fun (key, value) => (OfYaml.text? root key).map (·, value) with
    | some members => ofMembers? (OfYaml.reader root) members
    | none => none
  | .scalar _ s => if OfYaml.isMissing s then some default else none
  | _ => none

def parse (text : String) : Except Error ProjectConfig :=
  if (Text.trim text.toList).isEmpty then .ok default
  else
    match (Json.parse? text).bind ofJson? with
    | some config => .ok config
    | none =>
      match (Yaml.document? text).bind ofYaml? with
      | some config => .ok config
      | none => .error invalidConfig

end ProjectConfig
end Folio

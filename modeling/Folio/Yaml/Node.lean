import Folio.Yaml.Token

/-!
# Folio.Yaml.Node

The tree of a YAML document.

* `Node`: texts, sequences and mappings, and references to nodes with an anchor.
* `Node.target?`: the node that a reference leads to.
* `document?`: the tree of a text that holds one document, or none at all.

An anchor gets the number of names that are in use before it, and a reference leads to the last node with the
number that its name has at that place.
-/

namespace Folio
namespace Yaml

/-- A text with its tag. -/
structure Scalar where
  tag : Option Tag
  style : Style
  text : String
  deriving Repr

inductive Node where
  | scalar (anchor : Option Nat) (s : Scalar)
  | sequence (anchor : Option Nat) (items : List Node)
  | mapping (anchor : Option Nat) (pairs : List (Node × Node))
  | reference (number : Nat)
  deriving Repr

namespace Node

/-- An empty text. -/
def empty : Node :=
  .scalar none ⟨none, .plain, ""⟩

def anchor? : Node → Option Nat
  | .scalar anchor _ => anchor
  | .sequence anchor _ => anchor
  | .mapping anchor _ => anchor
  | .reference _ => none

/-- The node itself, where it has this number. -/
def itself (number : Nat) (node : Node) : Option Node :=
  if node.anchor? == some number then some node else none

mutual

/-- The last node with a number in a tree. -/
def target? (number : Nat) : Node → Option Node
  | .scalar anchor s => itself number (.scalar anchor s)
  | .sequence anchor items => (targetInItems? number items).or (itself number (.sequence anchor items))
  | .mapping anchor pairs => (targetInPairs? number pairs).or (itself number (.mapping anchor pairs))
  | .reference _ => none

def targetInItems? (number : Nat) : List Node → Option Node
  | [] => none
  | item :: items => (targetInItems? number items).or (target? number item)

def targetInPairs? (number : Nat) : List (Node × Node) → Option Node
  | [] => none
  | (key, value) :: pairs =>
    (targetInPairs? number pairs).or ((target? number value).or (target? number key))

end

end Node

/-- What is known while a document is read: what the handles of tags stand for, and the numbers of anchors. -/
structure Names where
  handles : List (List Char × Tag)
  anchors : List (String × Nat)
  deriving Repr

namespace Names

/-- The handles that need no directive. -/
def defaultHandles : List (List Char × Tag) :=
  [(['!'], Text.encode "!"), (['!', '!'], Text.encode "tag:yaml.org,2002:")]

/-- The names with one more anchor, and its number. -/
def anchor (names : Names) (name : String) : Nat × Names :=
  let number := names.anchors.length
  (number, { names with anchors := (name, number) :: names.anchors.filter (·.1 != name) })

/-- The whole name of a tag. -/
def tag? (names : Names) (t : TagText) : Option Tag :=
  match t.handle with
  | none => some t.suffix
  | some handle => (names.handles.lookup handle).map (· ++ t.suffix)

end Names

/-- What stands before a node. -/
structure Properties where
  anchor : Option Nat
  tag : Option Tag
  deriving Repr

namespace Properties

def isEmpty (p : Properties) : Bool :=
  p.anchor.isNone && p.tag.isNone

/-- The anchor and the tag before a node, in either order. -/
def read? (names : Names) : List Token → Option (Properties × Names × List Token)
  | .anchor a :: .tag t :: ts => both names a t ts
  | .tag t :: .anchor a :: ts => both names a t ts
  | .anchor a :: ts =>
    let (number, names) := names.anchor a
    some (⟨some number, none⟩, names, ts)
  | .tag t :: ts => (names.tag? t).map fun tag => (⟨none, some tag⟩, names, ts)
  | ts => some (⟨none, none⟩, names, ts)
where
  both (names : Names) (a : String) (t : TagText) (ts : List Token) : Option (Properties × Names × List Token) :=
    (names.tag? t).map fun tag =>
      let (number, names) := names.anchor a
      (⟨some number, some tag⟩, names, ts)

end Properties

/-- A tag without characters is none. -/
def effectiveTag : Option Tag → Option Tag
  | some [] => none
  | tag => tag

/-- What a reader of nodes gives: its result, the names, and the rest of the tokens. -/
abbrev Reads (α : Type) := Option (α × Names × List Token)

/-- Where a node stands: in brackets, below the mark of an item, or as a key or a value of a block mapping. There,
the items of a sequence need no further indentation. -/
inductive Place where
  | flow
  | block
  | member
  deriving DecidableEq, Repr

def isKeyOrValueEnd : List Token → Bool
  | .key :: _ => true
  | .value :: _ => true
  | .blockEnd :: _ => true
  | _ => false

def isItemEnd : List Token → Bool
  | .blockEntry :: _ => true
  | .blockEnd :: _ => true
  | _ => false

def isFlowMemberEnd : List Token → Bool
  | .flowEntry :: _ => true
  | .flowMappingEnd :: _ => true
  | _ => false

def isFlowPairEnd : List Token → Bool
  | .flowEntry :: _ => true
  | .flowSequenceEnd :: _ => true
  | _ => false

def isFlowValue : List Token → Bool
  | .value :: _ => true
  | ts => isFlowMemberEnd ts

mutual

def node? : Nat → Place → Names → List Token → Reads Node
  | 0, _, _, _ => none
  | n + 1, place, names, ts =>
    match ts with
    | .alias name :: ts => (names.anchors.lookup name).map fun number => (.reference number, names, ts)
    | ts =>
      match Properties.read? names ts with
      | none => none
      | some (properties, names, ts) =>
        let anchor := properties.anchor
        match place, ts with
        | .member, .blockEntry :: _ =>
          (looseItems? n names ts).map fun (items, rest) => (.sequence anchor items, rest)
        | _, .scalar style text :: ts => some (.scalar anchor ⟨effectiveTag properties.tag, style, text⟩, names, ts)
        | _, .flowSequence :: ts =>
          match ts with
          | .flowSequenceEnd :: ts => some (.sequence anchor [], names, ts)
          | ts => (flowItems? n names ts).map fun (items, rest) => (.sequence anchor items, rest)
        | _, .flowMapping :: ts =>
          match ts with
          | .flowMappingEnd :: ts => some (.mapping anchor [], names, ts)
          | ts => (flowPairs? n names ts).map fun (pairs, rest) => (.mapping anchor pairs, rest)
        | place, .blockSequence :: ts =>
          if place = .flow then none
          else (blockItems? n names ts).map fun (items, rest) => (.sequence anchor items, rest)
        | place, .blockMapping :: ts =>
          if place = .flow then none
          else (blockPairs? n names ts).map fun (pairs, rest) => (.mapping anchor pairs, rest)
        | _, ts =>
          if properties.isEmpty then none
          else some (.scalar anchor ⟨effectiveTag properties.tag, .plain, ""⟩, names, ts)

/-- The items of a block sequence, up to its end. -/
def blockItems? : Nat → Names → List Token → Reads (List Node)
  | 0, _, _ => none
  | n + 1, names, ts =>
    match ts with
    | .blockEntry :: ts =>
      match if isItemEnd ts then some (Node.empty, names, ts) else node? n .block names ts with
      | none => none
      | some (item, names, ts) => (blockItems? n names ts).map fun (items, rest) => (item :: items, rest)
    | .blockEnd :: ts => some ([], names, ts)
    | _ => none

/-- The items of a sequence that is not indented. It ends with the last of them. -/
def looseItems? : Nat → Names → List Token → Reads (List Node)
  | 0, _, _ => none
  | n + 1, names, ts =>
    match ts with
    | .blockEntry :: ts =>
      match
        if isItemEnd ts || isKeyOrValueEnd ts then some (Node.empty, names, ts) else node? n .block names ts with
      | none => none
      | some (item, names, ts) => (looseItems? n names ts).map fun (items, rest) => (item :: items, rest)
    | ts => some ([], names, ts)

/-- The pairs of a block mapping, up to its end. -/
def blockPairs? : Nat → Names → List Token → Reads (List (Node × Node))
  | 0, _, _ => none
  | n + 1, names, ts =>
    match ts with
    | .blockEnd :: ts => some ([], names, ts)
    | .key :: ts =>
      match if isKeyOrValueEnd ts then some (Node.empty, names, ts) else node? n .member names ts with
      | none => none
      | some (key, names, ts) =>
        match blockValue? n names ts with
        | none => none
        | some (value, names, ts) =>
          (blockPairs? n names ts).map fun (pairs, rest) => ((key, value) :: pairs, rest)
    | .value :: _ => none
    | _ => none

def blockValue? : Nat → Names → List Token → Reads Node
  | 0, _, _ => none
  | n + 1, names, ts =>
    match ts with
    | .value :: ts =>
      if isKeyOrValueEnd ts then some (Node.empty, names, ts) else node? n .member names ts
    | ts => some (Node.empty, names, ts)

/-- The items of a sequence in brackets, up to its end; there is at least one. A pair is a mapping of its own. -/
def flowItems? : Nat → Names → List Token → Reads (List Node)
  | 0, _, _ => none
  | n + 1, names, ts =>
    match flowItem? n names ts with
    | none => none
    | some (item, names, ts) =>
      match ts with
      | .flowSequenceEnd :: ts => some ([item], names, ts)
      | .flowEntry :: .flowSequenceEnd :: ts => some ([item], names, ts)
      | .flowEntry :: ts => (flowItems? n names ts).map fun (items, rest) => (item :: items, rest)
      | _ => none

def flowItem? : Nat → Names → List Token → Reads Node
  | 0, _, _ => none
  | n + 1, names, ts =>
    match ts with
    | .key :: ts =>
      match
        if isFlowPairEnd ts || ts matches .value :: _ then some (Node.empty, names, ts) else node? n .flow names ts with
      | none => none
      | some (key, names, ts) =>
        match ts with
        | .value :: ts =>
          if isFlowPairEnd ts then some (.mapping none [(key, Node.empty)], names, ts)
          else (node? n .flow names ts).map fun (value, rest) => (.mapping none [(key, value)], rest)
        | ts => some (.mapping none [(key, Node.empty)], names, ts)
    | ts => node? n .flow names ts

/-- The pairs of a mapping in brackets, up to its end; there is at least one. -/
def flowPairs? : Nat → Names → List Token → Reads (List (Node × Node))
  | 0, _, _ => none
  | n + 1, names, ts =>
    match flowPair? n names ts with
    | none => none
    | some (pair, names, ts) =>
      match ts with
      | .flowMappingEnd :: ts => some ([pair], names, ts)
      | .flowEntry :: .flowMappingEnd :: ts => some ([pair], names, ts)
      | .flowEntry :: ts => (flowPairs? n names ts).map fun (pairs, rest) => (pair :: pairs, rest)
      | _ => none

/-- A pair in brackets. A lone node is a key without a value. -/
def flowPair? : Nat → Names → List Token → Reads (Node × Node)
  | 0, _, _ => none
  | n + 1, names, ts =>
    match ts with
    | .key :: ts =>
      match if isFlowValue ts then some (Node.empty, names, ts) else node? n .flow names ts with
      | none => none
      | some (key, names, ts) =>
        match ts with
        | .value :: ts =>
          if isFlowMemberEnd ts then some ((key, Node.empty), names, ts)
          else (node? n .flow names ts).map fun (value, rest) => ((key, value), rest)
        | ts => some ((key, Node.empty), names, ts)
    | ts => (node? n .flow names ts).map fun (key, rest) => ((key, Node.empty), rest)

end

/-- Takes in the directives before a document. Of the version there may be one, and one prefix for each handle. -/
def directives? (version : Bool) (handles : List (List Char × Tag)) :
    List Token → Option (List (List Char × Tag) × List Token)
  | .directive (.version major minor) :: ts =>
    if version || major != 1 || !(minor == 1 || minor == 2) then none else directives? true handles ts
  | .directive (.tagPrefix handle start) :: ts =>
    if (handles.lookup handle).isSome then none else directives? version ((handle, start) :: handles) ts
  | ts => some (handles ++ Names.defaultHandles, ts)

/-- Whether tokens are the end of a text, marks of ends apart. -/
def isTextEnd : List Token → Bool
  | [] => true
  | .documentEnd :: ts => isTextEnd ts
  | _ => false

/-- The content of a document, after its mark. -/
def content? (names : Names) (ts : List Token) : Reads Node :=
  match ts with
  | [] => some (Node.empty, names, [])
  | .documentStart :: _ => some (Node.empty, names, ts)
  | .documentEnd :: _ => some (Node.empty, names, ts)
  | .directive _ :: _ => some (Node.empty, names, ts)
  | ts => node? (4 * ts.length + 4) .block names ts

/-- The document that these tokens hold. A text without tokens is an empty document. -/
def ofTokens? (ts : List Token) : Option Node := do
  let (handles, rest) ← directives? false [] ts
  let names : Names := ⟨handles, []⟩
  let explicit := ts matches .directive _ :: _
  let (root, _, rest) ← match rest with
    | .documentStart :: rest => content? names rest
    | [] => if explicit then none else some (Node.empty, names, [])
    | rest => if explicit then none else node? (4 * rest.length + 4) .block names rest
  if isTextEnd rest then some root else none

/-- The document of a text. -/
def document? (text : String) : Option Node :=
  (tokens? text).bind ofTokens?

end Yaml
end Folio

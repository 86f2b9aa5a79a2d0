import Folio.Text.Search
import Folio.Parameters

/-!
# Folio.Placeholder

Plain templates: the name of a parameter between braces stands for its value.

* `substituteWith`: substitution in two rounds. The first marks each placeholder of a known name with a token,
  the second puts the values in the places marked. So a value is never searched for placeholders.
* `freshToken`: a token that occurs in none of the given texts.
* `substitute`: substitution with a fresh token.
-/

namespace Folio
namespace Placeholder

/-- The placeholder of a name, marked with a token. -/
def marked (token name : List Char) : List Char :=
  '{' :: name ++ token ++ ['}']

/-- The template with the placeholders of these names marked. -/
def mark (token : List Char) (names : List (List Char)) (template : List Char) : List Char :=
  names.foldl (fun text name => Text.replaceAll (marked [] name) (marked token name) text) template

/-- The marked template with the values in the places marked. -/
def fill (token : List Char) (pairs : List (List Char × List Char)) (template : List Char) : List Char :=
  pairs.foldl (fun text p => Text.replaceAll (marked token p.1) p.2 text) template

/-- The template with the values of these pairs in place of their names. -/
def replace (token : List Char) (pairs : List (List Char × List Char)) (template : List Char) : List Char :=
  fill token pairs (mark token (pairs.map Prod.fst) template)

/-- The pairs of a set as character lists. -/
def charPairs (set : ParameterSet) : List (List Char × List Char) :=
  set.pairs.map fun p => (p.1.toList, p.2.toList)

/-- The template with the values of a set in place of their names. -/
def substituteWith (token : List Char) (set : ParameterSet) (template : String) : String :=
  String.ofList (replace token (charPairs set) template.toList)

/-- The first character of the last private-use plane that is not in `used`, as a token. -/
def freshToken (used : List Char) : List Char :=
  match (List.range 0xFFFE).find? fun n => !used.contains (Char.ofNat (0x100000 + n)) with
  | some n => [Char.ofNat (0x100000 + n)]
  | none => used

def substitute (set : ParameterSet) (template : String) : String :=
  let used := template.toList ++ (charPairs set).flatMap fun p => p.1 ++ p.2
  substituteWith (freshToken used) set template

end Placeholder
end Folio

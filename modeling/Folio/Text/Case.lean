import Folio.Text.CaseTable

/-!
# Folio.Text.Case

Upper case, lower case and case folding of texts.

* `toLower`, `toUpper`: the mapped text. A capital sigma at the end of a word becomes a final sigma.
* `foldCase`: a form in which texts that differ by case only are equal.
* `asciiLower`: lower case of the ASCII letters, all other characters unchanged.
-/

namespace Folio
namespace Text

/-- The form of a code point by a table of runs and one of special forms. -/
def mapCase (runs : Array CaseRun) (specials : Array (Nat × List Nat)) (c : Char) : List Char :=
  let n := c.toNat
  match runs.find? fun r => r.first ≤ n && n ≤ r.last && (n - r.first) % r.step == 0 with
  | some r => [Char.ofNat (n + r.shift).toNat]
  | none =>
    match specials.find? fun p => p.1 == n with
    | some p => p.2.map Char.ofNat
    | none => [c]

def asciiLowerChar (c : Char) : Char :=
  if 'A' ≤ c ∧ c ≤ 'Z' then Char.ofNat (c.toNat + 32) else c

def asciiUpperChar (c : Char) : Char :=
  if 'a' ≤ c ∧ c ≤ 'z' then Char.ofNat (c.toNat - 32) else c

def asciiLower (s : String) : String :=
  String.ofList (s.toList.map asciiLowerChar)

def lowerChar (c : Char) : List Char :=
  if c.toNat < 0x80 then [asciiLowerChar c] else mapCase lowerRuns lowerSpecials c

def upperChar (c : Char) : List Char :=
  if c.toNat < 0x80 then [asciiUpperChar c] else mapCase upperRuns upperSpecials c

def foldChar (c : Char) : List Char :=
  if c.toNat < 0x80 then [asciiLowerChar c] else mapCase foldRuns foldSpecials c

/-- Whether a character has another case. -/
def isCased (c : Char) : Bool :=
  lowerChar c != [c] || upperChar c != [c]

/-- Lower case of the characters that follow one that is cased or not. -/
def lowerFrom (afterCased : Bool) : List Char → List Char
  | [] => []
  | c :: cs =>
    if c.toNat = 0x3A3 ∧ afterCased = true ∧ (cs.head?.map isCased).getD false = false then
      Char.ofNat 0x3C2 :: lowerFrom true cs
    else lowerChar c ++ lowerFrom (isCased c) cs

def toLower (cs : List Char) : List Char :=
  lowerFrom false cs

def toUpper (cs : List Char) : List Char :=
  cs.flatMap upperChar

def foldCase (cs : List Char) : List Char :=
  cs.flatMap foldChar

end Text
end Folio

import Folio.Markdown.EntityTable
import Folio.Text.Punctuation

/-!
# Folio.Markdown.Entity

Character references and backslash escapes.

* `entity?`: the reference that stands at the start of a text, with what follows it.
* `unescape`: a text with its references and its escaped punctuation replaced.
-/

namespace Folio
namespace Markdown

def hexValue? (c : Char) : Option Nat :=
  if '0' ≤ c ∧ c ≤ '9' then some (c.toNat - 48)
  else if 'a' ≤ c ∧ c ≤ 'f' then some (c.toNat - 87)
  else if 'A' ≤ c ∧ c ≤ 'F' then some (c.toNat - 55)
  else none

def decimalValue? (c : Char) : Option Nat :=
  if '0' ≤ c ∧ c ≤ '9' then some (c.toNat - 48) else none

/-- Reads at most `limit` digits: how many there are, their value, and the rest. -/
def digits (value? : Char → Option Nat) (base : Nat) : Nat → Nat → List Char → Nat × Nat × List Char
  | 0, value, cs => (0, value, cs)
  | _ + 1, value, [] => (0, value, [])
  | limit + 1, value, c :: cs =>
    match value? c with
    | none => (0, value, c :: cs)
    | some d =>
      let (count, value, rest) := digits value? base limit (value * base + d) cs
      (count + 1, value, rest)

/-- The character with a code point; the replacement character where there is none. -/
def charOfCodePoint (n : Nat) : Char :=
  if n = 0 ∨ !n.isValidChar then '\uFFFD' else Char.ofNat n

/-- The words of a text between single spaces. -/
def spacedWords : List Char → List (List Char)
  | [] => []
  | ' ' :: cs => [] :: spacedWords cs
  | c :: cs =>
    match spacedWords cs with
    | [] => [[c]]
    | word :: words => (c :: word) :: words

/-- The code points in a cell of the entity table. -/
def codePoints (value : Nat) : List Char → List Nat
  | [] => [value]
  | '+' :: cs => value :: codePoints 0 cs
  | c :: cs => codePoints (value * 16 + (hexValue? c).getD 0) cs

/-- The cell that follows a name in the table. -/
def findName (name : List Char) : List (List Char) → Option (List Char)
  | key :: cell :: rest => if key = name then some ((codePoints 0 cell).map Char.ofNat) else findName name rest
  | _ => none

def entityWords : List (List Char) :=
  entityTable.flatMap fun row => spacedWords row.toList

def namedEntity? (name : List Char) : Option (List Char) :=
  findName name entityWords

/-- The reference at the start of a text that begins with an ampersand, and the text after it. -/
def entity? : List Char → Option (List Char × List Char)
  | '&' :: '#' :: x :: cs =>
    let read := if x = 'x' ∨ x = 'X' then digits hexValue? 16 6 0 cs else digits decimalValue? 10 7 0 (x :: cs)
    match read with
    | (_ + 1, value, ';' :: rest) => some ([charOfCodePoint value], rest)
    | _ => none
  | '&' :: cs =>
    match cs.dropWhile Char.isAlphanum with
    | ';' :: rest =>
      match namedEntity? (cs.takeWhile Char.isAlphanum) with
      | some value => some (value, rest)
      | none => none
    | _ => none
  | _ => none

theorem length_digits (value? : Char → Option Nat) (base limit value : Nat) (cs : List Char) :
    (digits value? base limit value cs).2.2.length ≤ cs.length := by
  induction limit generalizing value cs with
  | zero => simp [digits]
  | succ limit ih =>
    cases cs with
    | nil => simp [digits]
    | cons c cs =>
      simp only [digits]
      split
      · simp
      · exact Nat.le_succ_of_le (ih ..)

theorem length_dropWhile_le (p : Char → Bool) (cs : List Char) : (cs.dropWhile p).length ≤ cs.length :=
  (List.dropWhile_sublist p).length_le

/-- A reference takes at least one character. -/
theorem length_entity? {cs value rest : List Char} (h : entity? cs = some (value, rest)) :
    rest.length < cs.length := by
  unfold entity? at h
  split at h
  · next x cs' =>
    simp only at h
    split at h
    · next _ v rest' heq =>
      simp only [Option.some.injEq, Prod.mk.injEq] at h
      obtain ⟨-, rfl⟩ := h
      have h1 : (';' :: rest').length ≤ (x :: cs').length := by
        split at heq
        · have := length_digits hexValue? 16 6 0 cs'
          rw [heq] at this
          exact Nat.le_succ_of_le this
        · have := length_digits decimalValue? 10 7 0 (x :: cs')
          rw [heq] at this
          exact this
      simp only [List.length_cons] at h1 ⊢
      omega
    · simp at h
  · next cs' _ =>
    split at h
    · next rest' heq =>
      split at h
      · simp only [Option.some.injEq, Prod.mk.injEq] at h
        obtain ⟨-, rfl⟩ := h
        have := length_dropWhile_le Char.isAlphanum cs'
        rw [heq] at this
        simp only [List.length_cons] at this ⊢
        omega
      · simp at h
    · simp at h
  · simp at h

/-- The text with its character references and escapes replaced; carriage returns are dropped. -/
def unescape : List Char → List Char
  | [] => []
  | '\\' :: c :: cs => if Text.isAsciiPunctuation c then c :: unescape cs else '\\' :: unescape (c :: cs)
  | '\r' :: cs => unescape cs
  | c :: cs =>
    match _h : entity? (c :: cs) with
    | some (value, rest) => value ++ unescape rest
    | none => c :: unescape cs
termination_by cs => cs.length
decreasing_by
  all_goals first
    | exact length_entity? (by assumption)
    | simp only [List.length_cons]; omega

end Markdown
end Folio

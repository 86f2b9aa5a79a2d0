/-!
# Folio.Text.Utf8

Texts as bytes.

* `encode`, `decode?`: the UTF-8 form of a text, and the text of a byte sequence that has one.
* `display`: a text for any byte sequence; each maximal ill-formed part becomes one replacement character.
-/

namespace Folio
namespace Text

def encode (s : String) : List UInt8 :=
  s.toUTF8.data.toList

/-- The text with these UTF-8 bytes, if there is one. -/
def decode? (bytes : List UInt8) : Option String :=
  String.fromUTF8? ⟨bytes.toArray⟩

theorem decode?_encode (s : String) : decode? (encode s) = some s := by
  have h : decode? (encode s) = String.fromUTF8? s.toUTF8 := by simp [decode?, encode]
  rw [h]
  simp [String.fromUTF8?, String.fromUTF8, s.isValidUTF8]

/-- The range of the second byte after a first byte of a longer form, and the number of bytes after the first. -/
def leadByte (b : UInt8) : Option (UInt8 × UInt8 × Nat) :=
  if 0xC2 ≤ b ∧ b ≤ 0xDF then some (0x80, 0xBF, 1)
  else if b = 0xE0 then some (0xA0, 0xBF, 2)
  else if b = 0xED then some (0x80, 0x9F, 2)
  else if 0xE1 ≤ b ∧ b ≤ 0xEF then some (0x80, 0xBF, 2)
  else if b = 0xF0 then some (0x90, 0xBF, 3)
  else if 0xF1 ≤ b ∧ b ≤ 0xF3 then some (0x80, 0xBF, 3)
  else if b = 0xF4 then some (0x80, 0x8F, 3)
  else none

/-- The last characters of a form: `n` bytes are still wanted, the first of them between `lo` and `hi`. The
value is `none` where the form breaks off. -/
def continuation (n : Nat) (lo hi : UInt8) (value : Nat) (bytes : List UInt8) : Option Nat × List UInt8 :=
  match n, bytes with
  | 0, bytes => (some value, bytes)
  | _ + 1, [] => (none, [])
  | n + 1, b :: bytes =>
    if lo ≤ b ∧ b ≤ hi then continuation n 0x80 0xBF (value * 64 + (b.toNat - 0x80)) bytes
    else (none, b :: bytes)

theorem length_continuation (n : Nat) (lo hi : UInt8) (value : Nat) (bytes : List UInt8) :
    (continuation n lo hi value bytes).2.length ≤ bytes.length := by
  induction n generalizing lo hi value bytes with
  | zero => simp [continuation]
  | succ n ih =>
    cases bytes with
    | nil => simp [continuation]
    | cons b bytes =>
      simp only [continuation]
      split
      · exact Nat.le_succ_of_le (ih ..)
      · simp

/-- The characters to show for a byte sequence. -/
def displayed : List UInt8 → List Char
  | [] => []
  | b :: bytes =>
    if b < 0x80 then Char.ofNat b.toNat :: displayed bytes
    else
      match leadByte b with
      | none => '\uFFFD' :: displayed bytes
      | some (lo, hi, n) =>
        let start := b.toNat - (if n = 1 then 0xC0 else if n = 2 then 0xE0 else 0xF0)
        let read := continuation n lo hi start bytes
        match read.1 with
        | some value => Char.ofNat value :: displayed read.2
        | none => '\uFFFD' :: displayed read.2
termination_by bytes => bytes.length
decreasing_by
  all_goals simp only [List.length_cons]
  all_goals first
    | omega
    | exact Nat.lt_succ_of_le (length_continuation ..)

/-- A text to show for a byte sequence. -/
def display (bytes : List UInt8) : String :=
  String.ofList (displayed bytes)

end Text
end Folio

import Folio.Rendering
import Folio.Json.Parser

/-!
# Folio.Proofs.Json

Reading what is printed.

* `quoted?_quote`: a text between quotation marks is read as it was, whatever its characters.
* `members?_texts`: the members of an object are read in the order in which they are printed.
* `parse?_serialize`: so the text of a set of parameters stands for its pairs, in their order.
-/

namespace Folio
namespace Json

theorem hexValue?_hexDigit : ∀ d < 16, hexValue? (hexDigit d) = some d := by
  decide

theorem fourDigits?_escapeNumber {n : Nat} (h : n < 65536) (rest : List Char) :
    fourDigits? ((escapeNumber n).drop 2 ++ rest) = some (n, rest) := by
  have hvalue : ((n / 4096 % 16 * 16 + n / 256 % 16) * 16 + n / 16 % 16) * 16 + n % 16 = n := by omega
  simp only [escapeNumber, List.drop_succ_cons, List.drop_zero, List.cons_append, List.nil_append, fourDigits?]
  rw [hexValue?_hexDigit _ (Nat.mod_lt _ (by decide)), hexValue?_hexDigit _ (Nat.mod_lt _ (by decide)),
    hexValue?_hexDigit _ (Nat.mod_lt _ (by decide)), hexValue?_hexDigit _ (Nat.mod_lt _ (by decide))]
  dsimp only
  rw [hvalue]

theorem escaped?_escapeNumber {c : Char} (h : c.toNat < 0x20) (rest : List Char) :
    escaped? ((escapeNumber c.toNat).drop 1 ++ rest) = some (c, rest) := by
  have hlow : isLowSurrogate c.toNat = false := by simp [isLowSurrogate]; omega
  have hhigh : isHighSurrogate c.toNat = false := by simp [isHighSurrogate]; omega
  have hdigits := fourDigits?_escapeNumber (show c.toNat < 65536 by omega) rest
  rw [show (escapeNumber c.toNat).drop 1 = 'u' :: (escapeNumber c.toNat).drop 2 from rfl, List.cons_append, escaped?,
    escapedNumber?, hdigits]
  dsimp only
  rw [hlow, if_neg Bool.false_ne_true, hhigh, if_neg Bool.false_ne_true, Char.ofNat_toNat]

/-- One step reads one character, in whatever form it is printed. -/
theorem quoted?_quoteChar (n : Nat) (c : Char) (rest : List Char) :
    quoted? (n + 1) (quoteChar c ++ rest) = (quoted? n rest).map fun (text, cs) => (c :: text, cs) := by
  unfold quoteChar
  split
  -- only a character without a short form is printed as itself or with its number
  case h_8 h₁ h₂ h₃ h₄ h₅ h₆ h₇ =>
    split
    · next hcontrol =>
      have hread := escaped?_escapeNumber hcontrol rest
      rw [show escapeNumber c.toNat = '\\' :: (escapeNumber c.toNat).drop 1 from rfl, List.cons_append, quoted?, hread]
    · next hplain =>
      rw [List.singleton_append, quoted?, if_neg hplain]
      · exact h₁
      · exact h₂
  all_goals rfl

theorem quoted?_quote {n : Nat} (cs rest : List Char) (h : cs.length < n) :
    quoted? n (cs.flatMap quoteChar ++ '"' :: rest) = some (cs, rest) := by
  induction cs generalizing n with
  | nil =>
    obtain ⟨n, rfl⟩ := Nat.exists_eq_add_one_of_ne_zero (Nat.ne_zero_of_lt h)
    rfl
  | cons c cs ih =>
    obtain ⟨n, rfl⟩ := Nat.exists_eq_add_one_of_ne_zero (Nat.ne_zero_of_lt h)
    rw [List.flatMap_cons, List.append_assoc, quoted?_quoteChar, ih (Nat.lt_of_succ_lt_succ h)]
    rfl

theorem length_le_quote (cs : List Char) : cs.length ≤ (cs.flatMap quoteChar).length := by
  induction cs with
  | nil => exact Nat.le_refl 0
  | cons c cs ih =>
    have hchar : 0 < (quoteChar c).length := by
      rw [List.length_pos_iff]
      unfold quoteChar
      split
      case h_8 => split <;> exact List.cons_ne_nil _ _
      all_goals exact List.cons_ne_nil _ _
    rw [List.flatMap_cons, List.length_append, List.length_cons]
    omega

theorem string?_quote (s : String) (rest : List Char) :
    string? (s.toList.flatMap quoteChar ++ '"' :: rest) = some (s, rest) := by
  have hlength := length_le_quote s.toList
  rw [string?, quoted?_quote s.toList rest (by rw [List.length_append]; omega), Option.map_some]
  dsimp only
  rw [String.ofList_toList]

/-! ### Objects of texts -/

/-- The text of a member whose value is a text. -/
def memberText (p : String × String) : List Char :=
  quote p.1 ++ ':' :: quote p.2

theorem value?_quote (n : Nat) (s : String) (rest : List Char) :
    value? (n + 1) (quote s ++ rest) = some (.str s, rest) := by
  rw [quote, List.append_assoc, List.cons_append, value?]
  change (string? (s.toList.flatMap quoteChar ++ '"' :: rest)).map _ = _
  rw [string?_quote]
  rfl

theorem memberText_append (p : String × String) (rest : List Char) :
    memberText p ++ rest = '"' :: (p.1.toList.flatMap quoteChar ++ '"' :: ':' :: (quote p.2 ++ rest)) := by
  simp [memberText, quote]

theorem skipSpace_cons {c : Char} (h : isSpace c = false) (cs : List Char) : skipSpace (c :: cs) = c :: cs := by
  rw [skipSpace, List.dropWhile_cons, h, if_neg Bool.false_ne_true]

/-- A member is read up to the end of the object, if it is the last one. -/
theorem members?_last (n : Nat) (p : String × String) (rest : List Char) :
    members? (n + 2) (memberText p ++ '\x7d' :: rest) = some ([(p.1, .str p.2)], rest) := by
  rw [memberText_append, members?]
  simp only [skipSpace_cons (c := '"') rfl, string?_quote, skipSpace_cons (c := ':') rfl, value?_quote,
    skipSpace_cons (c := '\x7d') rfl]

/-- A member is read, and then those behind the comma. -/
theorem members?_comma (n : Nat) (p : String × String) (rest : List Char) :
    members? (n + 2) (memberText p ++ ',' :: rest) =
      (members? (n + 1) rest).map fun found => ((p.1, .str p.2) :: found.1, found.2) := by
  rw [memberText_append, members?]
  simp only [skipSpace_cons (c := '"') rfl, string?_quote, skipSpace_cons (c := ':') rfl, value?_quote,
    skipSpace_cons (c := ',') rfl]

theorem members?_texts (n : Nat) (p : String × String) (pairs : List (String × String)) (rest : List Char) :
    members? (n + pairs.length + 2) (commaSeparated ((p :: pairs).map memberText) ++ '\x7d' :: rest) =
      some ((p :: pairs).map fun p => (p.1, .str p.2), rest) := by
  induction pairs generalizing p with
  | nil =>
    rw [List.map_singleton, commaSeparated]
    exact members?_last n p rest
  | cons q pairs ih =>
    have htexts : commaSeparated ((p :: q :: pairs).map memberText) ++ '\x7d' :: rest =
        memberText p ++ ',' :: (commaSeparated ((q :: pairs).map memberText) ++ '\x7d' :: rest) := by
      simp [commaSeparated]
    rw [htexts, List.length_cons, ← Nat.add_assoc, members?_comma]
    change (members? (n + pairs.length + 2) (commaSeparated ((q :: pairs).map memberText) ++ '\x7d' :: rest)).map _ = _
    rw [ih]
    rfl

theorem length_le_commaSeparated (pairs : List (String × String)) :
    pairs.length ≤ (commaSeparated (pairs.map memberText)).length := by
  induction pairs with
  | nil => exact Nat.le_refl 0
  | cons p pairs ih =>
    have hmember : 0 < (memberText p).length := List.length_pos_iff.2 (List.cons_ne_nil _ _)
    cases pairs with
    | nil => exact hmember
    | cons q pairs =>
      have htexts : (commaSeparated ((p :: q :: pairs).map memberText)).length =
          (memberText p).length + ((commaSeparated ((q :: pairs).map memberText)).length + 1) := by
        rw [← List.length_cons, ← List.length_append]
        rfl
      rw [htexts, List.length_cons]
      omega

theorem value?_members (n : Nat) (p : String × String) (pairs : List (String × String)) (rest : List Char) :
    value? (n + 1) ('\x7b' :: (commaSeparated ((p :: pairs).map memberText) ++ rest)) =
      (members? n (commaSeparated ((p :: pairs).map memberText) ++ rest)).map fun found => (.obj found.1, found.2) := by
  obtain ⟨more, hmore⟩ : ∃ more, commaSeparated ((p :: pairs).map memberText) ++ rest = '"' :: more := by
    cases pairs <;> exact ⟨_, rfl⟩
  rw [hmore]
  rfl

end Json

/-- The text of a set of parameters stands for its pairs, in their order. -/
theorem ParameterSet.parse?_serialize (set : ParameterSet) : Json.parse? set.serialize = some set.toJson := by
  have htext : set.serialize.toList =
      '\x7b' :: (Json.commaSeparated (set.pairs.map Json.memberText) ++ ['\x7d']) := by
    rw [serialize, String.toList_ofList]
    rfl
  have hle := Json.length_le_commaSeparated set.pairs
  rw [Json.parse?, ← String.length_toList, htext, toJson]
  cases hpairs : set.pairs with
  | nil => rfl
  | cons p pairs =>
    rw [hpairs, List.length_cons] at hle
    obtain ⟨n, hn⟩ : ∃ n, 2 * ('\x7b' :: (Json.commaSeparated ((p :: pairs).map Json.memberText) ++ ['\x7d'])).length =
        n + pairs.length + 2 := by
      refine ⟨_, (Nat.sub_add_cancel (m := pairs.length + 2) ?_).symm⟩
      rw [List.length_cons, List.length_append]
      omega
    rw [hn, Json.value?_members, Json.members?_texts n p pairs []]
    rfl

end Folio

/-!
# Folio.Text.Search

Finding and replacing a pattern in a text.

* `contains`, `after?`: whether a pattern stands in the text, and what follows its first place.
* `replaceAll`: from left to right, each place where the pattern stands is replaced; a replacement is not
  searched again.
-/

namespace Folio
namespace Text

/-- Whether `pattern` stands somewhere in the text. -/
def contains (pattern : List Char) : List Char → Bool
  | [] => pattern.isEmpty
  | c :: cs => pattern.isPrefixOf (c :: cs) || contains pattern cs

theorem contains_iff {pattern text : List Char} : contains pattern text = true ↔ pattern <:+: text := by
  induction text with
  | nil => simp [contains]
  | cons c cs ih =>
    rw [contains, Bool.or_eq_true, List.isPrefixOf_iff_prefix, ih, List.infix_cons_iff]

/-- What follows the first place of `pattern`, if it has one. -/
def after? (pattern : List Char) : List Char → Option (List Char)
  | [] => if pattern.isEmpty then some [] else none
  | c :: cs =>
    if pattern.isPrefixOf (c :: cs) then some ((c :: cs).drop pattern.length) else after? pattern cs

/-- The text with `value` in each place of `pattern`, which is not empty. -/
def replaceAll (pattern value : List Char) : List Char → List Char
  | [] => []
  | c :: cs =>
    if pattern.isPrefixOf (c :: cs) then
      value ++ replaceAll pattern value (cs.drop (pattern.length - 1))
    else c :: replaceAll pattern value cs
termination_by cs => cs.length
decreasing_by
  all_goals simp only [List.length_cons, List.length_drop]
  all_goals omega

theorem replaceAll_cons_of_absent {pattern : List Char} (value : List Char) {c : Char} {cs : List Char}
    (h : ¬ pattern <+: c :: cs) :
    replaceAll pattern value (c :: cs) = c :: replaceAll pattern value cs := by
  rw [replaceAll, if_neg]
  rwa [List.isPrefixOf_iff_prefix]

theorem replaceAll_append_self {pattern : List Char} (value : List Char) (h : pattern ≠ []) (rest : List Char) :
    replaceAll pattern value (pattern ++ rest) = value ++ replaceAll pattern value rest := by
  obtain ⟨c, cs, rfl⟩ := List.exists_cons_of_ne_nil h
  rw [List.cons_append, replaceAll, if_pos]
  · simp
  · rw [List.isPrefixOf_iff_prefix]
    exact ⟨rest, rfl⟩

theorem replaceAll_append_of_absent {pattern : List Char} (value : List Char) {text rest : List Char}
    (h : ∀ t, t <:+ text → t ≠ [] → ¬ pattern <+: t ++ rest) :
    replaceAll pattern value (text ++ rest) = text ++ replaceAll pattern value rest := by
  induction text with
  | nil => rfl
  | cons c cs ih =>
    have hhead : ¬ pattern <+: c :: (cs ++ rest) := h (c :: cs) List.suffix_rfl (List.cons_ne_nil c cs)
    rw [List.cons_append, replaceAll_cons_of_absent value hhead, ih fun t ht => h t (ht.trans (List.suffix_cons c cs))]
    rfl

/-- The parts of the text before and after the first place of the character `c`, if it has one. -/
def splitOnce (c : Char) : List Char → Option (List Char × List Char)
  | [] => none
  | d :: cs =>
    if d = c then some ([], cs)
    else
      match splitOnce c cs with
      | none => none
      | some (before, after) => some (d :: before, after)

end Text
end Folio

import Folio.Text.Blank
import Folio.Text.Lines
import Mathlib.Data.List.Forall2

/-!
# Folio.Proofs.Lines

The lines of a text.

* `not_mem_of_mem_lines`: no line holds a line feed.
* `Returned`: a text with line ends of two characters in some places. Its lines are the same but for the blanks at
  their ends (`trims_of_returned`).
-/

namespace Folio
namespace Text

theorem not_mem_of_mem_lines (text : List Char) : ∀ line ∈ lines text, '\n' ∉ line := by
  fun_induction lines text with
  | case1 => simp
  | case2 cs ih =>
    intro line hline
    obtain rfl | hline := List.mem_cons.1 hline
    · simp
    · exact ih line hline
  | case3 cs ih =>
    intro line hline
    obtain rfl | hline := List.mem_cons.1 hline
    · simp
    · exact ih line hline
  | case4 c cs hcr hnl hlines ih =>
    intro line hline
    obtain rfl := List.mem_singleton.1 hline
    simp only [List.mem_singleton]
    exact fun heq => hnl heq.symm
  | case5 c cs hcr hnl first rest hlines ih =>
    rw [hlines] at ih
    intro line hline
    obtain rfl | hline := List.mem_cons.1 hline
    · rw [List.mem_cons, not_or]
      exact ⟨fun heq => hnl heq.symm, ih first List.mem_cons_self⟩
    · exact ih line (List.mem_cons_of_mem first hline)

/-! ### Line ends -/

/-- The second text has a carriage return more before some of the line feeds. -/
inductive Returned : List Char → List Char → Prop where
  | nil : Returned [] []
  | cons (c : Char) {text text' : List Char} (h : Returned text text') : Returned (c :: text) (c :: text')
  | feed {text text' : List Char} (h : Returned text text') : Returned ('\n' :: text) ('\r' :: '\n' :: text')

theorem Returned.refl (text : List Char) : Returned text text := by
  induction text with
  | nil => exact .nil
  | cons c text ih => exact .cons c ih

theorem Returned.behind {text text' : List Char} (h : Returned text text') (front : List Char) :
    Returned (front ++ text) (front ++ text') := by
  induction front with
  | nil => exact h
  | cons c front ih => exact .cons c ih

/-- A character in front of a text belongs to its first line. -/
def consFirst (c : Char) : List (List Char) → List (List Char)
  | [] => [[c]]
  | line :: rest => (c :: line) :: rest

/-- The lines of a text, with the carriage returns at their ends. -/
def rows : List Char → List (List Char)
  | [] => []
  | c :: cs => if c = '\n' then [] :: rows cs else consFirst c (rows cs)

/-- A line, and the same line with or without a carriage return behind it. -/
def SameRow (line row : List Char) : Prop :=
  row = line ∨ row = line ++ ['\r']

theorem SameRow.cons {line row : List Char} (h : SameRow line row) (c : Char) : SameRow (c :: line) (c :: row) := by
  obtain rfl | rfl := h
  · exact .inl rfl
  · exact .inr rfl

theorem sameRow_consFirst (c : Char) {lines rows : List (List Char)} (h : List.Forall₂ SameRow lines rows) :
    List.Forall₂ SameRow (consFirst c lines) (consFirst c rows) := by
  cases h with
  | nil => exact .cons (.inl rfl) .nil
  | cons hfirst hrest => exact .cons (hfirst.cons c) hrest

theorem rows_feed (cs : List Char) : rows ('\n' :: cs) = [] :: rows cs := by
  rw [rows, if_pos rfl]

theorem rows_cons {c : Char} (hc : c ≠ '\n') (cs : List Char) : rows (c :: cs) = consFirst c (rows cs) := by
  rw [rows, if_neg hc]

theorem lines_sameRow (text : List Char) : List.Forall₂ SameRow (lines text) (rows text) := by
  fun_induction lines text with
  | case1 => exact .nil
  | case2 cs ih =>
    rw [rows_cons (by decide), rows_feed]
    exact .cons (.inr rfl) ih
  | case3 cs ih =>
    rw [rows_feed]
    exact .cons (.inl rfl) ih
  | case4 c cs hreturn hfeed hnil ih =>
    have hc : c ≠ '\n' := fun heq => hfeed heq
    rw [rows_cons hc]
    rw [hnil] at ih
    exact sameRow_consFirst c ih
  | case5 c cs hreturn hfeed line rest hlines ih =>
    have hc : c ≠ '\n' := fun heq => hfeed heq
    rw [rows_cons hc]
    rw [hlines] at ih
    exact sameRow_consFirst c ih

theorem rows_sameRow {text text' : List Char} (h : Returned text text') :
    List.Forall₂ SameRow (rows text) (rows text') := by
  induction h with
  | nil => exact .nil
  | @cons c text text' h ih =>
    by_cases hc : c = '\n'
    · rw [hc, rows_feed, rows_feed]
      exact .cons (.inl rfl) ih
    · rw [rows_cons hc, rows_cons hc]
      exact sameRow_consFirst c ih
  | @feed text text' h ih =>
    have hreturn : '\r' ≠ '\n' := by decide
    rw [rows_cons hreturn, rows_feed, rows_feed]
    exact .cons (.inr rfl) ih

/-! ### Blanks -/

theorem trim_append_blank {c : Char} (hc : isBlank c = true) (line : List Char) : trim (line ++ [c]) = trim line := by
  have hend : trimEnd [c] = [] := by simp [trimEnd, hc]
  rw [trim, trimStart, List.dropWhile_append, trim, trimStart]
  by_cases hnil : line.dropWhile isBlank = []
  · simp [hnil, hc]
  · rw [if_neg (by simpa using hnil), trimEnd_append, if_pos hend]

theorem trim_indented {indent : List Char} (h : ∀ c ∈ indent, isBlank c = true) (body : List Char) :
    trim (indent ++ body) = trim body := by
  rw [trim, trimStart, List.dropWhile_append_of_pos h]
  rfl

theorem SameRow.trim_eq {line row : List Char} (h : SameRow line row) : trim row = trim line := by
  obtain rfl | rfl := h
  · rfl
  · exact trim_append_blank (by decide) line

theorem trims_of_forall₂ {lines rows : List (List Char)} (h : List.Forall₂ SameRow lines rows) :
    rows.map trim = lines.map trim := by
  induction h with
  | nil => rfl
  | cons hfirst _ ih => rw [List.map_cons, List.map_cons, hfirst.trim_eq, ih]

/-- Carriage returns at the ends of lines are trimmed. -/
theorem trims_of_returned {text text' : List Char} (h : Returned text text') :
    (lines text').map trim = (lines text).map trim := by
  rw [← trims_of_forall₂ (lines_sameRow text'), ← trims_of_forall₂ (lines_sameRow text),
    trims_of_forall₂ (rows_sameRow h)]

end Text
end Folio

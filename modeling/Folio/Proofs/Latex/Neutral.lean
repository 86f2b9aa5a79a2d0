import Mathlib.Data.List.TakeWhile
import Folio.Text.Blank
import Folio.Latex.Escape
import Folio.Proofs.Latex.Reader

/-!
# Folio.Proofs.Latex.Neutral

Pieces of LaTeX that leave the open groups as they are.

* `Neutral`: such a piece, where blanks at its end may be cut off.
* `Bracket`: the two pieces around a group.
* `neutral_escaped`, `reads_escapedUrl`: escaped text is neutral, whatever the text is.
-/

namespace Folio
namespace Latex

/-- A text that leaves the open groups as they are, also without the blanks at its end. -/
def Neutral (text : List Char) : Prop :=
  Reads [] text [] ∧ Reads [] (Text.trimEnd text) []

/-- Two texts of which one opens a group and the other closes it, also without the blanks at its end. -/
def Bracket (g : Group) (opening closing : List Char) : Prop :=
  Reads [] opening [g] ∧ Reads [g] closing [] ∧ Text.trimEnd closing ≠ [] ∧ Reads [g] (Text.trimEnd closing) []

theorem reads_nil : Reads [] [] [] :=
  ⟨[], lexes_nil, fun _ _ => rfl⟩

theorem neutral_nil : Neutral [] :=
  ⟨reads_nil, reads_nil⟩

/-- The blanks at the end of two texts are those of the second, or else all of it and those of the first. -/
theorem Neutral.append {a b : List Char} (ha : Neutral a) (hb : Neutral b) : Neutral (a ++ b) := by
  refine ⟨ha.1.append hb.1, ?_⟩
  rw [Text.trimEnd_append]
  split
  · exact ha.2
  · exact ha.1.append hb.2

theorem neutral_flatMap {α : Type} {f : α → List Char} {l : List α} (h : ∀ a ∈ l, Neutral (f a)) :
    Neutral (l.flatMap f) := by
  induction l with
  | nil => exact neutral_nil
  | cons a l ih =>
    rw [List.flatMap_cons]
    exact (h a List.mem_cons_self).append (ih fun b hb => h b (List.mem_cons_of_mem a hb))

theorem Bracket.neutral {g : Group} {opening closing body : List Char} (h : Bracket g opening closing)
    (hbody : Reads [] body []) : Neutral (opening ++ body ++ closing) := by
  obtain ⟨hopen, hclose, hne, htrim⟩ := h
  have hinside : Reads [] (opening ++ body) [g] := hopen.append (hbody.frame [g])
  refine ⟨hinside.append hclose, ?_⟩
  rw [Text.trimEnd_append, if_neg hne]
  exact hinside.append htrim

/-! ### Characters and commands -/

/-- Whether a token is a character that is taken as it stands, or with the backslash before it. -/
def Token.isPlain : Token → Bool
  | .char _ => true
  | .escaped _ => true
  | _ => false

theorem reads_of_plain {text : List Char} {ts : List Token} (h : Lexes text ts) (hplain : ∀ t ∈ ts, t.isPlain = true) :
    Reads [] text [] := by
  refine ⟨ts, h, fun around rest => ?_⟩
  clear h
  induction ts with
  | nil => rfl
  | cons t ts ih =>
    obtain ⟨ht, hts⟩ := List.forall_mem_cons.1 hplain
    have hkeep : nest ([] ++ around) (t :: (ts ++ rest)) = nest ([] ++ around) (ts ++ rest) := by
      cases t <;> first | rfl | cases ht
    rw [List.cons_append, hkeep, ih hts]

theorem reads_ordinary {text : List Char} (h : text.all isOrdinary = true) : Reads [] text [] :=
  reads_of_plain (lexes_ordinary h) (by simp [Token.isPlain])

theorem neutral_ordinary {text : List Char} (h : text.all isOrdinary = true) : Neutral text := by
  refine ⟨reads_ordinary h, reads_ordinary ?_⟩
  rw [List.all_eq_true] at h ⊢
  intro c hc
  have hmem : c ∈ text.reverse := (List.dropWhile_sublist Text.isBlank).subset (List.mem_reverse.1 hc)
  exact h c (List.mem_reverse.1 hmem)

theorem reads_escaped {c : Char} (hb : c ≠ 'b') (he : c ≠ 'e') : Reads [] ['\\', c] [] :=
  ⟨[.escaped c], lexes_escaped hb he, fun _ _ => rfl⟩

theorem reads_opened : Reads [] ['{'] [.brace] :=
  ⟨[.opened], lexes_opened, fun _ _ => rfl⟩

theorem reads_closed : Reads [.brace] ['}'] [] :=
  ⟨[.closed], lexes_closed, fun _ _ => rfl⟩

theorem lexes_command {c : Char} {name : List Char} (hb : c ≠ 'b') (he : c ≠ 'e') (hname : name.all isOrdinary = true) :
    Lexes ('\\' :: c :: name) (.escaped c :: name.map .char) :=
  (lexes_escaped hb he).append (lexes_ordinary hname)

theorem reads_command {c : Char} {name : List Char} (hb : c ≠ 'b') (he : c ≠ 'e')
    (hname : name.all isOrdinary = true) : Reads [] ('\\' :: c :: name) [] :=
  reads_of_plain (lexes_command hb he hname) (by simp [Token.isPlain])

/-- Whether a text is made of ends of lines. -/
def isBreaks (text : List Char) : Bool :=
  text.all (· == '\n')

theorem reads_breaks {text : List Char} (h : isBreaks text = true) : Reads [] text [] := by
  apply reads_ordinary
  rw [isBreaks, List.all_eq_true] at h
  rw [List.all_eq_true]
  intro c hc
  rw [eq_of_beq (h c hc)]
  decide

theorem trimEnd_breaks {c : Char} (hc : Text.isBlank c = false) (text : List Char) {breaks : List Char}
    (h : isBreaks breaks = true) : Text.trimEnd (text ++ [c] ++ breaks) = text ++ [c] := by
  have hnone : Text.trimEnd breaks = [] := by
    rw [Text.trimEnd, List.reverse_eq_nil_iff, List.dropWhile_eq_nil_iff]
    rw [isBreaks, List.all_eq_true] at h
    intro d hd
    rw [eq_of_beq (h d (List.mem_reverse.1 hd))]
    decide
  rw [Text.trimEnd_append, if_pos hnone, Text.trimEnd_concat hc]

theorem neutral_of_breaks {text : List Char} {c : Char} {breaks : List Char} (h : Reads [] (text ++ [c]) [])
    (hc : Text.isBlank c = false) (hbreaks : isBreaks breaks = true) : Neutral (text ++ [c] ++ breaks) := by
  refine ⟨h.append (reads_breaks hbreaks), ?_⟩
  rw [trimEnd_breaks hc text hbreaks]
  exact h

theorem bracket_of_breaks {g : Group} {opening mark : List Char} {c : Char} {breaks : List Char}
    (hopen : Reads [] opening [g]) (hmark : Reads [g] (mark ++ [c]) []) (hc : Text.isBlank c = false)
    (hbreaks : isBreaks breaks = true) : Bracket g opening (mark ++ [c] ++ breaks) := by
  have htrim := trimEnd_breaks hc mark hbreaks
  refine ⟨hopen, hmark.append (reads_breaks hbreaks), ?_, ?_⟩
  · rw [htrim]
    simp
  · rw [htrim]
    exact hmark

theorem bracket_argument {command breaks : List Char} (h : Reads [] command [])
    (hbreaks : isBreaks breaks = true) : Bracket .brace (command ++ ['{']) ('}' :: breaks) :=
  @bracket_of_breaks .brace _ [] _ _ (h.append reads_opened) reads_closed (by decide) hbreaks

/-- The two ends of an environment. What follows the beginning is `head`. -/
theorem bracket_environment {name head breaks : List Char} (hname : '}' ∉ name) (hverbatim : name ≠ verbatimName)
    (hhead : Reads [] head []) (hbreaks : isBreaks breaks = true) :
    Bracket (.environment name) ('\\' :: (beginWord ++ name ++ ['}']) ++ head)
      ('\\' :: (endWord ++ name ++ ['}']) ++ breaks) := by
  have hbegins : Reads [] ('\\' :: (beginWord ++ name ++ ['}'])) [.environment name] :=
    ⟨[.begins name], lexes_begins hname hverbatim, fun _ _ => rfl⟩
  have hends : Reads [.environment name] ('\\' :: (endWord ++ name ++ ['}'])) [] := by
    refine ⟨[.ends name], lexes_ends hname, fun around rest => ?_⟩
    simp [nest]
  exact @bracket_of_breaks _ _ ('\\' :: (endWord ++ name)) _ _ (hbegins.append (hhead.frame [_])) hends (by decide)
    hbreaks

/-! ### Escaped text -/

theorem neutral_symbol (c : Char) (name : List Char) (hb : c ≠ 'b') (he : c ≠ 'e')
    (hname : name.all isOrdinary = true) : Neutral ('\\' :: c :: name ++ ['{', '}']) := by
  have hbracket := bracket_argument (reads_command hb he hname) (rfl : isBreaks [] = true)
  have hneutral := hbracket.neutral reads_nil
  rw [List.append_nil, List.append_assoc] at hneutral
  exact hneutral

theorem neutral_mark {c : Char} (hb : c ≠ 'b') (he : c ≠ 'e') (hc : Text.isBlank c = false) : Neutral ['\\', c] :=
  @neutral_of_breaks ['\\'] c [] (reads_escaped hb he) hc rfl

theorem neutral_escapeChar (c : Char) : Neutral (escapeChar c) := by
  unfold escapeChar
  split
  · exact neutral_symbol 't' "extbackslash".toList (by decide) (by decide) (by decide)
  · exact neutral_symbol 't' "extasciitilde".toList (by decide) (by decide) (by decide)
  · exact neutral_symbol 't' "extasciicircum".toList (by decide) (by decide) (by decide)
  iterate 7
    · exact neutral_mark (by decide) (by decide) (by decide)
  · next h1 h2 h3 h4 h5 h6 h7 h8 h9 h10 =>
    apply neutral_ordinary
    simp only [List.all_cons, List.all_nil, Bool.and_true, isOrdinary, Bool.and_eq_true, bne_iff_ne]
    exact ⟨⟨⟨h1, h9⟩, h4⟩, h5⟩

theorem neutral_escaped (text : List Char) : Neutral (text.flatMap escapeChar) :=
  neutral_flatMap fun c _ => neutral_escapeChar c

/-- The target of a link is taken character by character. -/
theorem lexes_escapedUrl (url : List Char) :
    ∃ ts, Lexes (url.flatMap escapeUrlChar) ts ∧ ∀ t ∈ ts, t.isPlain = true := by
  induction url with
  | nil => exact ⟨[], lexes_nil, by simp⟩
  | cons c cs ih =>
    obtain ⟨ts, hts, hplain⟩ := ih
    obtain ⟨t, ht, hkind⟩ : ∃ t, Lexes (escapeUrlChar c) [t] ∧ t.isPlain = true := by
      unfold escapeUrlChar
      split
      iterate 5
        · exact ⟨_, lexes_escaped (by decide) (by decide), rfl⟩
      · next h1 h2 h3 h4 h5 =>
        refine ⟨.char c, lexes_ordinary ?_, rfl⟩
        simp only [List.all_cons, List.all_nil, Bool.and_true, isOrdinary, Bool.and_eq_true, bne_iff_ne]
        exact ⟨⟨⟨h1, h2⟩, h4⟩, h5⟩
    rw [List.flatMap_cons]
    exact ⟨t :: ts, ht.append hts, List.forall_mem_cons.2 ⟨hkind, hplain⟩⟩

theorem reads_escapedUrl (url : List Char) : Reads [] (url.flatMap escapeUrlChar) [] := by
  obtain ⟨ts, hts, hplain⟩ := lexes_escapedUrl url
  exact reads_of_plain hts hplain

end Latex
end Folio

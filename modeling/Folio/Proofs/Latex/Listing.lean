import Folio.Latex.Verbatim
import Folio.Proofs.Latex.Neutral
import Folio.Proofs.Lines

/-!
# Folio.Proofs.Latex.Listing

Code listings as a reader of LaTeX takes them.

* `passes_line`: a line without the end mark is passed over in the search for the mark, whatever follows.
* `neutral_append_listing`: the listing of any code is neutral.
-/

namespace Folio
namespace Latex

/-- A pattern without a line feed that stands before one stands in the text before the line feed. -/
theorem prefix_of_prefix_line {pattern line rest : List Char} (hpattern : '\n' ∉ pattern)
    (h : pattern <+: line ++ '\n' :: rest) : pattern <+: line := by
  obtain hpre | ⟨more, rfl⟩ := List.prefix_or_prefix_of_prefix h (List.prefix_append line ('\n' :: rest))
  · exact hpre
  · have hmore : more <+: '\n' :: rest := (List.prefix_append_right_inj line).1 h
    cases more with
    | nil => simp
    | cons c cs =>
      have hc : c = '\n' := (List.cons_prefix_cons.1 hmore).1
      exact absurd (by simp [hc]) hpattern

theorem passes_line {pattern : List Char} (line : List Char) (hpattern : '\n' ∉ pattern)
    (h : Text.contains pattern line = false) : Passes pattern (line ++ ['\n']) := by
  have hinfix : ¬ pattern <:+: line := by
    rw [← Text.contains_iff, h]
    simp
  clear h
  induction line with
  | nil =>
    intro rest
    have hpre : ¬ pattern <+: '\n' :: rest := fun hpre =>
      hinfix (@prefix_of_prefix_line pattern [] rest hpattern hpre).isInfix
    simp [cutAt, hpre]
  | cons c cs ih =>
    intro rest
    have hpre : ¬ pattern <+: c :: (cs ++ '\n' :: rest) := fun hpre =>
      hinfix (@prefix_of_prefix_line pattern (c :: cs) rest hpattern hpre).isInfix
    have hcs := ih fun hcs => hinfix (hcs.trans (List.suffix_cons c cs).isInfix)
    have hrest := hcs rest
    simp only [List.append_assoc, List.cons_append, List.nil_append] at hrest ⊢
    rw [cutAt, hrest]
    simp [hpre, Function.comp_def]

theorem reads_typewriterCommand : Reads [] "\n\\noindent\\texttt".toList [] := by
  have hnoindent : Reads [] "\\noindent".toList [] :=
    @reads_command 'n' "oindent".toList (by decide) (by decide) (by decide)
  have htexttt : Reads [] "\\texttt".toList [] :=
    @reads_command 't' "exttt".toList (by decide) (by decide) (by decide)
  exact (reads_ordinary (by decide : "\n".toList.all isOrdinary = true)).append (hnoindent.append htexttt)

/-- What is written for a line whose listing is interrupted by typewriter text. -/
theorem reads_typewriter (line : List Char) :
    Reads [] ("\n\\noindent\\texttt\x7b".toList ++ line.flatMap escapeChar ++ "\x7d\n".toList) [] :=
  ((bracket_argument reads_typewriterCommand (by decide)).neutral (neutral_escaped line).1).1

/-- Each interruption of a listing ends one verbatim environment and begins another. So it has a property that holds of
the environments and of the text between them, and of texts one behind the other. -/
theorem listingLines_of {P : List Char → Prop} (happend : ∀ {a b}, P a → P b → P (a ++ b))
    (hverbatim : ∀ body, Passes verbatimEnd body → P (verbatimBegin ++ body ++ verbatimEnd))
    (htypewriter : ∀ line : List Char, P ("\n\\noindent\\texttt\x7b".toList ++ line.flatMap escapeChar ++ "\x7d\n".toList))
    {lines : List (List Char)} (h : ∀ line ∈ lines, '\n' ∉ line) :
    ∀ body, Passes verbatimEnd body → P (verbatimBegin ++ body ++ lines.flatMap listingLine ++ verbatimEnd) := by
  induction lines with
  | nil =>
    intro body hbody
    rw [List.flatMap_nil, List.append_nil]
    exact hverbatim body hbody
  | cons line lines ih =>
    intro body hbody
    have hlines := ih fun l hl => h l (List.mem_cons_of_mem line hl)
    rw [List.flatMap_cons]
    by_cases hmark : Text.contains verbatimEnd line = true
    · have hafter := hlines _ (passes_line [] (by decide) (by decide))
      have hall := happend (hverbatim body hbody) (happend (htypewriter line) hafter)
      simp only [listingLine, hmark, if_true]
      simpa only [List.append_assoc, List.nil_append] using hall
    · have hline := @passes_line verbatimEnd line (by decide) (by simpa using hmark)
      have hall := hlines _ (hbody.append hline)
      simp only [listingLine, hmark, Bool.false_eq_true, if_false]
      simpa only [List.append_assoc] using hall

theorem reads_listingLines {lines : List (List Char)} (h : ∀ line ∈ lines, '\n' ∉ line) :
    ∀ body, Passes verbatimEnd body →
      Reads [] (verbatimBegin ++ body ++ lines.flatMap listingLine ++ verbatimEnd) [] :=
  listingLines_of (P := fun text => Reads [] text []) Reads.append
    (fun body hbody => ⟨[.verbatim body], lexes_verbatim hbody, fun _ _ => rfl⟩) reads_typewriter h

/-- A listing is neutral together with what is read before it, for it ends in a mark. -/
theorem neutral_append_listing {before : List Char} (h : Reads [] before []) (code : List Char) :
    Neutral (before ++ listing code) := by
  have hstart : Passes verbatimEnd ['\n'] := passes_line [] (by decide) (by decide)
  have hlines := h.append (reads_listingLines (Text.not_mem_of_mem_lines code) ['\n'] hstart)
  have hend : verbatimEnd = "\\end\x7bverbatim".toList ++ ['}'] := by decide
  rw [hend, ← List.append_assoc, ← List.append_assoc] at hlines
  have hneutral := neutral_of_breaks hlines (by decide) (rfl : isBreaks "\n\n".toList = true)
  rw [listing, hend]
  simpa only [List.append_assoc] using hneutral

end Latex
end Folio

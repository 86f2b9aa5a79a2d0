import Mathlib
import Folio.Proofs.Latex.Readable
import Folio.Proofs.Markdown.Events

/-!
# Folio.Proofs.Latex.Boundary

Footnote definitions inside of each other.

The main text leaves out a definition up to the end that belongs to it. The body kept for a label ends at the next end
of any definition. Both mean the same events where a definition holds no other one, and does not begin while another
one still waits for an end.

* `Ended`: streams in which no definition waits for an end.
* `exists_depth`, `definitions_ended`: main text and definitions of a stream that is cut in two.
* `write_boundaries`: such a definition is left out of the main text, is written with its own events at the references
  to its label, and nothing else is written for it.
* `Cut`: a definition that holds another one, for which this fails.
-/

namespace Folio
namespace Markdown

/-- Streams in which some end stands behind each beginning of a footnote definition. -/
def Ended : List Event → Prop
  | [] => True
  | e :: es => (∀ label, e = .opened (.footnoteDefinition label) → .closed .footnoteDefinition ∈ es) ∧ Ended es

theorem Ended.of_append {es fs : List Event} (h : Ended (es ++ fs)) : Ended fs := by
  induction es with
  | nil => exact h
  | cons e es ih => exact ih h.2

end Markdown

namespace Latex

open Markdown

/-! ### Cutting a stream -/

section Streams

/-- The main text of a stream goes on at the depth at which its beginning ends. -/
theorem exists_depth (depth : Nat) (pre : List Event) :
    ∃ d, ∀ rest, mainText depth (pre ++ rest) = mainText depth pre ++ mainText d rest := by
  fun_induction mainText depth pre with
  | case1 depth => exact ⟨depth, fun rest => rfl⟩
  | case2 depth label es ih =>
    obtain ⟨d, hd⟩ := ih
    exact ⟨d, fun rest => by simp only [List.cons_append, mainText, hd]⟩
  | case3 depth es ih =>
    obtain ⟨d, hd⟩ := ih
    exact ⟨d, fun rest => by simp only [List.cons_append, mainText, hd]⟩
  | case4 e es hopened hclosed ih =>
    obtain ⟨d, hd⟩ := ih
    refine ⟨d, fun rest => ?_⟩
    rw [List.cons_append, mainText.eq_4 _ _ hopened hclosed, hd, List.cons_append]
  | case5 e es depth hopened hclosed ih =>
    obtain ⟨d, hd⟩ := ih
    refine ⟨d, fun rest => ?_⟩
    rw [List.cons_append, mainText.eq_5 _ _ _ hopened hclosed, hd]

variable {label : String} {body : List Event}

/-- At any depth, a definition that holds no other one is no main text. -/
theorem mainText_skips (hbody : ∀ e ∈ body, e.isMark = false) (depth : Nat) (post : List Event) :
    mainText depth (definition label body ++ post) = mainText depth post := by
  rw [definition_append, mainText, mainText_plain hbody, mainText, Nat.add_sub_cancel]

theorem mainText_without (hbody : ∀ e ∈ body, e.isMark = false) (pre post : List Event) :
    mainText 0 (pre ++ definition label body ++ post) = mainText 0 (pre ++ post) := by
  obtain ⟨d, hd⟩ := exists_depth 0 pre
  rw [List.append_assoc, hd, hd, mainText_skips hbody]

theorem definitionBody_ended {es : List Event} (h : .closed .footnoteDefinition ∈ es) (rest : List Event) :
    definitionBody (es ++ rest) = ((definitionBody es).1, (definitionBody es).2 ++ rest) := by
  fun_induction definitionBody es with
  | case1 => cases h
  | case2 es => rfl
  | case3 e es hclosed ih =>
    have hes : .closed .footnoteDefinition ∈ es := by
      obtain heq | hes := List.mem_cons.1 h
      · exact absurd heq.symm hclosed
      · exact hes
    rw [List.cons_append, definitionBody.eq_3 _ _ hclosed, ih hes]

theorem definitionBody_suffix (es : List Event) : (definitionBody es).2 <:+ es := by
  fun_induction definitionBody es with
  | case1 => exact List.suffix_rfl
  | case2 es => exact List.suffix_cons _ es
  | case3 e es _ ih => exact ih.trans (List.suffix_cons e es)

/-- Where no definition waits for an end, the definitions behind are found as if nothing stood before them. -/
theorem definitions_ended {pre : List Event} (h : Ended pre) (rest : List Event) :
    definitions (pre ++ rest) = definitions pre ++ definitions rest := by
  fun_induction definitions pre with
  | case1 => rfl
  | case2 label es ih =>
    -- The body ends within `es`, so that the body and what is left of `es` are the same with `rest` behind.
    have hend := h.1 label rfl
    obtain ⟨before, hbefore⟩ := definitionBody_suffix es
    have hbehind : Ended (definitionBody es).2 := Ended.of_append (hbefore ▸ h.2)
    rw [List.cons_append, definitions, definitionBody_ended hend, ih hbehind, List.cons_append]
  | case3 e es hopened ih =>
    rw [List.cons_append, definitions_cons hopened, ih h.2]

theorem opened_of_mem_definitions {es : List Event} :
    ∀ p ∈ definitions es, .opened (.footnoteDefinition p.1) ∈ es := by
  fun_induction definitions es with
  | case1 => simp
  | case2 label es ih =>
    refine List.forall_mem_cons.2 ⟨List.mem_cons_self, fun p hp => List.mem_cons_of_mem _ ?_⟩
    exact (definitionBody_suffix es).subset (ih p hp)
  | case3 e es _ ih => exact fun p hp => List.mem_cons_of_mem e (ih p hp)

theorem lookup_of_not_opened {es : List Event} (h : .opened (.footnoteDefinition label) ∉ es) :
    (definitions es).reverse.lookup label = none := by
  refine List.lookup_eq_none_iff.2 fun p hp => ?_
  rw [bne_iff_ne]
  rintro rfl
  exact h (opened_of_mem_definitions p (List.mem_reverse.1 hp))

end Streams

/-! ### The text -/

/-- What is written where a footnote with this body is referred to. -/
def footnoteText (body : List Event) : List Char :=
  "\\footnote\x7b".toList ++ Text.trimEnd (emit [] (Mode.after []) body) ++ "\x7d".toList

theorem chunk_of_lookup {es body : List Event} {label : String}
    (h : (definitions es).reverse.lookup label = some body) (m : Mode) :
    chunk (footnotes es) m (.footnoteReference label) = footnoteText body := by
  rw [chunk_footnoteReference, body?_of_lookup h]
  rfl

theorem emit_split (notes : Footnotes) (m : Mode) (as : List Event) (e : Event) (bs : List Event) :
    emit notes m (as ++ e :: bs) =
      emit notes m as ++ chunk notes (m.through notes as) e ++ emit notes (m.through notes (as ++ [e])) bs := by
  rw [emit_append, emit, through_append, Mode.through, Mode.through, List.append_assoc]

section Definitions

variable {label : String} {body pre post : List Event}

theorem definitions_around (hbody : ∀ e ∈ body, e.isMark = false) (hpre : Ended pre) :
    definitions (pre ++ definition label body ++ post) = definitions pre ++ (label, body) :: definitions post := by
  rw [List.append_assoc, definitions_ended hpre, definitions_definition hbody]

theorem lookup_definition (hbody : ∀ e ∈ body, e.isMark = false) (hpre : Ended pre)
    (hpost : .opened (.footnoteDefinition label) ∉ post) :
    (definitions (pre ++ definition label body ++ post)).reverse.lookup label = some body := by
  rw [definitions_around hbody hpre]
  simp [List.lookup_append, lookup_of_not_opened hpost]

/-- For the labels of other definitions, and for a label that is defined again, the definition does not count. -/
theorem lookup_without (hbody : ∀ e ∈ body, e.isMark = false) (hpre : Ended pre) {other : String}
    (h : other ≠ label ∨ ∃ again, (label, again) ∈ definitions post) :
    (definitions (pre ++ definition label body ++ post)).reverse.lookup other =
      (definitions (pre ++ post)).reverse.lookup other := by
  rw [definitions_around hbody hpre, definitions_ended hpre]
  simp only [List.reverse_append, List.reverse_cons, List.append_assoc, List.lookup_append, List.singleton_append]
  by_cases hother : other = label
  · obtain hne | ⟨again, hagain⟩ := h
    · exact absurd hother hne
    · obtain ⟨found, hfound⟩ := exists_lookup (List.mem_reverse.2 hagain)
      simp [hother, hfound]
  · have hskip : ∀ pairs : List (String × List Event), ((label, body) :: pairs).lookup other = pairs.lookup other := by
      intro pairs
      rw [lookup_cons_eq_ite, if_neg hother]
    rw [hskip]

/-- A definition that holds no other one, and begins where none waits for an end. It may stand inside of another one.
Both passes find the same events: none of them is main text, all of them are written at each reference of the main text
if the label is not defined again behind it, and nothing is written for them else. -/
theorem write_boundaries (hbody : ∀ e ∈ body, e.isMark = false) (hpre : Ended pre) (text : String) :
    let es := pre ++ definition label body ++ post
    let notes := footnotes es
    let m := Mode.after text.toList
    mainText 0 es = mainText 0 (pre ++ post) ∧
      (.opened (.footnoteDefinition label) ∉ post →
        ∀ as bs, mainText 0 es = as ++ .footnoteReference label :: bs →
          write text es = text ++ String.ofList (emit notes m as ++ footnoteText body ++
            emit notes (m.through notes (as ++ [.footnoteReference label])) bs)) ∧
      (.footnoteReference label ∉ mainText 0 es ∨ (∃ again, (label, again) ∈ definitions post) →
        write text es = write text (pre ++ post)) := by
  intro es notes m
  have hmain : mainText 0 es = mainText 0 (pre ++ post) := mainText_without hbody pre post
  refine ⟨hmain, ?_, ?_⟩
  · intro hpost as bs hsplit
    have hchunk := chunk_of_lookup (lookup_definition hbody hpre hpost) (m.through notes as)
    rw [write, hsplit, emit_split, hchunk]
  · intro hunused
    have hnotes : ∀ other, .footnoteReference other ∈ mainText 0 es →
        notes.body? other = (footnotes (pre ++ post)).body? other := by
      intro other hmem
      have hother : other ≠ label ∨ ∃ again, (label, again) ∈ definitions post := by
        obtain hunreferred | hagain := hunused
        · exact .inl fun heq => hunreferred (heq ▸ hmem)
        · exact .inr hagain
      rw [body?_eq_lookup, body?_eq_lookup, lookup_without hbody hpre hother]
    rw [write, write, emit_congr hnotes, hmain]

end Definitions

namespace Inner

/-- References, and a definition up to the second one of those inside of it. -/
def before : List Event :=
  [.footnoteReference "a", .footnoteReference "b", .opened (.footnoteDefinition "a"), .text "x"] ++
    definition "c" [.text "w"]

def body : List Event :=
  [.opened .emphasis, .text "50%", .closed .emphasis]

def behind : List Event :=
  [.text "z", .closed .footnoteDefinition]

theorem write_inner :
    Nested .anywhere (before ++ definition "b" body ++ (behind ++ definition "d" [])) ∧
      write "" (before ++ definition "b" body ++ (behind ++ definition "d" [])) =
        "\\footnote\x7bxw\x7d\\footnote\x7b\\emph\x7b50\\%\x7d\x7d" ∧
      write "" (before ++ definition "b" body ++ behind ++ definition "d" [.text "v"] ++ []) =
        write "" (before ++ definition "b" body ++ behind ++ []) := by
  have hbody : ∀ e ∈ body, e.isMark = false := by decide
  have hended : Ended before := by simp [before, definition, Ended]
  have hbehind : Ended (before ++ definition "b" body ++ behind) := by
    simp [before, body, behind, definition, Ended]
  have hdefinitions : definitions (before ++ definition "b" body ++ (behind ++ definition "d" [])) =
      [("a", [.text "x", .opened (.footnoteDefinition "c"), .text "w"]), ("b", body), ("d", [])] := by
    simp [before, body, behind, definition, definitions, definitionBody]
  obtain ⟨-, hwritten, -⟩ := @write_boundaries "b" body before (behind ++ definition "d" []) hbody hended ""
  obtain ⟨-, -, hdropped⟩ := @write_boundaries "d" [.text "v"] (before ++ definition "b" body ++ behind) []
    (by decide) hbehind ""
  refine ⟨?_, ?_, hdropped (.inl (by decide))⟩
  · exact .leaf rfl (.leaf rfl (.note rfl (.leaf rfl (.note rfl (.leaf rfl .nil) (.note rfl
      (.group rfl (.leaf rfl .nil) .nil) (.leaf rfl .nil)))) (.note rfl .nil .nil)))
  · rw [hwritten (by decide) [.footnoteReference "a"] [] rfl, footnotes, hdefinitions]
    decide +kernel

end Inner

def inParagraph (es : List Event) : List Event :=
  .opened .paragraph :: es ++ [.closed .paragraph]

namespace Cut

/-- A footnote with a quotation that holds another one. -/
def document : String :=
  "[^a]\n\n[^a]: > x\n    >\n    > [^b]: y\n    >\n    > z\n"

def body : List Event :=
  .opened .blockQuote :: inParagraph [.text "x"] ++ definition "b" (inParagraph [.text "y"]) ++
    inParagraph [.text "z"] ++ [.closed .blockQuote]

/-- The two passes find different ends, so that the text of the inner definition is written in place of the end of the
outer one. -/
theorem write_cut :
    events document = inParagraph [.footnoteReference "a"] ++ definition "a" body ∧
      Nested .anywhere (events document) ∧
      mainText 0 body =
        .opened .blockQuote :: inParagraph [.text "x"] ++ inParagraph [.text "z"] ++ [.closed .blockQuote] ∧
      String.ofList (footnoteText (mainText 0 body)) =
        "\\footnote\x7b\\begin\x7bquote\x7d\nx\n\nz\n\n\\end\x7bquote\x7d\x7d" ∧
      write "" (events document) = "\\footnote\x7b\\begin\x7bquote\x7d\nx\n\ny\x7d\n\n" := by
  have hevents : events document = inParagraph [.footnoteReference "a"] ++ definition "a" body := by
    cbv
  have hdefinitions : definitions (inParagraph [.footnoteReference "a"] ++ definition "a" body) =
      [("a", .opened .blockQuote :: inParagraph [.text "x"] ++
        .opened (.footnoteDefinition "b") :: inParagraph [.text "y"])] := by
    simp [body, inParagraph, definition, definitions, definitionBody]
  refine ⟨hevents, nested_events document, rfl, ?_, ?_⟩
  · decide +kernel
  · rw [hevents, write, footnotes, hdefinitions]
    decide +kernel

end Cut

end Latex
end Folio

import Folio.Proofs.Latex.Recovery
import Folio.Proofs.Latex.Placement

/-!
# Folio.Proofs.Latex.Readable

What is written for a stream of which the constructs need not be nested.

* `CodeClosed`: streams in which each code block is closed before a footnote definition begins or ends.
* `Readable`: a text behind which a reader goes on as if the text were not there.
* `Trimmable`: a text that is readable also without the blanks at its end, as the body of a footnote is written.
* `readable_emit`, `trimmable_emit`: what is written for a stream whose info strings hold no end of a line. Without its
  blanks it is readable if code blocks are closed in it.
* `readable_footnotes`: so are the bodies of footnotes.
-/

namespace Folio
namespace Markdown

/-- Streams in which each code block is closed before a footnote definition begins or ends. -/
def CodeClosed : List Event → Prop
  | [] => True
  | e :: es =>
    (∀ kind, e = .opened (.codeBlock kind) →
      ∃ body rest, es = body ++ .closed .codeBlock :: rest ∧ ∀ e ∈ body, e.isMark = false) ∧ CodeClosed es

theorem CodeClosed.append {es fs : List Event} (h : CodeClosed es) (h' : CodeClosed fs) : CodeClosed (es ++ fs) := by
  induction es with
  | nil => exact h'
  | cons e es ih =>
    refine ⟨fun kind he => ?_, ih h.2⟩
    obtain ⟨body, rest, rfl, hbody⟩ := h.1 kind he
    exact ⟨body, rest ++ fs, by simp, hbody⟩

theorem CodeClosed.of_append {es fs : List Event} (h : CodeClosed (es ++ fs)) : CodeClosed fs := by
  induction es with
  | nil => exact h
  | cons e es ih => exact ih h.2

theorem CodeClosed.cons {e : Event} {es : List Event} (he : ∀ kind, e ≠ .opened (.codeBlock kind)) (h : CodeClosed es) :
    CodeClosed (e :: es) :=
  ⟨fun kind heq => absurd heq (he kind), h⟩

theorem Nested.codeClosed {notes : Notes} {es : List Event} (h : Nested notes es) : CodeClosed es := by
  induction h with
  | nil => trivial
  | leaf he _ ih => exact ih.cons (by rintro kind rfl; cases he)
  | @code notes kind texts es _ ih =>
    have htexts : CodeClosed (texts.map .text) := by
      induction texts with
      | nil => trivial
      | cons text texts ih => exact ih.cons (by simp)
    exact ⟨fun _ _ => ⟨texts.map .text, es, rfl, by simp [Event.isMark]⟩, htexts.append (ih.cons (by simp))⟩
  | note _ _ _ ihbody ih => exact (ihbody.append (ih.cons (by simp))).cons (by simp)
  | group htag _ _ ihbody ih => exact (ihbody.append (ih.cons (by simp))).cons (by rintro kind ⟨⟩; cases htag)

end Markdown

namespace Latex

open Markdown

/-! ### Readable texts -/

/-- A text behind which a reader goes on as if the text were not there. -/
def Readable (text : List Char) : Prop :=
  ∃ ts, Lexes text ts

/-- A text that is readable, also without the blanks at its end. -/
def Trimmable (text : List Char) : Prop :=
  Readable text ∧ Readable (Text.trimEnd text)

theorem Reads.readable {text : List Char} {before after : List Group} (h : Reads before text after) : Readable text := by
  obtain ⟨ts, hts, -⟩ := h
  exact ⟨ts, hts⟩

theorem readable_nil : Readable [] :=
  ⟨[], lexes_nil⟩

theorem Readable.append {a b : List Char} (ha : Readable a) (hb : Readable b) : Readable (a ++ b) := by
  obtain ⟨ts, hts⟩ := ha
  obtain ⟨us, hus⟩ := hb
  exact ⟨ts ++ us, hts.append hus⟩

theorem Neutral.trimmable {text : List Char} (h : Neutral text) : Trimmable text :=
  ⟨h.1.readable, h.2.readable⟩

theorem trimmable_nil : Trimmable [] :=
  ⟨readable_nil, readable_nil⟩

/-- Where something is left of the second text, the first one is not cut. -/
theorem Trimmable.append_of_ne {a b : List Char} (ha : Readable a) (hb : Trimmable b) (hne : Text.trimEnd b ≠ []) :
    Trimmable (a ++ b) := by
  refine ⟨ha.append hb.1, ?_⟩
  rw [Text.trimEnd_append, if_neg hne]
  exact ha.append hb.2

theorem Trimmable.append {a b : List Char} (ha : Trimmable a) (hb : Trimmable b) : Trimmable (a ++ b) := by
  by_cases hnil : Text.trimEnd b = []
  · refine ⟨ha.1.append hb.1, ?_⟩
    rw [Text.trimEnd_append, if_pos hnil]
    exact ha.2
  · exact Trimmable.append_of_ne ha.1 hb hnil

theorem trimmable_concat {text : List Char} {c : Char} (h : Readable (text ++ [c])) (hc : Text.isBlank c = false) :
    Trimmable (text ++ [c]) :=
  ⟨h, by rwa [Text.trimEnd_concat hc]⟩

theorem trimEnd_ne_nil {text : List Char} {c : Char} (h : c ∈ text) (hc : Text.isBlank c = false) :
    Text.trimEnd text ≠ [] := by
  intro hnil
  rw [Text.trimEnd, List.reverse_eq_nil_iff, List.dropWhile_eq_nil_iff] at hnil
  rw [hnil c (List.mem_reverse.2 h)] at hc
  cases hc

/-! ### Events -/

theorem readable_footnote : Readable "\\footnote\x7b".toList := by
  have hcommand : Reads [] "\\footnote".toList [] :=
    @reads_command 'f' "ootnote".toList (by decide) (by decide) (by decide)
  exact (hcommand.append reads_opened).readable

theorem trimmable_begins {name head : List Char} (hname : '}' ∉ name) (hverbatim : name ≠ verbatimName)
    (hhead : Neutral head) : Trimmable ('\\' :: (beginWord ++ name ++ ['}']) ++ head) := by
  have hbegins : Readable ('\\' :: (beginWord ++ name) ++ ['}']) := ⟨_, lexes_begins hname hverbatim⟩
  exact (trimmable_concat hbegins (by decide)).append hhead.trimmable

theorem readable_opening (m : Mode) {tag : Tag} (h : tag.isPlain = true) : Readable (opening m tag) := by
  obtain ⟨-, hneutral, -⟩ | ⟨g, -, hbracket, -⟩ := bracket_or_neutral m m h
  · exact hneutral.1.readable
  · exact hbracket.readable

theorem trimmable_opening (m : Mode) {tag : Tag} (h : tag.isPlain = true) : Trimmable (opening m tag) := by
  have hread := readable_opening m h
  have hbreak : Neutral ['\n'] := neutral_ordinary (by decide)
  cases tag with
  | codeBlock kind => cases h
  | footnoteDefinition label => cases h
  | heading level => exact @trimmable_concat ('\\' :: headingCommand level) _ hread (by decide)
  | blockQuote => exact @trimmable_begins "quote".toList _ (by decide) (by decide) hbreak
  | list start =>
    cases start with
    | none => exact @trimmable_begins "itemize".toList _ (by decide) (by decide) hbreak
    | some n => exact @trimmable_begins "enumerate".toList _ (by decide) (by decide) hbreak
  | item =>
    have hcommand : Reads [] "\\item".toList [] :=
      @reads_command 'i' "tem".toList (by decide) (by decide) (by decide)
    have hblank : Neutral [' '] := neutral_ordinary (by decide)
    exact (@trimmable_concat "\\ite".toList _ hcommand.readable (by decide)).append hblank.trimmable
  | table columns =>
    have hbegins := @trimmable_begins "tabular".toList _ (by decide) (by decide) (neutral_columns columns)
    simp only [← List.append_assoc] at hbegins
    exact hbegins
  | tableCell =>
    rw [opening_tableCell]
    split
    · exact trimmable_nil
    · exact (@neutral_ordinary " & ".toList (by decide)).trimmable
  | emphasis => exact @trimmable_concat "\\emph".toList _ hread (by decide)
  | strong => exact @trimmable_concat "\\textbf".toList _ hread (by decide)
  | strikethrough => exact @trimmable_concat "\\sout".toList _ hread (by decide)
  | link kind url title =>
    have hopening : opening m (.link kind url title) =
        "\\href\x7b".toList ++ url.toList.flatMap escapeUrlChar ++ ['}'] ++ ['{'] :=
      (List.append_assoc _ ['}'] ['{']).symm
    rw [hopening] at hread ⊢
    exact trimmable_concat hread (by decide)
  | _ => exact trimmable_nil

theorem trimmable_closing (m : Mode) (tag : TagEnd) : Trimmable (closing m tag) := by
  have hplain : ∀ {t : Tag}, t.isPlain = true → Trimmable (closing m t.toEnd) := by
    intro t ht
    obtain ⟨-, -, hneutral⟩ | ⟨g, -, -, hclose, -, htrim⟩ := bracket_or_neutral m m ht
    · exact hneutral.trimmable
    · exact ⟨hclose.readable, htrim.readable⟩
  cases tag with
  | paragraph => exact hplain (t := .paragraph) rfl
  | heading level => exact hplain (t := .heading level) rfl
  | blockQuote => exact hplain (t := .blockQuote) rfl
  | codeBlock => exact (neutral_append_listing reads_nil (m.code.getD [])).trimmable
  | htmlBlock => exact trimmable_nil
  | list ordered =>
    cases ordered with
    | true => exact hplain (t := .list (some 0)) rfl
    | false => exact hplain (t := .list none) rfl
  | item => exact hplain (t := .item) rfl
  | footnoteDefinition => exact trimmable_nil
  | table => exact hplain (t := .table []) rfl
  | tableHead => exact hplain (t := .tableHead) rfl
  | tableRow => exact hplain (t := .tableRow) rfl
  | tableCell => exact trimmable_nil
  | emphasis => exact hplain (t := .emphasis) rfl
  | strong => exact hplain (t := .strong) rfl
  | strikethrough => exact hplain (t := .strikethrough) rfl
  | superscript => exact trimmable_nil
  | link => exact hplain (t := .link .place "" "") rfl
  | image => exact trimmable_nil

/-- Footnotes whose bodies are readable. -/
def Footnotes.Readable (notes : Footnotes) : Prop :=
  ∀ label body, notes.body? label = some body → Latex.Readable body

theorem readable_noFootnotes : Footnotes.Readable [] :=
  fun _ _ hbody => nomatch hbody

theorem trimmable_leaf {notes : Footnotes} (hnotes : notes.Readable) (m : Mode) {e : Event} (he : e.isLeaf = true) :
    Trimmable (chunk notes m e) := by
  have hclosed : Footnotes.Closed [] := fun _ _ hbody => nomatch hbody
  have hplain := @neutral_leaf [] hclosed (Mode.after []) rfl e he
  cases e with
  | text text =>
    rw [chunk_text]
    split
    · exact trimmable_nil
    · exact hplain.trimmable
  | footnoteReference label =>
    rw [chunk_footnoteReference]
    split
    · next body hbody =>
      exact trimmable_concat ((readable_footnote.append (hnotes label body hbody)).append reads_closed.readable)
        (by decide)
    · exact hplain.trimmable
  | opened tag => cases he
  | closed tag => cases he
  | taskMarker checked => cases checked <;> exact hplain.trimmable
  | _ => exact hplain.trimmable

/-- Only the line with a language must not be cut. -/
theorem readable_chunk {notes : Footnotes} (hnotes : notes.Readable) (m : Mode) {e : Event}
    (hinfo : ∀ info, e = .opened (.codeBlock (.fenced info)) → '\n' ∉ info.toList) :
    Readable (chunk notes m e) ∧ ((∀ kind, e ≠ .opened (.codeBlock kind)) → Trimmable (chunk notes m e)) := by
  have hboth : Trimmable (chunk notes m e) →
      Readable (chunk notes m e) ∧ ((∀ kind, e ≠ .opened (.codeBlock kind)) → Trimmable (chunk notes m e)) :=
    fun htrim => ⟨htrim.1, fun _ => htrim⟩
  cases e with
  | opened tag =>
    by_cases hplain : tag.isPlain = true
    · exact hboth (trimmable_opening m hplain)
    · cases tag with
      | codeBlock kind =>
        have hline : Reads [] (opening m (.codeBlock kind)) [] := neutral_language m fun info heq => hinfo info (by rw [heq])
        exact ⟨hline.readable, fun hne => absurd rfl (hne kind)⟩
      | footnoteDefinition label => exact hboth trimmable_nil
      | _ => exact absurd rfl hplain
  | closed tag => exact hboth (trimmable_closing m tag)
  | _ => exact hboth (trimmable_leaf hnotes m rfl)

/-! ### Streams -/

section Streams

variable {notes : Footnotes} {es : List Event}

theorem readable_emit (hnotes : notes.Readable) (hinfo : InfoLines es) (m : Mode) : Readable (emit notes m es) := by
  induction es generalizing m with
  | nil => exact readable_nil
  | cons e es ih =>
    have hfirst := (readable_chunk hnotes m fun info he => hinfo info (he ▸ List.mem_cons_self)).1
    exact hfirst.append (ih (fun info hmem => hinfo info (List.mem_cons_of_mem e hmem)) _)

/-- A listing is no blank. -/
theorem trimEnd_emit_ne_nil (notes : Footnotes) (m : Mode) (h : .closed .codeBlock ∈ es) :
    Text.trimEnd (emit notes m es) ≠ [] := by
  obtain ⟨as, bs, rfl⟩ := List.append_of_mem h
  have hlisting : ∀ code, '\\' ∈ listing code := by
    intro code
    rw [listing, verbatimBegin_eq]
    simp
  have hslash : '\\' ∈ emit notes m (as ++ .closed .codeBlock :: bs) := by
    rw [emit_append, emit]
    exact List.mem_append_right _ (List.mem_append_left _ (hlisting _))
  exact trimEnd_ne_nil hslash (by decide)

theorem trimmable_emit (hnotes : notes.Readable) (hinfo : InfoLines es) (hclosed : CodeClosed es) (m : Mode) :
    Trimmable (emit notes m es) := by
  induction es generalizing m with
  | nil => exact trimmable_nil
  | cons e es ih =>
    obtain ⟨hread, htrim⟩ := readable_chunk hnotes m fun info he => hinfo info (he ▸ List.mem_cons_self)
    have hrest := ih (fun info hmem => hinfo info (List.mem_cons_of_mem e hmem)) hclosed.2 (m.next e (chunk notes m e))
    by_cases he : ∀ kind, e ≠ .opened (.codeBlock kind)
    · exact (htrim he).append hrest
    · obtain ⟨kind, he⟩ := not_forall_not.1 he
      obtain ⟨body, rest, hes, -⟩ := hclosed.1 kind he
      exact Trimmable.append_of_ne hread hrest (trimEnd_emit_ne_nil notes _ (by simp [hes]))

/-! ### Footnotes -/

theorem definitionBody_plain_append {es : List Event} (h : ∀ e ∈ es, e.isMark = false) (rest : List Event) :
    definitionBody (es ++ rest) = (es ++ (definitionBody rest).1, (definitionBody rest).2) := by
  induction es with
  | nil => rfl
  | cons e es ih =>
    have he : e ≠ .closed .footnoteDefinition := (Event.ne_mark (h e List.mem_cons_self)).2
    rw [List.cons_append, definitionBody, ih fun e' he' => h e' (List.mem_cons_of_mem e he')]
    · rfl
    · exact he

/-- Where a definition ends, no code block is open. -/
theorem codeClosed_definitionBody (h : CodeClosed es) :
    CodeClosed (definitionBody es).1 ∧ CodeClosed (definitionBody es).2 := by
  fun_induction definitionBody es with
  | case1 => exact ⟨trivial, trivial⟩
  | case2 es => exact ⟨trivial, h.2⟩
  | case3 e es _ ih =>
    refine ⟨⟨fun kind he => ?_, (ih h.2).1⟩, (ih h.2).2⟩
    obtain ⟨body, rest, rfl, hbody⟩ := h.1 kind he
    exact ⟨body, (definitionBody rest).1, by rw [definitionBody_plain_append hbody]; rfl, hbody⟩

theorem codeClosed_of_mem_definitions (h : CodeClosed es) : ∀ p ∈ definitions es, CodeClosed p.2 := by
  fun_induction definitions es with
  | case1 => simp
  | case2 label es ih =>
    obtain ⟨hbody, hbehind⟩ := codeClosed_definitionBody h.2
    exact List.forall_mem_cons.2 ⟨hbody, ih hbehind⟩
  | case3 e es _ ih => exact ih h.2

theorem infoLines_of_mem_definitions (h : InfoLines es) : ∀ p ∈ definitions es, InfoLines p.2 :=
  fun p hp info hmem => h info (subset_of_mem_definitions p hp hmem)

theorem readable_footnotes (hinfo : InfoLines es) (hclosed : CodeClosed es) : (footnotes es).Readable := by
  intro label body hbody
  have hmem : (label, body) ∈ footnotes es := List.mem_reverse.1 (mem_of_lookup hbody)
  obtain ⟨p, hp, heq⟩ := List.mem_map.1 hmem
  cases heq
  exact (trimmable_emit readable_noFootnotes (infoLines_of_mem_definitions hinfo p hp)
    (codeClosed_of_mem_definitions hclosed p hp) (Mode.after [])).2

/-- The last definition of a label counts. -/
theorem body?_eq_lookup (es : List Event) (label : String) :
    (footnotes es).body? label =
      ((definitions es).reverse.lookup label).map fun body => Text.trimEnd (emit [] (Mode.after []) body) := by
  rw [← lookup_map, Footnotes.body?, footnotes, List.map_reverse]

theorem body?_of_lookup {label : String} {body : List Event} (h : (definitions es).reverse.lookup label = some body) :
    (footnotes es).body? label = some (Text.trimEnd (emit [] (Mode.after []) body)) := by
  rw [body?_eq_lookup, h]
  rfl

end Streams

end Latex
end Folio

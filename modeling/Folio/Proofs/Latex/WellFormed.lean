import Folio.Latex.Writer
import Folio.Proofs.Latex.Footnote
import Folio.Proofs.Latex.Listing
import Folio.Proofs.Lookup

/-!
# Folio.Proofs.Latex.WellFormed

What is written for a properly nested stream is well formed.

* `bracket_or_neutral`: the two ends of a construct are neutral, or they enclose one group.
* `neutral_emit`: what is written for a nested stream without footnote definitions is neutral.
* `wellFormed_write`: the document is well formed, with the footnotes at their references.
-/

namespace Folio
namespace Latex

open Markdown

/-! ### Modes -/

/-- The mode after a stream. -/
def Mode.through (notes : Footnotes) (m : Mode) : List Event → Mode
  | [] => m
  | e :: es => (m.next e (chunk notes m e)).through notes es

theorem emit_append (notes : Footnotes) (m : Mode) (es fs : List Event) :
    emit notes m (es ++ fs) = emit notes m es ++ emit notes (m.through notes es) fs := by
  induction es generalizing m with
  | nil => rfl
  | cons e es ih => rw [List.cons_append, emit, ih, emit, Mode.through, List.append_assoc]

theorem through_append (notes : Footnotes) (m : Mode) (es fs : List Event) :
    m.through notes (es ++ fs) = (m.through notes es).through notes fs := by
  induction es generalizing m with
  | nil => rfl
  | cons e es ih => exact ih _

/-- Nothing is written for the text of a code block before its end. It is put together in the mode. -/
theorem emit_texts (notes : Footnotes) {m : Mode} {code : List Char} (h : m.code = some code)
    (texts : List String) :
    emit notes m (texts.map .text) = [] ∧
      (m.through notes (texts.map .text)).code = some (code ++ texts.flatMap String.toList) := by
  induction texts generalizing m code with
  | nil => exact ⟨rfl, by rw [List.flatMap_nil, List.append_nil]; exact h⟩
  | cons text texts ih =>
    have hchunk : chunk notes m (.text text) = [] := by
      cases m
      cases h
      rfl
    have hnext : (m.next (.text text) []).code = some (code ++ text.toList) := by
      simp [Mode.next, Mode.nextCode, h]
    rw [List.map_cons, emit, Mode.through, hchunk, List.flatMap_cons, ← List.append_assoc]
    exact ih hnext

/-! ### Events -/

/-- Footnotes whose bodies may stand inside of a group. -/
def Footnotes.Closed (notes : Footnotes) : Prop :=
  ∀ label body, notes.body? label = some body → Reads [] body []

/-- The command begins like the end of an environment. -/
theorem lexes_emph : Lexes "\\emph".toList (.escaped 'e' :: "mph".toList.map .char) := by
  have hlexes : Lexes ['\\', 'e', 'm'] [.escaped 'e', .char 'm'] := by
    intro rest
    have hcommand : token? ('\\' :: 'e' :: 'm' :: rest) = some (.escaped 'e', 'm' :: rest) := rfl
    have hletter : token? ('m' :: rest) = some (.char 'm', rest) := rfl
    rw [List.cons_append, List.cons_append, List.cons_append, List.nil_append, tokens_of_token hcommand,
      tokens_of_token hletter]
    rfl
  exact hlexes.append (lexes_ordinary (by decide : "ph".toList.all isOrdinary = true))

theorem reads_emph : Reads [] "\\emph".toList [] :=
  reads_of_plain lexes_emph (by decide)

theorem neutral_newLine : Neutral "\\\\\n".toList :=
  (neutral_mark (by decide) (by decide) (by decide)).append (neutral_ordinary (by decide : isOrdinary '\n' = true))

theorem neutral_newRow : Neutral " \\\\\n".toList :=
  (neutral_ordinary (by decide : " ".toList.all isOrdinary = true)).append neutral_newLine

theorem neutral_rule : Neutral "\\noindent\\rule\x7b\\textwidth\x7d\x7b0.4pt\x7d\n\n".toList := by
  have hnoindent : Reads [] "\\noindent".toList [] :=
    @reads_command 'n' "oindent".toList (by decide) (by decide) (by decide)
  have hrule : Reads [] "\\rule".toList [] := @reads_command 'r' "ule".toList (by decide) (by decide) (by decide)
  have htextwidth : Reads [] "\\textwidth".toList [] :=
    @reads_command 't' "extwidth".toList (by decide) (by decide) (by decide)
  have hwidth := (@bracket_argument _ [] (hnoindent.append hrule) (by decide)).neutral htextwidth
  have hheight := (@bracket_argument _ ['\n', '\n'] hwidth.1 (by decide)).neutral
    (reads_ordinary (by decide : "0.4pt".toList.all isOrdinary = true))
  exact hheight

theorem chunk_text (notes : Footnotes) (m : Mode) (text : String) :
    chunk notes m (.text text) = match m.code with
      | some _ => []
      | none => escaped text :=
  rfl

theorem opening_tableCell (m : Mode) : opening m .tableCell = if m.cells = 0 then [] else " & ".toList :=
  rfl

theorem closing_codeBlock (m : Mode) : closing m .codeBlock = listing (m.code.getD []) :=
  rfl

theorem closing_item (m : Mode) : closing m .item = if m.lineStart then [] else ['\n'] :=
  rfl

theorem chunk_footnoteReference (notes : Footnotes) (m : Mode) (label : String) :
    chunk notes m (.footnoteReference label) = match notes.body? label with
      | some body => "\\footnote\x7b".toList ++ body ++ "\x7d".toList
      | none => "\\textsuperscript\x7b".toList ++ escaped label ++ "\x7d".toList :=
  rfl

theorem neutral_leaf {notes : Footnotes} (hnotes : notes.Closed) {m : Mode} (hm : m.code = none) {e : Event}
    (he : e.isLeaf = true) : Neutral (chunk notes m e) := by
  have htexttt : Reads [] "\\texttt".toList [] :=
    @reads_command 't' "exttt".toList (by decide) (by decide) (by decide)
  have hfootnote : Reads [] "\\footnote".toList [] :=
    @reads_command 'f' "ootnote".toList (by decide) (by decide) (by decide)
  have hsuperscript : Reads [] "\\textsuperscript".toList [] :=
    @reads_command 't' "extsuperscript".toList (by decide) (by decide) (by decide)
  cases e with
  | opened tag => cases he
  | closed tag => cases he
  | text text =>
    obtain ⟨code, cells, lineStart⟩ := m
    cases hm
    exact neutral_escaped text.toList
  | code text => exact (bracket_argument htexttt (by decide)).neutral (neutral_escaped text.toList).1
  | html text => exact neutral_nil
  | inlineHtml text => exact neutral_nil
  | inlineMath text => exact neutral_nil
  | displayMath text => exact neutral_nil
  | footnoteReference label =>
    rw [chunk_footnoteReference]
    split
    · next body hbody => exact (bracket_argument hfootnote (by decide)).neutral (hnotes label body hbody)
    · exact (bracket_argument hsuperscript (by decide)).neutral (neutral_escaped label.toList).1
  | softBreak => exact neutral_ordinary (by decide : ['\n'].all isOrdinary = true)
  | hardBreak => exact neutral_newLine
  | rule => exact neutral_rule
  | taskMarker checked =>
    cases checked with
    | true => exact neutral_ordinary (by decide : "[x] ".toList.all isOrdinary = true)
    | false => exact neutral_ordinary (by decide : "[ ] ".toList.all isOrdinary = true)

theorem neutral_columns (columns : List ColumnAlignment) :
    Neutral ("\x7b".toList ++ columns.map columnLetter ++ "\x7d\n".toList) := by
  have hletters : (columns.map columnLetter).all isOrdinary = true := by
    rw [List.all_map, List.all_eq_true]
    intro column _
    cases column <;> decide
  exact (bracket_argument reads_nil (by decide)).neutral (reads_ordinary hletters)

/-- The group that a construct is written as, if it is written as one. -/
def groupOf? : Tag → Option Group
  | .heading _ => some .brace
  | .blockQuote => some (.environment "quote".toList)
  | .list none => some (.environment "itemize".toList)
  | .list (some _) => some (.environment "enumerate".toList)
  | .table _ => some (.environment "tabular".toList)
  | .emphasis => some .brace
  | .strong => some .brace
  | .strikethrough => some .brace
  | .link .. => some .brace
  | _ => none

/-- The ends of a construct are neutral, or the construct is a group. -/
theorem bracket_or_neutral (m m' : Mode) {tag : Tag} (h : tag.isPlain = true) :
    (groupOf? tag = none ∧ Neutral (opening m tag) ∧ Neutral (closing m' tag.toEnd)) ∨
      ∃ g, groupOf? tag = some g ∧ Bracket g (opening m tag) (closing m' tag.toEnd) := by
  -- A construct with an argument is a pair of braces, one with an environment is that environment. What is written for
  -- the others opens and closes nothing.
  cases tag with
  | paragraph =>
    have hbreaks : Neutral "\n\n".toList := neutral_ordinary (by decide)
    exact .inl ⟨rfl, neutral_nil, hbreaks⟩
  | heading level =>
    refine .inr ⟨.brace, rfl, ?_⟩
    have hcommand : Reads [] ('\\' :: headingCommand level) [] := by
      cases level <;> exact reads_command (by decide) (by decide) (by decide)
    exact bracket_argument hcommand (by decide)
  | blockQuote =>
    exact .inr ⟨_, rfl, @bracket_environment "quote".toList ['\n'] ['\n', '\n'] (by decide) (by decide)
      (reads_ordinary (by decide)) (by decide)⟩
  | codeBlock kind => cases h
  | htmlBlock => exact .inl ⟨rfl, neutral_nil, neutral_nil⟩
  | list start =>
    cases start with
    | none =>
      exact .inr ⟨_, rfl, @bracket_environment "itemize".toList ['\n'] ['\n', '\n'] (by decide) (by decide)
        (reads_ordinary (by decide)) (by decide)⟩
    | some n =>
      exact .inr ⟨_, rfl, @bracket_environment "enumerate".toList ['\n'] ['\n', '\n'] (by decide) (by decide)
        (reads_ordinary (by decide)) (by decide)⟩
  | item =>
    have hcommand : Reads [] "\\item".toList [] :=
      @reads_command 'i' "tem".toList (by decide) (by decide) (by decide)
    have hopening : Neutral "\\item ".toList := ⟨hcommand.append (reads_ordinary (by decide)), hcommand⟩
    refine .inl ⟨rfl, hopening, ?_⟩
    show Neutral (if m'.lineStart then [] else ['\n'])
    split
    · exact neutral_nil
    · exact neutral_ordinary (by decide)
  | footnoteDefinition label => cases h
  | table columns =>
    have hhead := (neutral_columns columns).1
    have hbracket := @bracket_environment "tabular".toList _ ['\n', '\n'] (by decide) (by decide) hhead (by decide)
    simp only [← List.append_assoc] at hbracket
    exact .inr ⟨_, rfl, hbracket⟩
  | tableHead =>
    have hcommand : Reads [] "\\hline".toList [] :=
      @reads_command 'h' "line".toList (by decide) (by decide) (by decide)
    have hrule : Neutral "\\hline\n".toList := ⟨hcommand.append (reads_ordinary (by decide)), hcommand⟩
    exact .inl ⟨rfl, neutral_nil, neutral_newRow.append hrule⟩
  | tableRow => exact .inl ⟨rfl, neutral_nil, neutral_newRow⟩
  | tableCell =>
    have hopening : Neutral (if m.cells = 0 then [] else " & ".toList) := by
      split
      · exact neutral_nil
      · exact neutral_ordinary (by decide)
    exact .inl ⟨rfl, hopening, neutral_nil⟩
  | emphasis => exact .inr ⟨.brace, rfl, bracket_argument reads_emph (by decide)⟩
  | strong =>
    have hcommand : Reads [] "\\textbf".toList [] :=
      @reads_command 't' "extbf".toList (by decide) (by decide) (by decide)
    exact .inr ⟨.brace, rfl, bracket_argument hcommand (by decide)⟩
  | strikethrough =>
    have hcommand : Reads [] "\\sout".toList [] :=
      @reads_command 's' "out".toList (by decide) (by decide) (by decide)
    exact .inr ⟨.brace, rfl, bracket_argument hcommand (by decide)⟩
  | superscript => exact .inl ⟨rfl, neutral_nil, neutral_nil⟩
  | link kind url title =>
    have hcommand : Reads [] "\\href".toList [] :=
      @reads_command 'h' "ref".toList (by decide) (by decide) (by decide)
    have htarget : Reads [] ("\\href\x7b".toList ++ url.toList.flatMap escapeUrlChar ++ "\x7d".toList) [] :=
      ((bracket_argument hcommand (by decide)).neutral (reads_escapedUrl _)).1
    have hbracket := @bracket_argument _ [] htarget (by decide)
    rw [List.append_assoc] at hbracket
    exact .inr ⟨.brace, rfl, hbracket⟩
  | image url title => exact .inl ⟨rfl, neutral_nil, neutral_nil⟩

theorem neutral_construct (m m' : Mode) {tag : Tag} (h : tag.isPlain = true) {body : List Char} (hbody : Neutral body) :
    Neutral (opening m tag ++ body ++ closing m' tag.toEnd) := by
  obtain ⟨-, hopen, hclose⟩ | ⟨g, -, hbracket⟩ := bracket_or_neutral m m' h
  · exact (hopen.append hbody).append hclose
  · exact hbracket.neutral hbody.1

theorem leaf_nextCode {m : Mode} (hm : m.code = none) {e : Event} (he : e.isLeaf = true) : m.nextCode e = none := by
  cases e with
  | opened tag => cases he
  | closed tag => cases he
  | text text => rw [Mode.nextCode, hm, Option.map_none]
  | _ => exact hm

theorem plain_nextCode (m : Mode) {tag : Tag} (h : tag.isPlain = true) :
    m.nextCode (.opened tag) = m.code ∧ m.nextCode (.closed tag.toEnd) = m.code := by
  cases tag with
  | codeBlock kind => cases h
  | _ => exact ⟨rfl, rfl⟩

/-! ### Streams -/

/-- Info strings end where their line ends. -/
def InfoLines (es : List Event) : Prop :=
  ∀ info, Event.opened (.codeBlock (.fenced info)) ∈ es → '\n' ∉ info.toList

theorem neutral_language (m : Mode) {kind : CodeKind} (h : ∀ info, kind = .fenced info → '\n' ∉ info.toList) :
    Reads [] (opening m (.codeBlock kind)) [] := by
  cases kind with
  | indented => exact reads_nil
  | fenced info =>
    show Reads [] (if info.isEmpty then [] else "% language: ".toList ++ info.toList ++ ['\n']) []
    split
    · exact reads_nil
    · have hline : '\n' ∉ " language: ".toList ++ info.toList := by
        rw [List.mem_append, not_or]
        exact ⟨by decide, h info rfl⟩
      exact ⟨_, lexes_comment hline, fun _ _ => rfl⟩

/-- What is written for a nested stream without footnote definitions. -/
theorem neutral_emit {notes : Footnotes} (hnotes : notes.Closed) {es : List Event} (h : Nested .absent es) :
    InfoLines es → ∀ m : Mode, m.code = none →
      Neutral (emit notes m es) ∧ (m.through notes es).code = none := by
  -- The induction also gives that no code block is open behind the stream: within one, texts would not be escaped.
  generalize hno : Notes.absent = no at h
  induction h with
  | nil => exact fun _ m hm => ⟨neutral_nil, hm⟩
  | @leaf no e es he _ ih =>
    intro hinfo m hm
    have hchunk := neutral_leaf hnotes hm he
    have hnext : (m.next e (chunk notes m e)).code = none := leaf_nextCode hm he
    obtain ⟨hrest, hcode⟩ := ih hno (fun info hmem => hinfo info (List.mem_cons_of_mem e hmem)) _ hnext
    exact ⟨hchunk.append hrest, hcode⟩
  | @code no kind texts es _ ih =>
    intro hinfo m hm
    have hlanguage : Reads [] (opening m (.codeBlock kind)) [] := by
      apply neutral_language
      rintro info rfl
      exact hinfo info List.mem_cons_self
    have hstart : (m.next (.opened (.codeBlock kind)) (chunk notes m (.opened (.codeBlock kind)))).code = some [] :=
      rfl
    -- The texts write nothing themselves. The whole code is written where the block closes.
    obtain ⟨hsilent, hcode⟩ := emit_texts notes hstart texts
    rw [emit, emit_append, emit, Mode.through, through_append, Mode.through]
    generalize m.next (.opened (.codeBlock kind)) (chunk notes m (.opened (.codeBlock kind))) = m' at hsilent hcode ⊢
    generalize m'.through notes (texts.map .text) = m'' at hcode ⊢
    have hbehind : InfoLines es := fun info hmem => hinfo info (by simp [hmem])
    obtain ⟨hrest, hcode'⟩ := ih hno hbehind (m''.next (.closed .codeBlock) (chunk notes m'' (.closed .codeBlock))) rfl
    refine ⟨?_, hcode'⟩
    rw [hsilent, List.nil_append, ← List.append_assoc]
    exact (neutral_append_listing hlanguage _).append hrest
  | @note no inner label body es hin _ _ _ _ =>
    subst hno
    cases hin
  | @group no tag body es htag _ _ ihbody ih =>
    intro hinfo m hm
    rw [emit, emit_append, emit, Mode.through, through_append, Mode.through]
    have hopen : (m.next (.opened tag) (chunk notes m (.opened tag))).code = none :=
      (plain_nextCode m htag).1.trans hm
    have hinside : InfoLines body := fun info hmem => hinfo info (by simp [hmem])
    obtain ⟨hbody, hcode⟩ := ihbody hno hinside _ hopen
    generalize m.next (.opened tag) (chunk notes m (.opened tag)) = m' at hbody hcode ⊢
    generalize m'.through notes body = m'' at hcode ⊢
    have hclose : (m''.next (.closed tag.toEnd) (chunk notes m'' (.closed tag.toEnd))).code = none :=
      (plain_nextCode m'' htag).2.trans hcode
    have hbehind : InfoLines es := fun info hmem => hinfo info (by simp [hmem])
    obtain ⟨hrest, hcode'⟩ := ih hno hbehind _ hclose
    refine ⟨?_, hcode'⟩
    rw [← List.append_assoc, ← List.append_assoc]
    exact (neutral_construct m m'' htag hbody).append hrest

theorem closed_footnotes {es : List Event} (h : Nested .apart es) (hinfo : InfoLines es) : (footnotes es).Closed := by
  intro label body hbody
  have hmem : (label, body) ∈ footnotes es := List.mem_reverse.1 (mem_of_lookup hbody)
  obtain ⟨⟨label', events⟩, hdef, heq⟩ := List.mem_map.1 hmem
  cases heq
  have hnested := nested_of_mem_definitions h _ hdef
  have hsub := subset_of_mem_definitions _ hdef
  have hnone : Footnotes.Closed [] := fun label body hbody => by cases hbody
  exact (neutral_emit hnone hnested (fun info hmem => hinfo info (hsub hmem)) (Mode.after []) rfl).1.2

theorem wellFormed_write {es : List Event} (h : Nested .apart es) (hinfo : InfoLines es) :
    WellFormed (write "" es).toList := by
  have hinfo' : InfoLines (mainText 0 es) := fun info hmem => hinfo info (subset_mainText 0 es hmem)
  have hneutral := (neutral_emit (closed_footnotes h hinfo) (nested_mainText h) hinfo' (Mode.after []) rfl).1
  have htext : (write "" es).toList = emit (footnotes es) (Mode.after []) (mainText 0 es) := by
    simp [write]
  rw [htext]
  exact hneutral.1.wellFormed

/-- A footnote of which the body is a listing that holds its own end mark, with a reference inside of a link. -/
def hostile : List Event :=
  .opened (.link .place "\x7d%\\" "") ::
    ([.footnoteReference "\x7b"] ++ .closed .link ::
      .opened (.footnoteDefinition "\x7b") ::
        ((.opened (.codeBlock (.fenced "%\\\x7b")) ::
          (["\x7d\n\\end\x7bverb", "atim\x7d\x7b\n"].map .text ++ .closed .codeBlock :: [])) ++
          .closed .footnoteDefinition :: []))

theorem wellFormed_hostile :
    Nested .apart hostile ∧ InfoLines hostile ∧ WellFormed (write "" hostile).toList := by
  have hnested : Nested .apart hostile :=
    .group rfl (.leaf rfl .nil) (.note rfl (.code .nil) .nil)
  have hinfo : InfoLines hostile := by
    intro info hmem
    simp only [hostile, List.cons_append, List.nil_append, List.map_cons, List.map_nil, List.mem_cons,
      List.not_mem_nil, or_false, Event.opened.injEq, Tag.codeBlock.injEq, CodeKind.fenced.injEq, reduceCtorEq,
      false_or] at hmem
    subst hmem
    decide
  exact ⟨hnested, hinfo, wellFormed_write hnested hinfo⟩

end Latex
end Folio

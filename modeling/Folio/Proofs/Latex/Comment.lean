import Mathlib
import Folio.Proofs.Latex.Readable
import Folio.Proofs.Markdown.Events

/-!
# Folio.Proofs.Latex.Comment

The line that names the language of a code block.

* `InfoAt`: the places where an info string is written.
* `Commented`: a reader takes the line there for a comment, with all of the info string and nothing else.
* `info_commented`: so it does for streams, documents and scripts whose info strings hold no end of a line.
* `tokens_codeBlock_broken`: else a reader takes what stands behind the end of the line for text; `Leaking` is a document
  and a script for which it does.
-/

namespace Folio
namespace Latex

open Markdown

/-! ### The line with the language -/

/-- The mode behind the line with the language of a code block. -/
def Mode.inCode (m : Mode) : Mode :=
  { m with code := some [], lineStart := true }

theorem opening_fenced (m : Mode) {info : String} (hinfo : info ≠ "") :
    opening m (.codeBlock (.fenced info)) = "% language: ".toList ++ info.toList ++ ['\n'] := by
  show (if info.isEmpty then [] else _) = _
  rw [if_neg (by simpa [String.isEmpty_iff] using hinfo)]

theorem emit_info (notes : Footnotes) (m : Mode) (as : List Event) {info : String} (hinfo : info ≠ "") (bs : List Event) :
    emit notes m (as ++ .opened (.codeBlock (.fenced info)) :: bs) =
      emit notes m as ++ '%' :: (" language: ".toList ++ info.toList ++
        '\n' :: emit notes (m.through notes as).inCode bs) := by
  have hchunk : ∀ m, chunk notes m (.opened (.codeBlock (.fenced info))) =
      "% language: ".toList ++ info.toList ++ ['\n'] := fun m => opening_fenced m hinfo
  have hnext : ∀ m : Mode, m.next (.opened (.codeBlock (.fenced info)))
      ("% language: ".toList ++ info.toList ++ ['\n']) = m.inCode := by
    intro m
    rw [Mode.next, Mode.inCode, endsLine, List.getLast?_concat]
    rfl
  rw [emit_append, emit, hchunk, hnext]
  simp

/-- The blanks at the end of a footnote stand behind its listings. -/
theorem trimEnd_emit_info {m : Mode} {as bs : List Event} {info : String} (hinfo : info ≠ "")
    (hend : .closed .codeBlock ∈ bs) :
    Text.trimEnd (emit [] m (as ++ .opened (.codeBlock (.fenced info)) :: bs)) =
      emit [] m as ++ '%' :: (" language: ".toList ++ info.toList ++
        '\n' :: Text.trimEnd (emit [] (m.through [] as).inCode bs)) := by
  have hsplit : ∀ tail : List Char, emit [] m as ++ '%' :: (" language: ".toList ++ info.toList ++ '\n' :: tail) =
      (emit [] m as ++ '%' :: (" language: ".toList ++ info.toList ++ ['\n'])) ++ tail := by
    intro tail
    simp
  rw [emit_info [] m as hinfo bs, hsplit (emit _ _ _), hsplit (Text.trimEnd _), Text.trimEnd_append,
    if_neg (trimEnd_emit_ne_nil [] _ hend)]

/-- The line for an info string in a text: a reader has read what stands before it, takes the info string for a comment up
to the end of the line, and goes on behind it. -/
structure Commented (text before info after : List Char) : Prop where
  written : text = before ++ '%' :: (" language: ".toList ++ info ++ '\n' :: after)
  line : '\n' ∉ info
  read : ∃ ts, Lexes before ts ∧
    tokens text = ts ++ .comment (" language: ".toList ++ info) :: .char '\n' :: tokens after

theorem commented_of_readable {text before info after : List Char} (h : Readable before) (hline : '\n' ∉ info)
    (htext : text = before ++ '%' :: (" language: ".toList ++ info ++ '\n' :: after)) :
    Commented text before info after := by
  obtain ⟨ts, hts⟩ := h
  have hcomment : '\n' ∉ " language: ".toList ++ info := by
    rw [List.mem_append, not_or]
    exact ⟨by decide, hline⟩
  have hbreak : token? ('\n' :: after) = some (.char '\n', after) := rfl
  refine ⟨htext, hline, ts, hts, ?_⟩
  rw [htext, hts, tokens_of_token (token_comment hcomment after), tokens_of_token hbreak]

/-- Where an info string is written: in the main text, or in a footnote at a reference to it. The texts are what is written
before its line and behind it. -/
inductive InfoAt (es : List Event) (info : String) : List Char → List Char → Prop where
  | main {as bs : List Event} : mainText 0 es = as ++ .opened (.codeBlock (.fenced info)) :: bs →
      InfoAt es info (emit (footnotes es) (Mode.after []) as)
        (emit (footnotes es) ((Mode.after []).through (footnotes es) as).inCode bs)
  | note {label : String} {as bs cs ds : List Event} : mainText 0 es = as ++ .footnoteReference label :: bs →
      (definitions es).reverse.lookup label = some (cs ++ .opened (.codeBlock (.fenced info)) :: ds) →
      InfoAt es info (emit (footnotes es) (Mode.after []) as ++ "\\footnote\x7b".toList ++ emit [] (Mode.after []) cs)
        (Text.trimEnd (emit [] ((Mode.after []).through [] cs).inCode ds) ++ "\x7d".toList ++
          emit (footnotes es) ((Mode.after []).through (footnotes es) (as ++ [.footnoteReference label])) bs)

theorem toList_write (es : List Event) :
    (write "" es).toList = emit (footnotes es) (Mode.after []) (mainText 0 es) := by
  simp [write]

theorem commented_write {es : List Event} (hinfo : InfoLines es) (hclosed : CodeClosed es) {info : String}
    (hne : info ≠ "") {before after : List Char} (h : InfoAt es info before after) :
    Commented (write "" es).toList before info.toList after := by
  have hnotes := readable_footnotes hinfo hclosed
  have hmain : InfoLines (mainText 0 es) := fun info hmem => hinfo info (subset_mainText 0 es hmem)
  rw [toList_write]
  cases h with
  | @main as bs hsplit =>
    rw [hsplit] at hmain ⊢
    have hbefore : InfoLines as := fun info hmem => hmain info (List.mem_append_left _ hmem)
    exact commented_of_readable (readable_emit hnotes hbefore _) (hmain info (by simp)) (emit_info _ _ as hne bs)
  | @note label as bs cs ds hsplit hlookup =>
    let body := cs ++ .opened (.codeBlock (.fenced info)) :: ds
    have hmem : (label, body) ∈ definitions es := List.mem_reverse.1 (mem_of_lookup hlookup)
    have hinfo' : InfoLines body := infoLines_of_mem_definitions hinfo _ hmem
    have hcs : InfoLines cs := fun info hmem => hinfo' info (List.mem_append_left _ hmem)
    have has : InfoLines as := fun info hmem => hmain info (hsplit ▸ List.mem_append_left _ hmem)
    have hend : .closed .codeBlock ∈ ds := by
      obtain ⟨code, rest, rfl, -⟩ := (codeClosed_of_mem_definitions hclosed _ hmem).of_append.1 _ rfl
      simp
    have hbefore := ((readable_emit hnotes has (Mode.after [])).append readable_footnote).append
      (readable_emit readable_noFootnotes hcs (Mode.after []))
    refine commented_of_readable hbefore (hinfo' info (by simp [body])) ?_
    rw [hsplit, emit_append, emit, through_append, Mode.through, Mode.through, chunk_footnoteReference,
      body?_of_lookup hlookup, trimEnd_emit_info hne hend]
    simp

theorem commented_script {source : Path} (hline : '\n' ∉ (Content.language source).toList)
    (hne : Content.language source ≠ "") (text : String) :
    Commented (fragment .latex (Content.documentEvents .script source text)).toList [] (Content.language source).toList
      (listing text.toList) := by
  have hcode : [text].flatMap String.toList = text.toList := List.flatMap_singleton ..
  refine commented_of_readable readable_nil hline ?_
  rw [toList_fragment_script, emit_codeBlock, opening_fenced _ hne, hcode]
  simp

/-- No info string leaves the comment it is written in, unless it holds an end of a line: neither one of a stream, nor one
of a document, nor the extension of a script. An empty one is not written. -/
theorem info_commented (es : List Event) (source : Path) (text : String) :
    (InfoLines es → CodeClosed es → ∀ info before after, info ≠ "" → InfoAt es info before after →
      Commented (write "" es).toList before info.toList after) ∧
    (InfoLines (events text) → ∀ info before after, info ≠ "" → InfoAt (events text) info before after →
      Commented (fragment .latex (Content.documentEvents .markdown source text)).toList before info.toList after) ∧
    ('\n' ∉ (Content.language source).toList → Content.language source ≠ "" →
      Commented (fragment .latex (Content.documentEvents .script source text)).toList [] (Content.language source).toList
        (listing text.toList)) ∧
    ∀ m, opening m (.codeBlock (.fenced "")) = [] := by
  refine ⟨?_, ?_, ?_, ?_⟩
  · exact fun hinfo hclosed info before after hne hat => commented_write hinfo hclosed hne hat
  · exact fun hinfo info before after hne hat => commented_write hinfo (nested_events text).codeClosed hne hat
  · exact fun hline hne => commented_script hline hne text
  · exact fun _ => rfl

namespace Noted

/-- A footnote of which the body is a listing. -/
def document : String :=
  "a[^n]\n\n[^n]: ```%\x7d\n    x\n    ```\n"

def listed : List Event :=
  [.opened (.codeBlock (.fenced "%\x7d")), .text "x\n", .closed .codeBlock]

def stream : List Event :=
  [.opened .paragraph, .text "a", .footnoteReference "n", .closed .paragraph, .opened (.footnoteDefinition "n")] ++
    listed ++ [.closed .footnoteDefinition]

def before : List Char :=
  "a\\footnote\x7b".toList

def after : List Char :=
  "\\begin\x7bverbatim\x7d\nx\n\\end\x7bverbatim\x7d\x7d\n\n".toList

def script : Path :=
  Path.ofString "in/a.%\x7d"

theorem events_document : events document = stream := by
  cbv

theorem definitions_stream : definitions stream = [("n", listed)] := by
  simp [stream, listed, definitions, definitionBody]

theorem infoLines_stream : InfoLines stream := by
  intro info hmem
  simp only [stream, listed, List.cons_append, List.nil_append, List.mem_cons, List.not_mem_nil, or_false,
    Event.opened.injEq, Tag.codeBlock.injEq, CodeKind.fenced.injEq, reduceCtorEq, false_or] at hmem
  subst hmem
  decide

theorem infoAt_stream : InfoAt stream "%\x7d" before after := by
  have hlookup : (definitions stream).reverse.lookup "n" = some ([] ++ listed) := by
    rw [definitions_stream]
    rfl
  have hnotes : footnotes stream =
      [("n", "% language: %\x7d\n\\begin\x7bverbatim\x7d\nx\n\\end\x7bverbatim\x7d".toList)] := by
    rw [footnotes, definitions_stream]
    decide +kernel
  have hat := @InfoAt.note stream "%\x7d" "n" [.opened .paragraph, .text "a"] [.closed .paragraph] []
    [.text "x\n", .closed .codeBlock] rfl hlookup
  rw [hnotes] at hat
  exact hat

theorem info_noted :
    (CodeClosed stream ∧ Commented (write "" stream).toList before "%\x7d".toList after) ∧
    (Commented (fragment .latex (Content.documentEvents .markdown (Path.ofString "in/a.md") document)).toList before
      "%\x7d".toList after) ∧
    Content.language script = "%\x7d" ∧
      Commented (fragment .latex (Content.documentEvents .script script "x")).toList [] "%\x7d".toList
        (listing "x".toList) := by
  have hclosed : CodeClosed stream := events_document ▸ (nested_events document).codeClosed
  have hlanguage : Content.language script = "%\x7d" := by cbv
  have hline : '\n' ∉ (Content.language script).toList := by
    rw [hlanguage]
    decide
  have hstream := (info_commented stream script "x").1 infoLines_stream hclosed
  have hdocument := (info_commented stream (Path.ofString "in/a.md") document).2.1
  rw [events_document] at hdocument
  have hscript := (info_commented stream script "x").2.2.1 hline (by rw [hlanguage]; decide)
  rw [hlanguage] at hscript
  exact ⟨⟨hclosed, hstream "%\x7d" before after (by decide) infoAt_stream⟩,
    hdocument infoLines_stream "%\x7d" before after (by decide) infoAt_stream, hlanguage, hscript⟩

end Noted

/-- The comment ends with the first line of an info string, and the rest of it is read as text. -/
theorem tokens_codeBlock_broken (notes : Footnotes) (m : Mode) {line rest : List Char} (hline : '\n' ∉ line)
    (texts : List String) :
    tokens (emit notes m (.opened (.codeBlock (.fenced (String.ofList (line ++ '\n' :: rest)))) ::
        (texts.map .text ++ [.closed .codeBlock]))) =
      .comment (" language: ".toList ++ line) :: .char '\n' ::
        tokens (rest ++ '\n' :: listing (texts.flatMap String.toList)) := by
  have hcomment : '\n' ∉ " language: ".toList ++ line := by
    rw [List.mem_append, not_or]
    exact ⟨by decide, hline⟩
  have hbreak : ∀ after, token? ('\n' :: after) = some (.char '\n', after) := fun _ => rfl
  have hopening : opening m (.codeBlock (.fenced (String.ofList (line ++ '\n' :: rest)))) =
      '%' :: (" language: ".toList ++ line ++ '\n' :: (rest ++ ['\n'])) := by
    have hne : String.ofList (line ++ '\n' :: rest) ≠ "" := by simp
    rw [opening_fenced m hne, String.toList_ofList]
    simp
  rw [emit_codeBlock, hopening, List.cons_append, List.append_assoc, List.cons_append,
    tokens_of_token (token_comment hcomment _), tokens_of_token (hbreak _), List.append_assoc]
  rfl

namespace Leaking

/-- The reference in the fence stands for the end of a line. -/
def document : String :=
  "```a&#10;b\nc\n```\n"

def script : Path :=
  Path.ofString "in/a.x\ny"

theorem info_leaking :
    events document = [.opened (.codeBlock (.fenced "a\nb")), .text "c\n", .closed .codeBlock] ∧
      tokens (write "" (events document)).toList =
        .comment " language: a".toList :: .char '\n' :: .char 'b' :: tokens ('\n' :: listing "c\n".toList) ∧
      Content.language script = "x\ny" ∧
      tokens (fragment .latex (Content.documentEvents .script script "c")).toList =
        .comment " language: x".toList :: .char '\n' :: .char 'y' :: tokens ('\n' :: listing "c".toList) := by
  have hevents : events document = .opened (.codeBlock (.fenced "a\nb")) :: (["c\n"].map .text ++ [.closed .codeBlock]) := by
    cbv
  have hmain : mainText 0 (events document) =
      .opened (.codeBlock (.fenced "a\nb")) :: (["c\n"].map .text ++ [.closed .codeBlock]) := by
    rw [hevents]
    rfl
  have hlanguage : Content.language script = "x\ny" := by cbv
  have hb : ∀ after, token? ('b' :: after) = some (.char 'b', after) := fun _ => rfl
  have hy : ∀ after, token? ('y' :: after) = some (.char 'y', after) := fun _ => rfl
  refine ⟨hevents, ?_, hlanguage, ?_⟩
  · rw [toList_write, hmain, ← tokens_of_token (hb _)]
    exact @tokens_codeBlock_broken _ _ ['a'] ['b'] (by decide) ["c\n"]
  · rw [toList_fragment_script, hlanguage, ← tokens_of_token (hy _)]
    exact @tokens_codeBlock_broken _ _ ['x'] ['y'] (by decide) ["c"]

end Leaking

end Latex
end Folio

import Folio.Proofs.Latex.Depth
import Folio.Proofs.Latex.Escaping

/-!
# Folio.Proofs.Latex.Inline

The tokens that are read where texts, references and arguments are written.

* `Admits`: a condition on tokens and their depth that all of these meet, except for a hard break.
* `even_escaped`, `even_leaf`: so they do in escaped text and in what is written for a single event.
* `even_argument`: so they do in an argument, where the condition holds of its text one level deeper.
-/

namespace Folio
namespace Latex

open Markdown

/-- Whether a token belongs to text and its braces. -/
def Token.isTextual : Token → Bool
  | .char _ => true
  | .escaped _ => true
  | .opened => true
  | .closed => true
  | _ => false

/-- A condition that text meets inside of braces, and outside of them if it has neither a `&` nor the end of a line. -/
structure Admits (p : Nat × Token → Prop) : Prop where
  char : ∀ {c : Char}, c ≠ '&' → p (0, .char c)
  escaped : ∀ {c : Char}, c ≠ '\\' → p (0, .escaped c)
  opened : p (0, .opened)
  inside : ∀ {d : Nat} {t : Token}, t.isTextual = true → p (d + 1, t)

section Texts

variable {p : Nat × Token → Prop}

theorem Admits.deeper (h : Admits p) : Admits fun x => p (Latex.deeper 1 x) where
  char _ := h.inside rfl
  escaped _ := h.inside rfl
  opened := h.inside rfl
  inside ht := h.inside ht

theorem Admits.closed (h : Admits p) : p (1, .closed) :=
  h.inside rfl

/-- Whether a text is read character by character, without a `&`. -/
def isWord (text : List Char) : Bool :=
  text.all fun c => isOrdinary c && c != '&'

theorem even_word (h : Admits p) {text : List Char} (hword : isWord text = true) : Even p text := by
  have hboth : ∀ c ∈ text, isOrdinary c = true ∧ c ≠ '&' := by
    simpa only [isWord, List.all_eq_true, Bool.and_eq_true, bne_iff_ne] using hword
  have hordinary : text.all isOrdinary = true := List.all_eq_true.2 fun c hc => (hboth c hc).1
  exact .of_plain (lexes_ordinary hordinary) (by simp [Token.isPlain])
    (List.forall_mem_map.2 fun c hc => h.char (hboth c hc).2)

theorem even_mark (h : Admits p) {c : Char} (hc : c ≠ 'b' ∧ c ≠ 'e' ∧ c ≠ '\\') : Even p ['\\', c] :=
  .of_plain (lexes_escaped hc.1 hc.2.1) (by simp [Token.isPlain]) (List.forall_mem_singleton.2 (h.escaped hc.2.2))

theorem even_command (h : Admits p) {c : Char} {name : List Char} (hc : c ≠ 'b' ∧ c ≠ 'e' ∧ c ≠ '\\')
    (hname : isWord name = true) : Even p ('\\' :: c :: name) :=
  (even_mark h hc).append (even_word h hname)

theorem even_emph (h : Admits p) : Even p "\\emph".toList := by
  refine .of_plain lexes_emph (by decide) (List.forall_mem_cons.2 ⟨h.escaped (by decide), List.forall_mem_map.2 ?_⟩)
  rintro c hc
  refine h.char ?_
  rintro rfl
  exact absurd hc (by decide)

theorem even_braced (h : Admits p) {command body breaks : List Char} (hcommand : Even p command)
    (hbody : Even (fun x => p (deeper 1 x)) body) (hbreaks : isWord breaks = true) :
    Even p (command ++ ['{'] ++ body ++ '}' :: breaks) :=
  .command hcommand h.opened hbody h.closed (even_word h hbreaks)

theorem even_escapeChar (h : Admits p) (c : Char) : Even p (escapeChar c) := by
  have hsymbol : ∀ {d : Char} {name : List Char}, d ≠ 'b' ∧ d ≠ 'e' ∧ d ≠ '\\' → isWord name = true →
      Even p ('\\' :: d :: name ++ ['{', '}']) := by
    intro d name hd hname
    have hall := even_braced h (even_command h hd hname) .nil (rfl : isWord [] = true)
    rwa [List.append_nil, List.append_assoc] at hall
  unfold escapeChar
  split
  · exact @hsymbol 't' "extbackslash".toList (by decide) (by decide)
  · exact @hsymbol 't' "extasciitilde".toList (by decide) (by decide)
  · exact @hsymbol 't' "extasciicircum".toList (by decide) (by decide)
  iterate 7
    · exact even_mark h (by decide)
  · next h1 h2 h3 h4 h5 h6 h7 h8 h9 h10 =>
    apply even_word h
    simp only [isWord, List.all_cons, List.all_nil, Bool.and_true, isOrdinary, Bool.and_eq_true, bne_iff_ne]
    exact ⟨⟨⟨⟨h1, h9⟩, h4⟩, h5⟩, h7⟩

theorem even_escaped (h : Admits p) (text : List Char) : Even p (text.flatMap escapeChar) :=
  .flatMap fun c _ => even_escapeChar h c

theorem even_escapedUrl (hp : ∀ t : Token, t.isPlain = true → p (0, t)) (url : List Char) :
    Even p (url.flatMap escapeUrlChar) := by
  obtain ⟨ts, hts, hplain⟩ := lexes_escapedUrl url
  exact .of_plain hts hplain fun t ht => hp t (hplain t ht)

end Texts

/-! ### Events -/

/-- The mode behind a construct. -/
def Mode.behind (notes : Footnotes) (m : Mode) (tag : Tag) (body : List Event) : Mode :=
  let m' := m.through notes (.opened tag :: body)
  m'.next (.closed tag.toEnd) (closing m' tag.toEnd)

theorem emit_construct (notes : Footnotes) (m : Mode) (tag : Tag) (body es : List Event) :
    emit notes m (.opened tag :: (body ++ .closed tag.toEnd :: es)) =
      opening m tag ++ emit notes (m.through notes [.opened tag]) body ++
        closing (m.through notes (.opened tag :: body)) tag.toEnd ++ emit notes (m.behind notes tag body) es := by
  rw [emit, emit_append, emit, List.append_assoc, List.append_assoc]
  rfl

theorem through_construct (notes : Footnotes) (m : Mode) (tag : Tag) (body es : List Event) :
    m.through notes (.opened tag :: (body ++ .closed tag.toEnd :: es)) = (m.behind notes tag body).through notes es := by
  rw [Mode.through, through_append, Mode.through]
  rfl

/-- Whether a construct is written as the argument of a command. -/
def isArgument : Tag → Bool
  | .heading _ => true
  | .emphasis => true
  | .strong => true
  | .strikethrough => true
  | .link .. => true
  | _ => false

theorem isPlain_of_isArgument {tag : Tag} (h : isArgument tag = true) : tag.isPlain = true := by
  cases tag <;> first | rfl | cases h

section Events

variable {p : Nat × Token → Prop} {notes : Footnotes} {m m' : Mode}

theorem even_leaf (h : Admits p) (hm : m.code = none) {e : Event} (he : e.isLeaf = true)
    (hbreak : e = .hardBreak → p (0, .escaped '\\'))
    (hnotes : ∀ label body, e = .footnoteReference label → notes.body? label = some body →
      Even (fun x => p (deeper 1 x)) body) : Even p (chunk notes m e) := by
  have hargument : ∀ {c : Char} {name body : List Char}, c ≠ 'b' ∧ c ≠ 'e' ∧ c ≠ '\\' → isWord name = true →
      Even (fun x => p (deeper 1 x)) body → Even p ('\\' :: c :: name ++ ['{'] ++ body ++ ['}']) :=
    fun hc hname hbody => even_braced h (even_command h hc hname) hbody rfl
  have hescaped : ∀ text : List Char, Even (fun x => p (deeper 1 x)) (text.flatMap escapeChar) :=
    even_escaped h.deeper
  cases e with
  | opened tag => cases he
  | closed tag => cases he
  | text text =>
    rw [chunk_text, hm]
    exact even_escaped h text.toList
  | code text => exact @hargument 't' "exttt".toList _ (by decide) (by decide) (hescaped text.toList)
  | footnoteReference label =>
    rw [chunk_footnoteReference]
    split
    · next body hbody => exact @hargument 'f' "ootnote".toList _ (by decide) (by decide) (hnotes label body rfl hbody)
    · exact @hargument 't' "extsuperscript".toList _ (by decide) (by decide) (hescaped label.toList)
  | softBreak => exact even_word h (rfl : isWord ['\n'] = true)
  | hardBreak =>
    -- The mark of a line break is also that of the end of a row, so that `p` has to allow it.
    have hmark : Even p ['\\', '\\'] := .of_plain (lexes_escaped (by decide) (by decide)) (by simp [Token.isPlain])
      (List.forall_mem_singleton.2 (hbreak rfl))
    exact hmark.append (even_word h (rfl : isWord ['\n'] = true))
  | rule =>
    have hnoindent := @even_command p h 'n' "oindent".toList (by decide) (by decide)
    have hwidth := @hargument 'r' "ule".toList _ (by decide) (by decide)
      (@even_command _ h.deeper 't' "extwidth".toList (by decide) (by decide))
    have hheight := even_braced h (hnoindent.append hwidth)
      (even_word h.deeper (by decide : isWord "0.4pt".toList = true)) (rfl : isWord ['\n', '\n'] = true)
    exact hheight
  | taskMarker checked =>
    cases checked with
    | true => exact even_word h (by decide : isWord "[x] ".toList = true)
    | false => exact even_word h (by decide : isWord "[ ] ".toList = true)
  | _ => exact .nil

theorem even_argument (h : Admits p) {tag : Tag} (htag : isArgument tag = true) {body : List Char}
    (hbody : Even (fun x => p (deeper 1 x)) body) : Even p (opening m tag ++ body ++ closing m' tag.toEnd) := by
  have hcommand : ∀ {c : Char} {name breaks : List Char}, c ≠ 'b' ∧ c ≠ 'e' ∧ c ≠ '\\' → isWord name = true →
      isWord breaks = true → Even p ('\\' :: c :: name ++ ['{'] ++ body ++ '}' :: breaks) :=
    fun hc hname => even_braced h (even_command h hc hname) hbody
  cases tag with
  | heading level =>
    cases level with
    | one => exact @hcommand 's' "ection".toList ['\n', '\n'] (by decide) (by decide) rfl
    | two => exact @hcommand 's' "ubsection".toList ['\n', '\n'] (by decide) (by decide) rfl
    | three => exact @hcommand 's' "ubsubsection".toList ['\n', '\n'] (by decide) (by decide) rfl
    | four => exact @hcommand 'p' "aragraph".toList ['\n', '\n'] (by decide) (by decide) rfl
    | _ => exact @hcommand 's' "ubparagraph".toList ['\n', '\n'] (by decide) (by decide) rfl
  | emphasis => exact @even_braced p h _ _ [] (even_emph h) hbody rfl
  | strong => exact @hcommand 't' "extbf".toList [] (by decide) (by decide) rfl
  | strikethrough => exact @hcommand 's' "out".toList [] (by decide) (by decide) rfl
  | link kind url title =>
    have htarget : Even (fun x => p (deeper 1 x)) (url.toList.flatMap escapeUrlChar) :=
      even_escapedUrl (fun t ht => h.inside (by cases t <;> first | rfl | cases ht)) _
    have hhref := @even_braced p h _ _ [] (@even_command p h 'h' "ref".toList (by decide) (by decide)) htarget rfl
    have hall := @even_braced p h _ _ [] hhref hbody rfl
    rw [List.append_assoc _ ['}'] ['{']] at hall
    exact hall
  | _ => cases htag

end Events

end Latex
end Folio

import Folio.Proofs.Latex.Boundary
import Folio.Proofs.Latex.Comment
import Folio.Proofs.Latex.Inline

/-!
# Folio.Proofs.Latex.Outside

Verbatim environments and the arguments of commands.

* `Outside`: texts in which each verbatim environment is read outside of all braces.
* `Braced`: streams as they are written, in which arguments are closed and hold no code blocks; `even_emit`: their text.
* `Placed`: nested streams with code blocks where blocks may stand. `braced_mainText`, `bracedNotes_append`: their main text
  and their definitions are such streams.
* `write_outside_iff`: what is written for them is such a text if and only if no footnote that is referred to holds a code
  block. `Enclosed` is a document in which one does.
-/

namespace Folio
namespace Latex

open Markdown

/-- Each verbatim environment is read outside of all braces. -/
def Outside (text : List Char) : Prop :=
  ∀ x ∈ atDepth 0 (tokens text), x.2.isVerbatim = true → x.1 = 0

/-- Verbatim environments are read outside of all braces, and only if there may be some. -/
def Outer (code : Bool) (x : Nat × Token) : Prop :=
  x.2.isVerbatim = true → code = true ∧ x.1 = 0

/-- No verbatim environment is read. -/
def Silent (text : List Char) : Prop :=
  ∀ t ∈ tokens text, t.isVerbatim = false

theorem admits_outer (code : Bool) : Admits (Outer code) where
  char _ := nofun
  escaped _ := nofun
  opened := nofun
  inside ht hverbatim := by
    rename_i t
    cases t <;> first | cases hverbatim; done | cases ht

/-- Where there are none, there are none one level deeper. -/
theorem outer_deeper {code : Bool} (x : Nat × Token) (h : Outer false x) : Outer code (deeper 1 x) := by
  intro hverbatim
  cases (h hverbatim).1

/-! ### Texts -/

section Texts

variable {code : Bool} {before after : List Group} {text : List Char}

/-- Most of what is written holds no `v`. -/
theorem silent_of_notMem (h : 'v' ∉ text) : Silent text := by
  intro t ht
  rw [← Bool.not_eq_true]
  exact fun hverbatim => h ((infix_of_verbatim ht hverbatim).subset (by decide))

theorem Silent.even (h : Silent text) (hreads : Reads before text after) (hbefore : braces before = 0)
    (hafter : braces after = 0) : Even (Outer code) text := by
  have hmoves := hreads.moves
  rw [hbefore, hafter] at hmoves
  refine ⟨hreads.readable, hmoves, fun x hx hverbatim => ?_⟩
  rw [h x.2 (mem_of_mem_atDepth hx)] at hverbatim
  cases hverbatim

theorem even_verbatim {body : List Char} (h : Passes verbatimEnd body) :
    Even (Outer true) (verbatimBegin ++ body ++ verbatimEnd) := by
  have hlexes := lexes_verbatim h
  refine ⟨⟨_, hlexes⟩, ?_, ?_⟩ <;> rw [hlexes.tokens_eq]
  · exact .cons (fun _ => rfl) (.nil 0)
  · intro x hx _
    rw [List.mem_singleton.1 hx]
    exact ⟨rfl, rfl⟩

/-- The environments of a listing stand side by side, with typewriter text between them. -/
theorem even_listing (code : List Char) : Even (Outer true) (listing code) := by
  have htypewriter : ∀ line : List Char, Even (Outer true)
      ("\n\\noindent\\texttt\x7b".toList ++ line.flatMap escapeChar ++ "\x7d\n".toList) := by
    intro line
    have hcommand : Even (Outer true) "\n\\noindent\\texttt".toList :=
      (silent_of_notMem (by decide)).even reads_typewriterCommand rfl rfl
    exact @even_braced _ (admits_outer true) _ _ ['\n'] hcommand (even_escaped (admits_outer true).deeper line) rfl
  have hbreaks : Even (Outer true) "\n\n".toList := even_word (admits_outer true) (by decide)
  have hstart : Passes verbatimEnd ['\n'] := passes_line [] (by decide) (by decide)
  exact (listingLines_of Even.append (fun _ => even_verbatim) htypewriter (Text.not_mem_of_mem_lines code) _ hstart).append
    hbreaks

theorem verbatim_mem_listing (code : List Char) : ∃ t ∈ tokens (listing code), t.isVerbatim = true := by
  obtain ⟨rest, hrest⟩ : ∃ rest, listing code = '\\' :: (beginWord ++ (verbatimName ++ '}' :: rest)) := by
    refine ⟨'\n' :: ((Text.lines code).flatMap listingLine ++ (verbatimEnd ++ "\n\n".toList)), ?_⟩
    rw [listing, verbatimBegin_eq]
    simp only [List.cons_append, List.append_assoc, List.nil_append]
  have henv := environment_append beginWord (by decide : '}' ∉ verbatimName) rest
  obtain ⟨t, behind, htoken, ht⟩ : ∃ t behind, token? (listing code) = some (t, behind) ∧ t.isVerbatim = true := by
    rw [hrest, token?, commandToken.eq_def, henv]
    cases hcut : cutAt verbatimEnd rest with
    | none => exact ⟨.unclosed, [], by simp [hcut], rfl⟩
    | some p => exact ⟨.verbatim p.1, p.2, by simp [hcut], rfl⟩
  exact ⟨t, by rw [tokens_of_token htoken]; exact List.mem_cons_self, ht⟩

end Texts

/-! ### Events -/

theorem groupOf?_of_isArgument {tag : Tag} : groupOf? tag = some .brace ↔ isArgument tag = true := by
  cases tag with
  | list start => cases start <;> simp [groupOf?, isArgument]
  | _ => simp [groupOf?, isArgument]

/-- Events that neither begin nor end an argument or a code block. -/
inductive Loose : Event → Prop where
  | leaf {e : Event} : e.isLeaf = true → Loose e
  | opened {tag : Tag} : tag.isPlain = true → isArgument tag = false → Loose (.opened tag)
  | closed {tag : Tag} : tag.isPlain = true → isArgument tag = false → Loose (.closed tag.toEnd)
  | mark {label : String} : Loose (.opened (.footnoteDefinition label))

section Events

variable {code : Bool} {notes : Footnotes} {m : Mode}

theorem braces_of_ne {g : Group} (h : g ≠ .brace) : braces [g] = 0 := by
  rw [braces, List.count_eq_zero, List.mem_singleton]
  exact Ne.symm h

theorem silent_opening (m : Mode) {tag : Tag} (hplain : tag.isPlain = true) (h : isArgument tag = false) :
    Silent (opening m tag) := by
  apply silent_of_notMem
  rw [opening.eq_def]
  split
  case h_7 _ columns =>
    have hletters : 'v' ∉ columns.map columnLetter := by
      rw [List.mem_map]
      rintro ⟨column, -, hcolumn⟩
      cases column <;> cases hcolumn
    rw [List.mem_append, List.mem_append, not_or, not_or]
    exact ⟨⟨by decide, hletters⟩, by decide⟩
  case h_8 => split <;> decide
  all_goals first | decide | cases h; done | cases hplain

/-- Only the end of a code block writes a `v`. -/
theorem silent_closing (m : Mode) {tag : Tag} (h : tag.isPlain = true) : Silent (closing m tag.toEnd) := by
  have hcode : tag.toEnd ≠ .codeBlock := by
    cases tag <;> first | cases h; done | exact nofun
  generalize tag.toEnd = tag' at hcode
  apply silent_of_notMem
  rw [closing.eq_def]
  split
  case h_4 => exact absurd rfl hcode
  case h_7 => split <;> decide
  all_goals decide

theorem even_ends (m m' : Mode) {tag : Tag} (hplain : tag.isPlain = true) (h : isArgument tag = false) :
    Even (Outer code) (opening m tag) ∧ Even (Outer code) (closing m' tag.toEnd) := by
  have hopening := silent_opening m hplain h
  have hclosing := silent_closing m' hplain
  obtain ⟨-, hneutral, hneutral'⟩ | ⟨g, hgroup, hopen, hclose, -⟩ := bracket_or_neutral m m' hplain
  · exact ⟨hopening.even hneutral.1 rfl rfl, hclosing.even hneutral'.1 rfl rfl⟩
  · have hg : braces [g] = 0 := by
      apply braces_of_ne
      rintro rfl
      rw [groupOf?_of_isArgument.1 hgroup] at h
      cases h
    exact ⟨hopening.even hopen rfl hg, hclosing.even hclose hg rfl⟩

theorem even_language {kind : CodeKind} (h : ∀ info, kind = .fenced info → '\n' ∉ info.toList) :
    Even (Outer code) (opening m (.codeBlock kind)) := by
  refine Silent.even ?_ (neutral_language m h) rfl rfl
  cases kind with
  | indented => exact silent_of_notMem List.not_mem_nil
  | fenced info =>
    by_cases hne : info = ""
    · subst hne
      exact silent_of_notMem List.not_mem_nil
    · have hline : '\n' ∉ " language: ".toList ++ info.toList := by
        rw [List.mem_append, not_or]
        exact ⟨by decide, h info rfl⟩
      have htokens := (lexes_comment hline).tokens_eq
      intro t ht
      rw [opening_fenced m hne] at ht
      obtain rfl | ht := List.mem_cons.1 (htokens ▸ ht)
      · rfl
      · rw [List.mem_singleton.1 ht]
        rfl

theorem even_loose (hm : m.code = none) {e : Event} (he : Loose e)
    (hnotes : ∀ label body, e = .footnoteReference label → notes.body? label = some body → Even (Outer false) body) :
    Even (Outer code) (chunk notes m e) ∧ (m.next e (chunk notes m e)).code = none := by
  cases he with
  | leaf he =>
    refine ⟨even_leaf (admits_outer code) hm he (fun _ => nofun) fun label body heq hbody => ?_, leaf_nextCode hm he⟩
    exact (hnotes label body heq hbody).mono outer_deeper
  | opened hplain h => exact ⟨(even_ends m m hplain h).1, (plain_nextCode m hplain).1.trans hm⟩
  | closed hplain h => exact ⟨(even_ends m m hplain h).2, (plain_nextCode m hplain).2.trans hm⟩
  | mark => exact ⟨.nil, hm⟩

end Events

/-! ### Streams -/

/-- Streams as they are written, in which arguments are closed. Code blocks stand outside of arguments, if there are some
at all. -/
inductive Braced : Bool → List Event → Prop where
  | nil {code : Bool} : Braced code []
  | loose {code : Bool} {e : Event} {es : List Event} : Loose e → Braced code es → Braced code (e :: es)
  | code {kind : CodeKind} {texts : List String} {es : List Event} :
      Braced true es → Braced true (.opened (.codeBlock kind) :: (texts.map .text ++ .closed .codeBlock :: es))
  | argument {code : Bool} {tag : Tag} {body es : List Event} :
      isArgument tag = true → Braced false body → Braced code es →
      Braced code (.opened tag :: (body ++ .closed tag.toEnd :: es))

section Streams

variable {inside code : Bool} {es : List Event}

theorem Braced.append {fs : List Event} (h : Braced code es) (h' : Braced code fs) : Braced code (es ++ fs) := by
  induction h with
  | nil => exact h'
  | loose he _ ih => exact .loose he (ih h')
  | code _ ih =>
    rw [List.cons_append, List.append_assoc, List.cons_append]
    exact .code (ih h')
  | argument htag hbody _ _ ih =>
    rw [List.cons_append, List.append_assoc, List.cons_append]
    exact .argument htag hbody (ih h')

theorem Braced.of_no_code (h : Braced code es) (hno : .closed .codeBlock ∉ es) : Braced false es := by
  induction h with
  | nil => exact .nil
  | loose he _ ih => exact .loose he (ih fun hmem => hno (List.mem_cons_of_mem _ hmem))
  | code => exact absurd (by simp) hno
  | argument htag hbody _ _ ih => exact .argument htag hbody (ih fun hmem => hno (by simp [hmem]))

theorem even_emit {notes : Footnotes} (h : Braced code es) : InfoLines es →
    (∀ label body, .footnoteReference label ∈ es → notes.body? label = some body → Even (Outer false) body) →
    ∀ m : Mode, m.code = none → Even (Outer code) (emit notes m es) ∧ (m.through notes es).code = none := by
  induction h with
  | nil => exact fun _ _ m hm => ⟨.nil, hm⟩
  | @loose code e es he _ ih =>
    intro hinfo hnotes m hm
    obtain ⟨hchunk, hnext⟩ := even_loose hm he fun label body heq => hnotes label body (heq ▸ List.mem_cons_self)
    have hinfo' : InfoLines es := fun info hmem => hinfo info (List.mem_cons_of_mem e hmem)
    obtain ⟨hrest, hcode⟩ := ih hinfo' (fun label body hmem => hnotes label body (List.mem_cons_of_mem e hmem)) _ hnext
    exact ⟨hchunk.append hrest, hcode⟩
  | @code kind texts es _ ih =>
    intro hinfo hnotes m hm
    have hlanguage : Even (Outer true) (opening m (.codeBlock kind)) := by
      apply even_language
      rintro info rfl
      exact hinfo info List.mem_cons_self
    let block := .opened (.codeBlock kind) :: (texts.map Event.text ++ [.closed .codeBlock])
    have hblock : .opened (.codeBlock kind) :: (texts.map .text ++ .closed .codeBlock :: es) = block ++ es := by
      simp [block]
    have hclosed : (m.through notes block).code = none := by
      rw [Mode.through, through_append]
      rfl
    have hinfo' : InfoLines es := fun info hmem => hinfo info (by simp [hmem])
    obtain ⟨hrest, hcode⟩ := ih hinfo' (fun label body hmem => hnotes label body (by simp [hmem])) _ hclosed
    rw [hblock, emit_append, through_append, emit_codeBlock]
    exact ⟨(hlanguage.append (even_listing _)).append hrest, hcode⟩
  | @argument code tag body es htag _ _ ihbody ih =>
    intro hinfo hnotes m hm
    have hplain := isPlain_of_isArgument htag
    have hinside : InfoLines body := fun info hmem => hinfo info (by simp [hmem])
    have hbehind : InfoLines es := fun info hmem => hinfo info (by simp [hmem])
    -- No verbatim environment may be written in the argument, whatever is allowed around it.
    obtain ⟨hbody, hcode⟩ := ihbody hinside (fun label text hmem => hnotes label text (by simp [hmem]))
      (m.through notes [.opened tag]) ((plain_nextCode m hplain).1.trans hm)
    obtain ⟨hrest, hcode'⟩ := ih hbehind (fun label text hmem => hnotes label text (by simp [hmem]))
      (m.behind notes tag body) ((plain_nextCode _ hplain).2.trans hcode)
    rw [emit_construct, through_construct]
    exact ⟨(even_argument (admits_outer _) htag (hbody.mono outer_deeper)).append hrest, hcode'⟩

/-- Nested streams in which code blocks stand where blocks may stand, so not in what is written as an argument. The first
flag says whether the stream is a part of a footnote definition, the second one whether code blocks may stand in it. In an
argument that is a part of a definition, no other definition begins. -/
inductive Placed : Bool → Bool → List Event → Prop where
  | nil {inside code : Bool} : Placed inside code []
  | leaf {inside code : Bool} {e : Event} {es : List Event} :
      e.isLeaf = true → Placed inside code es → Placed inside code (e :: es)
  | code {inside : Bool} {kind : CodeKind} {texts : List String} {es : List Event} :
      Placed inside true es →
      Placed inside true (.opened (.codeBlock kind) :: (texts.map .text ++ .closed .codeBlock :: es))
  | note {inside code : Bool} {label : String} {body es : List Event} :
      (inside = true → code = true) → Placed true true body → Placed inside code es →
      Placed inside code (.opened (.footnoteDefinition label) :: (body ++ .closed .footnoteDefinition :: es))
  | group {inside code : Bool} {tag : Tag} {body es : List Event} :
      tag.isPlain = true → Placed inside (code && !isArgument tag) body → Placed inside code es →
      Placed inside code (.opened tag :: (body ++ .closed tag.toEnd :: es))

theorem Placed.nested (h : Placed inside code es) : Nested .anywhere es := by
  induction h with
  | nil => exact .nil
  | leaf he _ ih => exact .leaf he ih
  | code _ ih => exact .code ih
  | note _ _ _ ihbody ih => exact .note rfl ihbody ih
  | group htag _ _ ihbody ih => exact .group htag ihbody ih

/-- Constructs that are no arguments are loose at both ends, and arguments are closed. -/
theorem braced_group {tag : Tag} (htag : tag.isPlain = true) {body : List Event}
    (hbody : Braced (code && !isArgument tag) body) (h : Braced code es) :
    Braced code (.opened tag :: (body ++ .closed tag.toEnd :: es)) := by
  by_cases harg : isArgument tag = true
  · rw [harg, Bool.not_true, Bool.and_false] at hbody
    exact .argument harg hbody h
  · rw [Bool.not_eq_true] at harg
    rw [harg, Bool.not_false, Bool.and_true] at hbody
    exact .loose (.opened htag harg) (hbody.append (.loose (.closed htag harg) h))

theorem braced_mainText (h : Placed inside code es) : Braced code (mainText 0 es) := by
  induction h with
  | nil => exact .nil
  | leaf he _ ih =>
    rw [mainText_cons (Event.leaf_plain he)]
    exact .loose (.leaf he) ih
  | code _ ih =>
    rw [mainText_cons (by simp), mainText_texts, mainText_cons (by simp)]
    exact .code ih
  | note _ hbody _ _ ih =>
    rw [mainText, mainText_inside hbody.nested, mainText]
    exact ih
  | group htag hbody _ ihbody ih =>
    rw [mainText_cons (Tag.opened_plain htag), mainText_append hbody.nested, mainText_cons (Tag.closed_plain htag)]
    exact braced_group htag ihbody ih

/-! ### Footnotes -/

/-- Streams in which arguments are closed between a beginning of a definition and the next end of one. -/
def BracedNotes : List Event → Prop
  | [] => True
  | e :: es =>
    (∀ label, e = .opened (.footnoteDefinition label) → Braced true (definitionBody es).1) ∧ BracedNotes es

theorem BracedNotes.of_append {fs : List Event} (h : BracedNotes (es ++ fs)) : BracedNotes fs := by
  induction es with
  | nil => exact h
  | cons e es ih => exact ih h.2

theorem braced_of_mem_definitions (h : BracedNotes es) : ∀ p ∈ definitions es, Braced true p.2 := by
  fun_induction definitions es with
  | case1 => simp
  | case2 label es ih =>
    obtain ⟨before, hbefore⟩ := definitionBody_suffix es
    exact List.forall_mem_cons.2 ⟨h.1 label rfl, ih (BracedNotes.of_append (hbefore ▸ h.2))⟩
  | case3 e es _ ih => exact ih h.2

theorem isMark_of_ne {e : Event} (hopened : ∀ label, e ≠ .opened (.footnoteDefinition label))
    (hclosed : e ≠ .closed .footnoteDefinition) : e.isMark = false := by
  rw [Event.isMark.eq_def]
  split
  · exact absurd rfl (hopened _)
  · exact absurd rfl hclosed
  · rfl

/-- Where no definition may begin, there is none. -/
theorem Placed.no_mark (h : Placed inside code es) (hinside : inside = true) (hcode : code = false) :
    ∀ e ∈ es, e.isMark = false := by
  induction h with
  | nil => simp
  | leaf he _ ih =>
    obtain ⟨hopened, hclosed⟩ := Event.leaf_plain he
    exact List.forall_mem_cons.2 ⟨isMark_of_ne hopened hclosed, ih hinside hcode⟩
  | code => cases hcode
  | note hmay =>
    rw [hmay hinside] at hcode
    cases hcode
  | group htag _ _ ihbody ih =>
    have hopen := Tag.opened_plain htag
    have hclose := Tag.closed_plain htag
    have hbody := ihbody hinside (by rw [hcode, Bool.false_and])
    exact List.forall_mem_cons.2 ⟨isMark_of_ne hopen.1 hopen.2, List.forall_mem_append.2
      ⟨hbody, List.forall_mem_cons.2 ⟨isMark_of_ne hclose.1 hclose.2, ih hinside hcode⟩⟩⟩

theorem definitionBody_cons {e : Event} (h : e ≠ .closed .footnoteDefinition) (es : List Event) :
    (definitionBody (e :: es)).1 = e :: (definitionBody es).1 := by
  rw [definitionBody.eq_3 _ _ h]

theorem bracedNotes_cons {e : Event} (h : ∀ label, e ≠ .opened (.footnoteDefinition label)) (hes : BracedNotes es) :
    BracedNotes (e :: es) :=
  ⟨fun label heq => absurd heq (h label), hes⟩

/-- In a part of a definition, what stands before the next end of one is closed as far as arguments go, since no definition
ends in an argument that began outside of it. -/
theorem braced_cut (h : Placed inside code es) (hinside : inside = true) : code = true → ∀ rest,
    Braced true (definitionBody rest).1 → Braced true (definitionBody (es ++ rest)).1 := by
  induction h with
  | nil => exact fun _ rest hrest => hrest
  | leaf he _ ih =>
    intro hcode rest hrest
    rw [List.cons_append, definitionBody_cons (Event.leaf_plain he).2]
    exact .loose (.leaf he) (ih hinside hcode rest hrest)
  | code _ ih =>
    intro _ rest hrest
    rw [List.cons_append, List.append_assoc, List.cons_append, definitionBody_cons (by simp),
      definitionBody_plain_append (by simp [Event.isMark]), definitionBody_cons (by simp)]
    exact .code (ih hinside rfl rest hrest)
  | note _ _ _ ihbody _ =>
    -- the definition that begins here is cut at its own end or at one inside of it
    intro _ rest _
    rw [List.cons_append, List.append_assoc, List.cons_append, definitionBody_cons (by simp)]
    exact .loose .mark (ihbody rfl rfl _ .nil)
  | @group inside code tag body es htag hplaced _ ihbody ih =>
    rintro rfl rest hrest
    have hclose := (Tag.closed_plain htag).2
    have hbehind := ih hinside rfl rest hrest
    rw [List.cons_append, List.append_assoc, List.cons_append, definitionBody_cons (Tag.opened_plain htag).2]
    by_cases harg : isArgument tag = true
    · -- no mark stands in the argument, so that its end is reached before the next end of a definition
      rw [harg] at hplaced
      have hmarks := hplaced.no_mark hinside rfl
      have hmain : mainText 0 body = body := by simpa [mainText] using mainText_plain_append hmarks []
      have hbraced := braced_mainText hplaced
      rw [hmain] at hbraced
      rw [definitionBody_plain_append hmarks, definitionBody_cons hclose]
      exact .argument harg hbraced hbehind
    · rw [Bool.not_eq_true] at harg
      refine .loose (.opened htag harg) (ihbody hinside (by rw [harg]; rfl) _ ?_)
      rw [definitionBody_cons hclose]
      exact .loose (.closed htag harg) hbehind

theorem bracedNotes_append (h : Placed inside code es) : ∀ {rest}, BracedNotes rest → BracedNotes (es ++ rest) := by
  induction h with
  | nil => exact id
  | leaf he _ ih => exact fun hrest => bracedNotes_cons (Event.leaf_plain he).1 (ih hrest)
  | @code inside kind texts es _ ih =>
    intro rest hrest
    have htexts : ∀ {fs}, BracedNotes fs → BracedNotes (texts.map .text ++ fs) := by
      intro fs hfs
      induction texts with
      | nil => exact hfs
      | cons text texts ih => exact bracedNotes_cons (by simp) ih
    rw [List.cons_append, List.append_assoc, List.cons_append]
    exact bracedNotes_cons (by simp) (htexts (bracedNotes_cons (by simp) (ih hrest)))
  | note _ hbody _ ihbody ih =>
    intro rest hrest
    rw [List.cons_append, List.append_assoc, List.cons_append]
    exact ⟨fun _ _ => braced_cut hbody rfl rfl _ .nil, ihbody (bracedNotes_cons (by simp) (ih hrest))⟩
  | group htag _ _ ihbody ih =>
    intro rest hrest
    rw [List.cons_append, List.append_assoc, List.cons_append]
    exact bracedNotes_cons (Tag.opened_plain htag).1 (ihbody (bracedNotes_cons (Tag.closed_plain htag).1 (ih hrest)))

end Streams

/-! ### The text -/

section Bodies

variable {code : Bool} {body : List Event}

theorem even_trimEnd (h : Braced code body) (hinfo : InfoLines body) (hclosed : CodeClosed body) :
    Even (Outer code) (Text.trimEnd (emit [] (Mode.after []) body)) :=
  (even_emit h hinfo (fun _ _ _ htext => by cases htext) _ rfl).1.trimEnd
    (trimmable_emit readable_noFootnotes hinfo hclosed _).2

/-- A code block in the body of a footnote is read as a verbatim environment, also without the blanks behind it. -/
theorem exists_verbatim (hinfo : InfoLines body) (hclosed : CodeClosed body) (hcode : .closed .codeBlock ∈ body) :
    ∃ t ∈ tokens (Text.trimEnd (emit [] (Mode.after []) body)), t.isVerbatim = true := by
  obtain ⟨blanks, htokens⟩ := tokens_trimEnd (trimmable_emit readable_noFootnotes hinfo hclosed (Mode.after [])).2
  obtain ⟨as, bs, rfl⟩ := List.append_of_mem hcode
  have has : InfoLines as := fun info hmem => hinfo info (List.mem_append_left _ hmem)
  have hbefore := readable_emit readable_noFootnotes has (Mode.after [])
  obtain ⟨t, ht, hverbatim⟩ := verbatim_mem_listing (((Mode.after []).through [] as).code.getD [])
  refine ⟨t, ?_, hverbatim⟩
  have hlisting := (even_listing (((Mode.after []).through [] as).code.getD [])).readable
  have hchunk : chunk [] ((Mode.after []).through [] as) (.closed .codeBlock) =
      listing (((Mode.after []).through [] as).code.getD []) := rfl
  have hall : t ∈ tokens (emit [] (Mode.after []) (as ++ .closed .codeBlock :: bs)) := by
    rw [emit_split, hchunk, (hbefore.append hlisting).tokens_append, hbefore.tokens_append]
    exact List.mem_append_left _ (List.mem_append_right _ ht)
  rw [htokens] at hall
  obtain ht | ht := List.mem_append.1 hall
  · exact ht
  · obtain ⟨c, -, rfl⟩ := List.mem_map.1 ht
    cases hverbatim

/-- At its reference, the environment stands in the argument of the command. -/
theorem exists_deep (h : Braced true body) (hinfo : InfoLines body) (hclosed : CodeClosed body)
    (hcode : .closed .codeBlock ∈ body) :
    Even (fun _ => True) (footnoteText body) ∧
      ∃ x ∈ atDepth 0 (tokens (footnoteText body)), x.2.isVerbatim = true ∧ 0 < x.1 := by
  have hcommand : Reads [] "\\footnote".toList [] :=
    @reads_command 'f' "ootnote".toList (by decide) (by decide) (by decide)
  have hbody := even_trimEnd h hinfo hclosed
  obtain ⟨t, ht, hverbatim⟩ := exists_verbatim hinfo hclosed hcode
  rw [← map_atDepth 0 (tokens (Text.trimEnd _))] at ht
  obtain ⟨x, hx, rfl⟩ := List.mem_map.1 ht
  refine ⟨?_, deeper 1 x, Even.mem_argument (hcommand.append reads_opened) hbody hx _, hverbatim, Nat.succ_pos x.1⟩
  have hbefore : Even (fun _ => True) "\\footnote".toList := ⟨hcommand.readable, hcommand.moves, fun _ _ => trivial⟩
  exact .command hbefore trivial (hbody.mono fun _ _ => trivial) trivial .nil

end Bodies

/-- Each verbatim environment is read outside of all braces if code blocks stand where blocks may stand, and only as long
as no footnote that is referred to holds one. -/
theorem write_outside_iff {es : List Event} (h : Placed false true es) (hinfo : InfoLines es) :
    Outside (write "" es).toList ↔
      ∀ label body, .footnoteReference label ∈ mainText 0 es →
        (definitions es).reverse.lookup label = some body → .closed .codeBlock ∉ body := by
  have hclosed := h.nested.codeClosed
  have hmain : InfoLines (mainText 0 es) := fun info hmem => hinfo info (subset_mainText 0 es hmem)
  have hnotes : BracedNotes (es ++ []) := bracedNotes_append h trivial
  rw [List.append_nil] at hnotes
  have hbodies : ∀ {label body}, (definitions es).reverse.lookup label = some body →
      Braced true body ∧ InfoLines body ∧ CodeClosed body := by
    intro label body hlookup
    have hmem : (label, body) ∈ definitions es := List.mem_reverse.1 (mem_of_lookup hlookup)
    exact ⟨braced_of_mem_definitions hnotes _ hmem, infoLines_of_mem_definitions hinfo _ hmem,
      codeClosed_of_mem_definitions hclosed _ hmem⟩
  rw [toList_write]
  constructor
  · intro houtside label body hreference hlookup hcode
    obtain ⟨hbraced, hinfo', hclosed'⟩ := hbodies hlookup
    -- At the reference the environment stands `x.1` braces deep in its footnote, and below the `d` braces around it.
    obtain ⟨as, bs, hsplit⟩ := List.append_of_mem hreference
    rw [hsplit] at hmain houtside
    have hbefore := readable_emit (readable_footnotes hinfo hclosed)
      (fun info hmem => hmain info (List.mem_append_left _ hmem)) (Mode.after [])
    obtain ⟨heven, x, hx, hverbatim, hdeep⟩ := exists_deep hbraced hinfo' hclosed' hcode
    generalize hdepth : level 0 (tokens (emit (footnotes es) (Mode.after []) as)) = d
    have hzero : x.1 + d = 0 := by
      refine houtside (deeper d x) ?_ hverbatim
      have hmap := heven.moves.atDepth_eq d
      rw [Nat.zero_add] at hmap
      rw [emit_split, chunk_of_lookup hlookup, (hbefore.append heven.readable).tokens_append, hbefore.tokens_append,
        atDepth_append, atDepth_append, hdepth, hmap]
      exact List.mem_append_left _ (List.mem_append_right _ (List.mem_map_of_mem hx))
    omega
  · intro hplain x hx hverbatim
    have hfootnotes : ∀ label body, .footnoteReference label ∈ mainText 0 es →
        (footnotes es).body? label = some body → Even (Outer false) body := by
      intro label body hreference hbody
      rw [body?_eq_lookup] at hbody
      obtain ⟨events, hlookup, rfl⟩ := Option.map_eq_some_iff.1 hbody
      obtain ⟨hbraced, hinfo', hclosed'⟩ := hbodies hlookup
      exact even_trimEnd (hbraced.of_no_code (hplain label events hreference hlookup)) hinfo' hclosed'
    exact ((even_emit (braced_mainText h) hmain hfootnotes (Mode.after []) rfl).1.each x hx hverbatim).2

namespace Unreferenced

/-- A listing that holds a brace and its own end mark. -/
def code : List Event :=
  .opened (.codeBlock (.fenced "%\x7b")) :: (["\x7d\\end\x7bverbatim\x7d\n"].map .text ++ .closed .codeBlock :: [])

/-- A footnote that is referred to, and one with a listing that is not. -/
def notes : List Event :=
  .opened (.footnoteDefinition "n") :: ([.text "x"] ++ .closed .footnoteDefinition :: definition "m" code)

/-- A reference in an argument, and a listing in an item. -/
def stream : List Event :=
  .opened .emphasis :: ([.footnoteReference "n"] ++ .closed .emphasis ::
    .opened .item :: (code ++ .closed .item :: notes))

theorem code_outside : Placed false true stream ∧ InfoLines stream ∧ Outside (write "" stream).toList := by
  have hcode : ∀ inside, Placed inside true code := fun _ => .code .nil
  have hnotes : Placed false true notes := .note (by decide) (.leaf rfl .nil) (.note (by decide) (hcode true) .nil)
  have hplaced : Placed false true stream := .group rfl (.leaf rfl .nil) (.group rfl (hcode false) hnotes)
  have hinfo : InfoLines stream := by
    intro info hmem
    obtain rfl : info = "%\x7b" := by simpa [stream, notes, definition, code] using hmem
    decide
  have hdefinitions : definitions stream = [("n", [.text "x"]), ("m", code)] := by
    simp [stream, notes, definition, code, definitions, definitionBody]
  refine ⟨hplaced, hinfo, (write_outside_iff hplaced hinfo).2 fun label body hreference hlookup => ?_⟩
  obtain rfl : label = "n" := by
    simpa [stream, notes, definition, code, mainText] using hreference
  rw [hdefinitions] at hlookup
  cases hlookup
  decide

end Unreferenced

namespace Enclosed

/-- A footnote that holds a code block. -/
def document : String :=
  "a[^n]\n\n[^n]: ```\n    x\n    ```\n"

def body : List Event :=
  .opened (.codeBlock (.fenced "")) :: (["x\n"].map .text ++ [.closed .codeBlock])

def page : String :=
  "a\\footnote\x7b\\begin\x7bverbatim\x7d\nx\n\\end\x7bverbatim\x7d\x7d\n\n"

theorem verbatim_enclosed :
    Placed false true (events document) ∧ InfoLines (events document) ∧ write "" (events document) = page ∧
      (1, .verbatim "\nx\n".toList) ∈ atDepth 0 (tokens page.toList) ∧ ¬ Outside (write "" (events document)).toList := by
  have hevents : events document =
      .opened .paragraph :: ([.text "a", .footnoteReference "n"] ++ .closed .paragraph :: definition "n" body) := by
    cbv
  have hdefinitions : definitions (events document) = [("n", body)] := by
    rw [hevents]
    simp [body, definition, definitions, definitionBody]
  have hpage : write "" (events document) = page := by
    rw [write, footnotes, hdefinitions, hevents]
    decide +kernel
  have hmem : (1, .verbatim "\nx\n".toList) ∈ atDepth 0 (tokens page.toList) := by
    have hopen : Reads [] "a\\footnote\x7b".toList [.brace] :=
      ((reads_ordinary (by decide : ['a'].all isOrdinary = true)).append
        (@reads_command 'f' "ootnote".toList (by decide) (by decide) (by decide))).append reads_opened
    have hbody : Passes verbatimEnd "\nx\n".toList := @passes_line verbatimEnd "\nx".toList (by decide) (by decide)
    have hhere : (0, .verbatim "\nx\n".toList) ∈
        atDepth 0 (tokens (verbatimBegin ++ "\nx\n".toList ++ verbatimEnd)) := by
      rw [(lexes_verbatim hbody).tokens_eq]
      exact List.mem_singleton_self _
    have hsplit : page.toList = "a\\footnote\x7b".toList ++
        (verbatimBegin ++ "\nx\n".toList ++ verbatimEnd) ++ "\x7d\n\n".toList := by
      decide
    exact hsplit ▸ Even.mem_argument hopen (even_verbatim hbody) hhere "\x7d\n\n".toList
  have hplaced : Placed false true (events document) :=
    hevents ▸ .group rfl (.leaf rfl (.leaf rfl .nil)) (.note (by decide) (.code .nil) .nil)
  have hinfo : InfoLines (events document) := by
    rw [hevents]
    intro info hmem
    obtain rfl : info = "" := by simpa [body, definition] using hmem
    decide
  refine ⟨hplaced, hinfo, hpage, hmem, fun houtside => ?_⟩
  rw [hpage] at houtside
  exact absurd (houtside _ hmem rfl) (by decide)

end Enclosed

end Latex
end Folio

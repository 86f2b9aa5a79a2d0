import Folio.Proofs.Latex.WellFormed

/-!
# Folio.Proofs.Latex.Placement

Footnote definitions may stand anywhere.

* `Complete`: streams whose footnote definitions are closed, and do not stand in each other. Other constructs need not
  be nested.
* `Complete.apart`: such a stream is complete on either side of a definition.
* `write_of_perm`: what is written is known from the main text and from the definitions in any order.
* `write_placement`: a definition may be moved, and is written where it is referred to.
-/

namespace Folio
namespace Markdown

/-- Whether an event begins or ends a footnote definition. -/
def Event.isMark : Event → Bool
  | .opened (.footnoteDefinition _) => true
  | .closed .footnoteDefinition => true
  | _ => false

/-- The events of a footnote definition. -/
def definition (label : String) (body : List Event) : List Event :=
  .opened (.footnoteDefinition label) :: (body ++ [.closed .footnoteDefinition])

/-- Streams whose footnote definitions are closed, and do not stand in each other. -/
inductive Complete : List Event → Prop where
  | nil : Complete []
  | event {e : Event} {es : List Event} : e.isMark = false → Complete es → Complete (e :: es)
  | definition {label : String} {body es : List Event} :
      (∀ e ∈ body, e.isMark = false) → Complete es → Complete (definition label body ++ es)

variable {label : String} {body pre post : List Event}

theorem Event.ne_mark {e : Event} (h : e.isMark = false) :
    (∀ label, e ≠ .opened (.footnoteDefinition label)) ∧ e ≠ .closed .footnoteDefinition := by
  constructor <;> intros <;> rintro rfl <;> cases h

theorem definition_append (label : String) (body es : List Event) :
    definition label body ++ es = .opened (.footnoteDefinition label) :: (body ++ .closed .footnoteDefinition :: es) := by
  simp [definition]

/-- Where a stream is cut before a mark, no mark of a beginning without marks is cut off. -/
theorem exists_of_append_mark {as bs cs ds : List Event} {e f : Event} (has : ∀ e ∈ as, e.isMark = false)
    (hf : f.isMark = true) (hne : e ≠ f) (h : as ++ e :: bs = cs ++ f :: ds) :
    ∃ more, cs = as ++ e :: more ∧ bs = more ++ f :: ds := by
  induction as generalizing cs with
  | nil =>
    cases cs with
    | nil =>
      cases h
      exact absurd rfl hne
    | cons c cs =>
      cases h
      exact ⟨cs, rfl, rfl⟩
  | cons a as ih =>
    cases cs with
    | nil =>
      cases h
      cases hf.symm.trans (has f List.mem_cons_self)
    | cons c cs =>
      obtain ⟨rfl, hrest⟩ := List.cons.inj h
      obtain ⟨more, rfl, rfl⟩ := ih (fun e he => has e (List.mem_cons_of_mem a he)) hrest
      exact ⟨more, rfl, rfl⟩

/-- Beginnings without marks end at the same mark. -/
theorem eq_of_append_mark {as bs cs ds : List Event} {e : Event} (has : ∀ e ∈ as, e.isMark = false)
    (hcs : ∀ e ∈ cs, e.isMark = false) (he : e.isMark = true) (h : as ++ e :: bs = cs ++ e :: ds) :
    as = cs ∧ bs = ds := by
  induction as generalizing cs with
  | nil =>
    cases cs with
    | nil =>
      cases h
      exact ⟨rfl, rfl⟩
    | cons c cs =>
      cases h
      cases he.symm.trans (hcs e List.mem_cons_self)
  | cons a as ih =>
    cases cs with
    | nil =>
      cases h
      cases he.symm.trans (has e List.mem_cons_self)
    | cons c cs =>
      obtain ⟨rfl, hrest⟩ := List.cons.inj h
      obtain ⟨rfl, rfl⟩ := ih (fun e he => has e (List.mem_cons_of_mem a he))
        (fun e he => hcs e (List.mem_cons_of_mem a he)) hrest
      exact ⟨rfl, rfl⟩

namespace Complete

theorem append {es fs : List Event} (h : Complete es) (h' : Complete fs) : Complete (es ++ fs) := by
  induction h with
  | nil => exact h'
  | event he _ ih => exact .event he ih
  | definition hbody _ ih =>
    rw [List.append_assoc]
    exact .definition hbody ih

theorem of_plain {es : List Event} (h : ∀ e ∈ es, e.isMark = false) : Complete es := by
  induction es with
  | nil => exact .nil
  | cons e es ih => exact .event (h e List.mem_cons_self) (ih fun e' he' => h e' (List.mem_cons_of_mem e he'))

/-- A complete stream is complete on either side of a definition. -/
theorem apart (h : Complete (pre ++ Markdown.definition label body ++ post)) (hbody : ∀ e ∈ body, e.isMark = false) :
    Complete pre ∧ Complete post := by
  rw [List.append_assoc, definition_append] at h
  generalize hstream : pre ++ Event.opened (.footnoteDefinition label) :: (body ++ .closed .footnoteDefinition :: post) =
    es at h
  induction h generalizing pre with
  | nil => simp at hstream
  | @event e es he _ ih =>
    cases pre with
    | nil =>
      cases hstream
      cases he
    | cons e' pre =>
      cases hstream
      obtain ⟨hpre, hpost⟩ := ih rfl
      exact ⟨.event he hpre, hpost⟩
  | @definition label' body' es hbody' hes ih =>
    rw [definition_append] at hstream
    cases pre with
    | nil =>
      -- the definition is the first one of the stream
      obtain ⟨-, hrest⟩ := List.cons.inj hstream
      obtain ⟨-, rfl⟩ := eq_of_append_mark hbody hbody' rfl hrest
      exact ⟨.nil, hes⟩
    | cons e pre =>
      obtain ⟨rfl, hrest⟩ := List.cons.inj hstream
      obtain ⟨more, rfl, hes'⟩ := exists_of_append_mark hbody' rfl (by simp) hrest.symm
      obtain ⟨hmore, hpost⟩ := ih hes'.symm
      exact ⟨definition_append label' body' more ▸ .definition hbody' hmore, hpost⟩

end Complete
end Markdown

namespace Latex

open Markdown

/-! ### Definitions and main text -/

section Streams

variable {label : String} {body : List Event}

theorem mainText_plain {es : List Event} (h : ∀ e ∈ es, e.isMark = false) (depth : Nat) (rest : List Event) :
    mainText (depth + 1) (es ++ rest) = mainText (depth + 1) rest := by
  induction es with
  | nil => rfl
  | cons e es ih =>
    obtain ⟨hopened, hclosed⟩ := Event.ne_mark (h e List.mem_cons_self)
    rw [List.cons_append, mainText.eq_5 _ _ _ hopened hclosed]
    exact ih fun e' he' => h e' (List.mem_cons_of_mem e he')

theorem mainText_plain_append {es : List Event} (h : ∀ e ∈ es, e.isMark = false) (rest : List Event) :
    mainText 0 (es ++ rest) = es ++ mainText 0 rest := by
  induction es with
  | nil => rfl
  | cons e es ih =>
    rw [List.cons_append, mainText_cons (Event.ne_mark (h e List.mem_cons_self)),
      ih fun e' he' => h e' (List.mem_cons_of_mem e he'), List.cons_append]

theorem mainText_definition (hbody : ∀ e ∈ body, e.isMark = false) (es : List Event) :
    mainText 0 (definition label body ++ es) = mainText 0 es := by
  rw [definition_append, mainText, mainText_plain hbody, mainText]

theorem definitions_definition (hbody : ∀ e ∈ body, e.isMark = false) (es : List Event) :
    definitions (definition label body ++ es) = (label, body) :: definitions es := by
  rw [definition_append]
  exact definitions_note (fun e he => (Event.ne_mark (hbody e he)).2) es

variable {es : List Event}

theorem mainText_complete (h : Complete es) (rest : List Event) :
    mainText 0 (es ++ rest) = mainText 0 es ++ mainText 0 rest := by
  induction h with
  | nil => rfl
  | event he _ ih =>
    have hplain := Event.ne_mark he
    rw [List.cons_append, mainText_cons hplain, mainText_cons hplain, ih, List.cons_append]
  | definition hbody _ ih => rw [List.append_assoc, mainText_definition hbody, mainText_definition hbody, ih]

theorem definitions_complete (h : Complete es) (rest : List Event) :
    definitions (es ++ rest) = definitions es ++ definitions rest := by
  induction h with
  | nil => simp [definitions]
  | event he _ ih =>
    have hplain := (Event.ne_mark he).1
    rw [List.cons_append, definitions_cons hplain, definitions_cons hplain, ih]
  | definition hbody _ ih =>
    rw [List.append_assoc, definitions_definition hbody, definitions_definition hbody, ih, List.cons_append]

end Streams

/-! ### The text -/

theorem labels_footnotes (es : List Event) : (footnotes es).map Prod.fst = (definitions es).map Prod.fst := by
  rw [footnotes, List.map_map]
  rfl

theorem body?_of_mem {es : List Event} (h : ((definitions es).map Prod.fst).Nodup) {label : String}
    {body : List Event} (hmem : (label, body) ∈ definitions es) :
    (footnotes es).body? label = some (Text.trimEnd (emit [] (Mode.after []) body)) := by
  rw [← labels_footnotes] at h
  rw [Footnotes.body?, lookup_reverse h]
  exact lookup_of_mem h (List.mem_map_of_mem hmem)

theorem body?_of_perm {es es' : List Event} (h : ((definitions es).map Prod.fst).Nodup)
    (hperm : (definitions es).Perm (definitions es')) (label : String) :
    (footnotes es).body? label = (footnotes es').body? label := by
  have h' : ((definitions es').map Prod.fst).Nodup := (hperm.map Prod.fst).nodup_iff.1 h
  rw [← labels_footnotes] at h h'
  rw [Footnotes.body?, Footnotes.body?, lookup_reverse h, lookup_reverse h']
  exact lookup_of_perm h (hperm.map _) label

/-- What is written depends on the footnotes at references alone. -/
theorem chunk_congr {notes notes' : Footnotes} {e : Event}
    (h : ∀ label, e = .footnoteReference label → notes.body? label = notes'.body? label) (m : Mode) :
    chunk notes m e = chunk notes' m e := by
  cases e with
  | footnoteReference label => rw [chunk_footnoteReference, chunk_footnoteReference, h label rfl]
  | taskMarker checked => cases checked <;> rfl
  | _ => rfl

theorem emit_congr {notes notes' : Footnotes} {es : List Event}
    (h : ∀ label, .footnoteReference label ∈ es → notes.body? label = notes'.body? label) (m : Mode) :
    emit notes m es = emit notes' m es := by
  induction es generalizing m with
  | nil => rfl
  | cons e es ih =>
    have hhead : ∀ label, e = .footnoteReference label → notes.body? label = notes'.body? label := by
      rintro label rfl
      exact h label List.mem_cons_self
    have hrest : ∀ label, .footnoteReference label ∈ es → notes.body? label = notes'.body? label := by
      intro label hmem
      exact h label (List.mem_cons_of_mem e hmem)
    rw [emit, emit, chunk_congr hhead, ih hrest]

/-- What is written is known from the main text and from the definitions, in any order where labels differ. -/
theorem write_of_perm {es es' : List Event} (h : ((definitions es).map Prod.fst).Nodup)
    (hperm : (definitions es).Perm (definitions es')) (hmain : mainText 0 es = mainText 0 es') (text : String) :
    write text es = write text es' := by
  rw [write, write, hmain, emit_congr fun label _ => body?_of_perm h hperm label]

/-- A definition may be moved to any place outside of the other ones. It is no part of the main text, so that it
leaves the cells of a row and the code of a listing around it as they are, and is written at each reference of the main
text, before it or behind it. -/
theorem write_placement {label : String} {body pre post pre' post' : List Event}
    (hbody : ∀ e ∈ body, e.isMark = false) (h : Complete (pre ++ definition label body ++ post))
    (h' : Complete (pre' ++ definition label body ++ post')) (hrest : pre ++ post = pre' ++ post')
    (hlabels : ((definitions (pre ++ definition label body ++ post)).map Prod.fst).Nodup) (text : String) :
    let es := pre ++ definition label body ++ post
    let notes := footnotes es
    let m := Mode.after text.toList
    let footnote := Text.trimEnd (emit [] (Mode.after []) body)
    write text es = write text (pre' ++ definition label body ++ post') ∧
      mainText 0 es = mainText 0 (pre ++ post) ∧
      m.through notes (mainText 0 (pre ++ definition label body)) = m.through notes (mainText 0 pre) ∧
      ∀ as bs, mainText 0 es = as ++ .footnoteReference label :: bs →
        write text es = text ++ String.ofList (emit notes m as ++
          ("\\footnote\x7b".toList ++ footnote ++ "\x7d".toList) ++
          emit notes (m.through notes (as ++ [.footnoteReference label])) bs) := by
  obtain ⟨hpre, hpost⟩ := h.apart hbody
  obtain ⟨hpre', hpost'⟩ := h'.apart hbody
  -- A definition behind a complete beginning is cut out of the main text, and comes to the other definitions in some
  -- order.
  have hmain : ∀ {as bs : List Event}, Complete as →
      mainText 0 (as ++ definition label body ++ bs) = mainText 0 (as ++ bs) := by
    intro as bs has
    rw [List.append_assoc, mainText_complete has, mainText_definition hbody, mainText_complete has]
  have hdefinitions : ∀ {as bs : List Event}, Complete as →
      (definitions (as ++ definition label body ++ bs)).Perm ((label, body) :: definitions (as ++ bs)) := by
    intro as bs has
    rw [List.append_assoc, definitions_complete has, definitions_definition hbody, definitions_complete has]
    exact List.perm_middle
  intro es notes m footnote
  refine ⟨?_, hmain hpre, ?_, ?_⟩
  · refine write_of_perm hlabels ?_ ?_ text
    · exact (hdefinitions hpre).trans (hrest ▸ (hdefinitions hpre').symm)
    · rw [hmain hpre, hmain hpre', hrest]
  · have hown : mainText 0 (pre ++ definition label body ++ []) = mainText 0 (pre ++ []) := hmain hpre
    rw [List.append_nil, List.append_nil] at hown
    rw [hown]
  · intro as bs hsplit
    have hfound : notes.body? label = some footnote :=
      body?_of_mem hlabels ((hdefinitions hpre).mem_iff.2 List.mem_cons_self)
    rw [write, hsplit, ← List.singleton_append, ← List.append_assoc, emit_append, emit_append, emit, emit,
      chunk_footnoteReference, hfound, List.append_nil]

namespace Moved

/-- The first cell of a row, with a reference. -/
def before : List Event :=
  [.opened .tableRow, .opened .tableCell, .footnoteReference "n", .closed .tableCell]

/-- The second cell, and a listing up to its text. -/
def between : List Event :=
  [.opened .tableCell, .text "b", .closed .tableCell, .closed .tableRow, .opened (.codeBlock .indented), .text "c"]

def behind : List Event :=
  [.text "\n", .closed .codeBlock, .footnoteReference "n"]

def body : List Event :=
  [.opened .paragraph, .text "50%", .closed .paragraph]

def page : String :=
  "\\footnote\x7b50\\%\x7d & b \\\\\n" ++
    "\\begin\x7bverbatim\x7d\nc\n\\end\x7bverbatim\x7d\n\n\\footnote\x7b50\\%\x7d"

/-- A definition between the cells of a row may as well stand inside of a listing. -/
theorem write_moved :
    write "" (before ++ definition "n" body ++ (between ++ behind)) = page ∧
      write "" (before ++ between ++ definition "n" body ++ behind) = page := by
  have hbody : ∀ e ∈ body, e.isMark = false := by decide
  have hbefore : Complete before := .of_plain (by decide)
  have hbetween : Complete between := .of_plain (by decide)
  have hbehind : Complete behind := .of_plain (by decide)
  have hdefinition : Complete (definition "n" body) :=
    List.append_nil (definition "n" body) ▸ .definition hbody .nil
  have hdefinitions : definitions (before ++ definition "n" body ++ (between ++ behind)) = [("n", body)] := by
    simp [before, between, behind, body, definition, definitions, definitionBody]
  have hpage : write "" (before ++ definition "n" body ++ (between ++ behind)) = page := by
    rw [write, footnotes, hdefinitions]
    decide
  have hmoved := write_placement hbody ((hbefore.append hdefinition).append (hbetween.append hbehind))
    (((hbefore.append hbetween).append hdefinition).append hbehind) (List.append_assoc ..).symm
    (by rw [hdefinitions]; decide) ""
  exact ⟨hpage, hmoved.1 ▸ hpage⟩

end Moved

end Latex
end Folio

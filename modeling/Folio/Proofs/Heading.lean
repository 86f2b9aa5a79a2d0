import Mathlib
import Folio.Content
import Folio.Proofs.Markdown.Nesting

/-!
# Folio.Proofs.Heading

The words of a title.

* `Text.words`: what stands between the blanks of a text. `Text.words_append` and `Text.words_glued` say what becomes of
  the words of two texts that are written without anything between them.
* `joined`: the texts and codes of a heading, one after the other, with something in place of each break.
* `firstHeading_words`: the title has the words of the heading if at no break two words stand side by side.
* `Underlined`: a heading of two lines of which the title makes one word.
-/

namespace Folio

/-! ### Words -/

namespace Text

/-- The words of a text: what stands between its blanks. -/
def words (text : List Char) : List (List Char) :=
  (text.splitOnP isBlank).filter (!·.isEmpty)

/-- The end of the one text and the beginning of the other belong to one word. -/
def Glued (a b : List Char) : Prop :=
  (∃ x c, a = x ++ [c] ∧ isBlank c = false) ∧ ∃ d y, b = d :: y ∧ isBlank d = false

@[simp] theorem words_nil : words [] = [] := by
  simp [words, List.splitOnP_nil]

theorem words_append_cons {c : Char} (h : isBlank c = true) (a b : List Char) :
    words (a ++ c :: b) = words a ++ words b := by
  rw [words, List.splitOnP_append_cons a b h, List.filter_append]
  rfl

theorem words_cons {c : Char} (h : isBlank c = true) (text : List Char) : words (c :: text) = words text :=
  words_append_cons h [] text

theorem words_blanks_append {blanks : List Char} (h : ∀ c ∈ blanks, isBlank c = true) (text : List Char) :
    words (blanks ++ text) = words text := by
  induction blanks with
  | nil => rfl
  | cons c cs ih =>
    rw [List.cons_append, words_cons (h c List.mem_cons_self), ih fun d hd => h d (List.mem_cons_of_mem c hd)]

theorem words_append_blanks (text : List Char) {blanks : List Char} (h : ∀ c ∈ blanks, isBlank c = true) :
    words (text ++ blanks) = words text := by
  cases blanks with
  | nil => rw [List.append_nil]
  | cons c cs =>
    have hcs := words_blanks_append (fun d hd => h d (List.mem_cons_of_mem c hd)) []
    rw [List.append_nil, words_nil] at hcs
    rw [words_append_cons (h c List.mem_cons_self), hcs, List.append_nil]

theorem words_trimStart (text : List Char) : words (trimStart text) = words text := by
  have hblanks : ∀ c ∈ text.takeWhile isBlank, isBlank c = true := fun c hc => List.mem_takeWhile_imp hc
  rw [trimStart, ← words_blanks_append hblanks (text.dropWhile isBlank), List.takeWhile_append_dropWhile]

theorem words_trimEnd (text : List Char) : words (trimEnd text) = words text := by
  have hblanks : ∀ c ∈ (text.reverse.takeWhile isBlank).reverse, isBlank c = true :=
    fun c hc => List.mem_takeWhile_imp (List.mem_reverse.1 hc)
  rw [trimEnd, ← words_append_blanks (text.reverse.dropWhile isBlank).reverse hblanks, ← List.reverse_append,
    List.takeWhile_append_dropWhile, List.reverse_reverse]

theorem words_trim (text : List Char) : words (trim text) = words text := by
  rw [trim, words_trimEnd, words_trimStart]

theorem trim_ne_nil {text : List Char} {c : Char} (hc : c ∈ text) (hblank : isBlank c = false) : trim text ≠ [] := by
  intro hnil
  have hend : ∀ d ∈ (trimStart text).reverse, isBlank d = true := List.dropWhile_eq_nil_iff.1 (List.reverse_eq_nil_iff.1 hnil)
  rw [← List.takeWhile_append_dropWhile (p := isBlank) (l := text), List.mem_append] at hc
  have hall : isBlank c = true := hc.elim List.mem_takeWhile_imp fun h => hend c (List.mem_reverse.2 h)
  rw [hblank] at hall
  cases hall

/-- At the seam of two texts, the last part of the one and the first part of the other are one part. -/
theorem splitOnP_append {a b w v : List Char} {init rest : List (List Char)} (ha : a.splitOnP isBlank = init ++ [w])
    (hb : b.splitOnP isBlank = v :: rest) : (a ++ b).splitOnP isBlank = init ++ (w ++ v) :: rest := by
  -- The character in front starts the part at the seam only if no part comes before that one (`init = []`).
  induction a generalizing init w with
  | nil =>
    have hnil : ([] : List (List Char)) ++ [[]] = init ++ [w] := List.splitOnP_nil.symm.trans ha
    obtain ⟨rfl, hw⟩ := List.append_inj' hnil rfl
    cases hw
    exact hb
  | cons c a ih =>
    obtain ⟨first, more, hfirst⟩ := List.exists_cons_of_ne_nil (List.splitOnP_ne_nil isBlank a)
    rw [List.splitOnP_cons_eq_if_modifyHead] at ha
    rw [List.cons_append, List.splitOnP_cons_eq_if_modifyHead]
    by_cases hc : isBlank c = true
    · rw [if_pos hc] at ha ⊢
      cases init with
      | nil =>
        rw [hfirst] at ha
        cases ha
      | cons part init =>
        obtain ⟨rfl, hrest⟩ := List.cons.inj ha
        rw [ih hrest, List.cons_append]
    · rw [if_neg hc, hfirst, List.modifyHead_cons] at ha
      rw [if_neg hc]
      cases init with
      | nil =>
        cases ha
        rw [@ih first [] hfirst]
        rfl
      | cons part init =>
        cases ha
        rw [@ih w (first :: init) hfirst]
        rfl

/-- Side by side, two texts keep their words unless the last one of the first text is glued to the next one. -/
theorem words_append {a b : List Char} (h : ¬ Glued a b) : words (a ++ b) = words a ++ words b := by
  obtain rfl | ⟨x, c, rfl⟩ := List.eq_nil_or_concat a
  · rw [words_nil]
    rfl
  · rw [List.concat_eq_append] at h ⊢
    cases b with
    | nil => rw [List.append_nil, words_nil, List.append_nil]
    | cons d y =>
      cases hc : isBlank c with
      | true =>
        have hend := words_append_cons hc x []
        rw [words_nil, List.append_nil] at hend
        rw [List.append_assoc, List.singleton_append, words_append_cons hc, hend]
      | false =>
        cases hd : isBlank d with
        | true => rw [words_append_cons hd, words_cons hd]
        | false => exact absurd ⟨⟨x, c, rfl, hc⟩, d, y, rfl, hd⟩ h

theorem words_glued {a b : List Char} (h : Glued a b) :
    ∃ before w v behind, words a = before ++ [w] ∧ words b = v :: behind ∧
      words (a ++ b) = before ++ (w ++ v) :: behind := by
  obtain ⟨⟨x, c, rfl, hc⟩, d, y, rfl, hd⟩ := h
  obtain ⟨init, w, hx⟩ := List.eq_nil_or_concat (x.splitOnP isBlank) |>.resolve_left (List.splitOnP_ne_nil isBlank x)
  obtain ⟨v, rest, hy⟩ := List.exists_cons_of_ne_nil (List.splitOnP_ne_nil isBlank y)
  have hlast : ([c] : List Char).splitOnP isBlank = [[c]] := List.splitOnP_eq_singleton (by simp [hc])
  have ha : (x ++ [c]).splitOnP isBlank = init ++ [w ++ [c]] :=
    splitOnP_append (hx.trans (List.concat_eq_append ..)) hlast
  have hb : (d :: y).splitOnP isBlank = (d :: v) :: rest := by
    rw [List.splitOnP_cons_eq_if_modifyHead, hd, if_neg Bool.false_ne_true, hy, List.modifyHead_cons]
  refine ⟨init.filter (!·.isEmpty), w ++ [c], d :: v, rest.filter (!·.isEmpty), ?_, ?_, ?_⟩
  · simp [words, ha]
  · simp [words, hb]
  · rw [words, splitOnP_append ha hb]
    simp

theorem length_words_append_le (a b : List Char) :
    (words (a ++ b)).length ≤ (words a).length + (words b).length := by
  by_cases h : Glued a b
  · obtain ⟨before, w, v, behind, ha, hb, hab⟩ := words_glued h
    rw [ha, hb, hab]
    simp only [List.length_append, List.length_cons, List.length_nil]
    omega
  · rw [words_append h, List.length_append]

theorem length_words_glued {a b : List Char} (h : Glued a b) :
    (words (a ++ b)).length < (words a).length + (words b).length := by
  obtain ⟨before, w, v, behind, ha, hb, hab⟩ := words_glued h
  rw [ha, hb, hab]
  simp only [List.length_append, List.length_cons, List.length_nil]
  omega

theorem Glued.of_prefix {a b : List Char} (h : Glued a b) (before : List Char) : Glued (before ++ a) b := by
  obtain ⟨⟨x, c, rfl, hc⟩, hb⟩ := h
  exact ⟨⟨before ++ x, c, (List.append_assoc ..).symm, hc⟩, hb⟩

end Text

/-! ### Headings -/

namespace Markdown

namespace Event

def isBreak : Event → Bool
  | .softBreak => true
  | .hardBreak => true
  | _ => false

/-- Whether an event is a part of the text of a heading. -/
def isTitlePart : Event → Bool
  | .text _ => true
  | .code _ => true
  | .opened tag => tag.toEnd.isInline
  | .closed tag => tag.isInline
  | e => e.isBreak

/-- The text of an event, with `gap` in place of a break. -/
def spelled (gap : List Char) : Event → List Char
  | .text s => s.toList
  | .code s => s.toList
  | .softBreak => gap
  | .hardBreak => gap
  | _ => []

end Event

/-- The texts and codes of some events, one after the other, with `gap` in place of each break. -/
def joined (gap : List Char) (es : List Event) : List Char :=
  es.flatMap (·.spelled gap)

theorem joined_append (gap : List Char) (es fs : List Event) : joined gap (es ++ fs) = joined gap es ++ joined gap fs :=
  List.flatMap_append

theorem joined_cons (gap : List Char) (e : Event) (es : List Event) : joined gap (e :: es) = e.spelled gap ++ joined gap es :=
  List.flatMap_cons

theorem Event.spelled_break {e : Event} (h : e.isBreak = true) (gap : List Char) : e.spelled gap = gap := by
  cases e <;> first | rfl | cases h

theorem Event.spelled_of_not_break {e : Event} (h : e.isBreak = false) (gap gap' : List Char) :
    e.spelled gap = e.spelled gap' := by
  cases e <;> first | rfl | cases h

end Markdown

open Markdown

theorem afterHeadingStart_append {pre : List Event} (h : ∀ level, .opened (.heading level) ∉ pre) (level : HeadingLevel)
    (es : List Event) : afterHeadingStart? (pre ++ .opened (.heading level) :: es) = some es := by
  induction pre with
  | nil => rfl
  | cons e pre ih =>
    have hpre := ih fun level hmem => h level (List.mem_cons_of_mem e hmem)
    rw [List.cons_append, afterHeadingStart?, hpre]
    rintro level rfl
    exact h level List.mem_cons_self

/-- The text of a heading ends where the heading ends. -/
theorem headingText_append {content : List Event} (h : ∀ e ∈ content, e.isTitlePart = true) (level : HeadingLevel)
    (post : List Event) : headingText (content ++ .closed (.heading level) :: post) = joined [] content := by
  induction content with
  | nil => rfl
  | cons e es ih =>
    have he := h e List.mem_cons_self
    have hes := ih fun e' he' => h e' (List.mem_cons_of_mem e he')
    rw [List.cons_append, joined_cons, ← hes]
    cases e with
    | text text => rfl
    | code text => rfl
    | closed tag =>
      rw [headingText]
      · rfl
      · rintro level ⟨⟩
        cases he
      · simp
      · simp
    | opened tag => rfl
    | softBreak => rfl
    | hardBreak => rfl
    | _ => cases he

/-- Without the breaks, a text has no more words than with blanks for them. -/
theorem length_words_joined_le (before : List Char) (es : List Event) :
    (Text.words (before ++ joined [] es)).length ≤ (Text.words (before ++ joined [' '] es)).length := by
  induction es generalizing before with
  | nil => exact Nat.le_refl _
  | cons e es ih =>
    rw [joined_cons, joined_cons]
    cases he : e.isBreak with
    | true =>
      rw [Event.spelled_break he, Event.spelled_break he, List.nil_append, List.singleton_append,
        Text.words_append_cons rfl, List.length_append]
      have hrest := ih []
      rw [List.nil_append, List.nil_append] at hrest
      have hseam := Text.length_words_append_le before (joined [] es)
      omega
    | false =>
      rw [Event.spelled_of_not_break he [' '] [], ← List.append_assoc, ← List.append_assoc]
      exact ih _

/-- Two words stand side by side at a break. -/
def GluedAtBreak (es : List Event) : Prop :=
  ∃ as e bs, es = as ++ e :: bs ∧ e.isBreak = true ∧ Text.Glued (joined [] as) (joined [] bs)

/-- Where no words stand side by side, breaks need not be kept. The text `before` stands before the events. -/
theorem words_joined (before : List Char) {es : List Event}
    (h : ∀ as e bs, es = as ++ e :: bs → e.isBreak = true → ¬ Text.Glued (before ++ joined [] as) (joined [] bs)) :
    Text.words (before ++ joined [] es) = Text.words (before ++ joined [' '] es) := by
  induction es generalizing before with
  | nil => rfl
  | cons e es ih =>
    rw [joined_cons, joined_cons]
    cases he : e.isBreak with
    | true =>
      have hhere := h [] e es rfl he
      rw [joined, List.flatMap_nil, List.append_nil] at hhere
      have hrest := ih [] fun as e' bs hes he' hglued => by
        have hmore := h (e :: as) e' bs (by rw [hes, List.cons_append]) he'
        rw [joined_cons, Event.spelled_break he] at hmore
        exact hmore (hglued.of_prefix before)
      rw [List.nil_append, List.nil_append] at hrest
      rw [Event.spelled_break he, Event.spelled_break he, List.nil_append, List.singleton_append,
        Text.words_append_cons rfl, Text.words_append hhere, hrest]
    | false =>
      rw [Event.spelled_of_not_break he [' '] [], ← List.append_assoc, ← List.append_assoc]
      refine ih _ fun as e' bs hes he' => ?_
      have hmore := h (e :: as) e' bs (by rw [hes, List.cons_append]) he'
      rwa [joined_cons, ← List.append_assoc] at hmore

theorem words_joined_iff (es : List Event) :
    Text.words (joined [] es) = Text.words (joined [' '] es) ↔ ¬ GluedAtBreak es := by
  constructor
  · rintro h ⟨as, e, bs, rfl, he, hglued⟩
    have hseam := Text.length_words_glued hglued
    have hleft := length_words_joined_le [] as
    have hright := length_words_joined_le [] bs
    rw [joined_append, joined_append, joined_cons, joined_cons, Event.spelled_break he, Event.spelled_break he,
      List.nil_append, List.singleton_append, Text.words_append_cons rfl] at h
    have hlength := congrArg List.length h
    rw [List.length_append] at hlength
    simp only [List.nil_append] at hleft hright
    omega
  · intro h
    exact words_joined [] fun as e bs hes he hglued => h ⟨as, e, bs, hes, he, hglued⟩

/-- The title has the words of the texts and codes of the first heading, written one after the other, whatever stands
before the heading or behind it. With blanks for the breaks, these are the words of the heading exactly if no two words
stand side by side at a break. -/
theorem firstHeading_words {pre content post : List Event} {level level' : HeadingLevel}
    (hpre : ∀ level, .opened (.heading level) ∉ pre) (hcontent : ∀ e ∈ content, e.isTitlePart = true)
    (htext : ∃ c ∈ joined [] content, Text.isBlank c = false) :
    ∃ title,
      firstHeading? (pre ++ .opened (.heading level) :: (content ++ .closed (.heading level') :: post)) = some title ∧
      Text.words title.toList = Text.words (joined [] content) ∧
      (Text.words title.toList = Text.words (joined [' '] content) ↔ ¬ GluedAtBreak content) := by
  have hheading := headingText_append hcontent level' post
  obtain ⟨c, hc, hblank⟩ := htext
  have hne := Text.trim_ne_nil hc hblank
  refine ⟨String.ofList (Text.trim (joined [] content)), ?_, ?_, ?_⟩
  · rw [firstHeading?, afterHeadingStart_append hpre]
    dsimp only
    rw [hheading]
    split
    · next hnil => exact absurd hnil hne
    · rfl
  · rw [String.toList_ofList, Text.words_trim]
  · rw [String.toList_ofList, Text.words_trim]
    exact words_joined_iff content

namespace Underlined

/-- A heading of two lines. -/
def document : String :=
  "Foo\nbar\n===\n"

def content : List Event :=
  [.text "Foo", .softBreak, .text "bar"]

/-- The break is gone, and the title has one word where the heading has two. -/
theorem words_lost :
    events document = .opened (.heading .one) :: (content ++ [.closed (.heading .one)]) ∧
      firstHeading? (events document) = some "Foobar" ∧
      Text.words (joined [' '] content) = ["Foo".toList, "bar".toList] ∧
      Text.words "Foobar".toList = ["Foobar".toList] := by
  have hevents : events document = .opened (.heading .one) :: (content ++ [.closed (.heading .one)]) := by cbv
  refine ⟨hevents, ?_, by cbv, by cbv⟩
  rw [hevents]
  cbv

end Underlined

namespace Emphasized

/-- A blank ends the first line, and a blank begins what stands behind the hard break. -/
def content : List Event :=
  [.text "One ", .opened .emphasis, .code "two", .text " ", .softBreak, .text "three", .closed .emphasis, .hardBreak,
    .text " four"]

/-- A paragraph before the heading, and another heading behind it. -/
def before : List Event :=
  [.opened .paragraph, .text "zero", .closed .paragraph]

def behind : List Event :=
  [.opened (.heading .two), .text "five", .closed (.heading .two)]

theorem words_kept :
    ∃ title,
      firstHeading? (before ++ .opened (.heading .one) :: (content ++ .closed (.heading .one) :: behind)) = some title ∧
      Text.words title.toList = Text.words (joined [] content) ∧
      (Text.words title.toList = Text.words (joined [' '] content) ↔ ¬ GluedAtBreak content) :=
  firstHeading_words (by simp [before]) (by decide) ⟨'O', by decide, by decide⟩

end Emphasized

end Folio

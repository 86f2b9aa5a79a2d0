import Folio.Latex.Footnote
import Folio.Proofs.Markdown.Nesting

/-!
# Folio.Proofs.Latex.Footnote

Footnote definitions in properly nested streams.

* `definitions_append`, `mainText_append`: a nested piece of a stream is taken apart on its own.
* `nested_of_mem_definitions`, `subset_of_mem_definitions`: the body of a definition is a nested stream without definitions,
  made of events of the stream.
* `nested_mainText`: so is what is left without the definitions.
-/

namespace Folio
namespace Latex

open Markdown

theorem definitionBody_append {body : List Event} (h : ∀ e ∈ body, e ≠ .closed .footnoteDefinition)
    (es : List Event) : definitionBody (body ++ .closed .footnoteDefinition :: es) = (body, es) := by
  induction body with
  | nil => rfl
  | cons e body ih =>
    have he : e ≠ .closed .footnoteDefinition := h e List.mem_cons_self
    have hbody := ih fun e' he' => h e' (List.mem_cons_of_mem e he')
    rw [List.cons_append, definitionBody, hbody]
    exact he

theorem definitions_cons {e : Event} (h : ∀ label, e ≠ .opened (.footnoteDefinition label)) (es : List Event) :
    definitions (e :: es) = definitions es := by
  rw [definitions.eq_def]
  split
  · cases ‹_ = []›
  · next heq =>
    cases heq
    exact absurd rfl (h _)
  · next heq => cases heq; rfl

theorem mainText_cons {e : Event}
    (h : (∀ label, e ≠ .opened (.footnoteDefinition label)) ∧ e ≠ .closed .footnoteDefinition) (es : List Event) :
    mainText 0 (e :: es) = e :: mainText 0 es := by
  rw [mainText]
  · exact h.1
  · exact h.2

theorem mainText_texts (texts : List String) (es : List Event) :
    mainText 0 (texts.map .text ++ es) = texts.map .text ++ mainText 0 es := by
  induction texts with
  | nil => rfl
  | cons text texts ih => rw [List.map_cons, List.cons_append, mainText_cons (by simp), ih, List.cons_append]

/-- What stands inside of a definition is no main text. -/
theorem mainText_inside {notes : Notes} {es : List Event} (h : Nested notes es) :
    ∀ (depth : Nat) (rest : List Event), mainText (depth + 1) (es ++ rest) = mainText (depth + 1) rest := by
  induction h with
  | nil => intro depth rest; rfl
  | @leaf notes e es he _ ih =>
    intro depth rest
    cases e <;> first | exact ih depth rest | cases he
  | @code notes kind texts es _ ih =>
    intro depth rest
    have htexts : ∀ more, mainText (depth + 1) (texts.map .text ++ more) = mainText (depth + 1) more := by
      intro more
      induction texts with
      | nil => rfl
      | cons text texts ih => exact ih
    simp only [List.cons_append, List.append_assoc]
    rw [mainText, htexts, mainText, ih depth rest]
    all_goals simp
  | @note notes inner label body es _ _ _ ihbody ih =>
    intro depth rest
    simp only [List.cons_append, List.append_assoc]
    rw [mainText, ihbody (depth + 1), mainText]
    exact ih depth rest
  | @group notes tag body es htag _ _ ihbody ih =>
    intro depth rest
    simp only [List.cons_append, List.append_assoc]
    have hopen : ∀ more, mainText (depth + 1) (.opened tag :: more) = mainText (depth + 1) more := by
      cases tag <;> first | exact fun _ => rfl | cases htag
    have hclose : ∀ more, mainText (depth + 1) (.closed tag.toEnd :: more) = mainText (depth + 1) more := by
      cases tag <;> first | exact fun _ => rfl | cases htag
    rw [hopen, ihbody depth, hclose, ih depth rest]

theorem mainText_append {notes : Notes} {es : List Event} (h : Nested notes es) :
    ∀ rest, mainText 0 (es ++ rest) = mainText 0 es ++ mainText 0 rest := by
  induction h with
  | nil => exact fun _ => rfl
  | @leaf notes e es he _ ih =>
    intro rest
    have hplain := Event.leaf_plain he
    rw [List.cons_append, mainText_cons hplain, mainText_cons hplain, ih, List.cons_append]
  | @code notes kind texts es _ ih =>
    intro rest
    simp only [List.cons_append, List.append_assoc]
    rw [mainText_cons (by simp), mainText_cons (by simp), mainText_texts, mainText_texts, mainText_cons (by simp),
      mainText_cons (by simp), ih]
    simp
  | @note notes inner label body es _ hbody _ _ ih =>
    intro rest
    simp only [List.cons_append, List.append_assoc]
    rw [mainText, mainText_inside hbody, mainText, mainText, mainText_inside hbody, mainText]
    exact ih rest
  | @group notes tag body es htag _ _ ihbody ih =>
    intro rest
    have hopen := Tag.opened_plain htag
    have hclose := Tag.closed_plain htag
    simp only [List.cons_append, List.append_assoc]
    rw [mainText_cons hopen, mainText_cons hopen, ihbody, ihbody, mainText_cons hclose, mainText_cons hclose, ih]
    simp

/-- What is left of a nested stream without its footnote definitions. -/
theorem nested_mainText {notes : Notes} {es : List Event} (h : Nested notes es) :
    Nested .absent (mainText 0 es) := by
  induction h with
  | nil => exact .nil
  | @leaf notes e es he _ ih =>
    have hplain := Event.leaf_plain he
    rw [mainText_cons hplain]
    exact .leaf he ih
  | @code notes kind texts es _ ih =>
    rw [mainText_cons (by simp), mainText_texts, mainText_cons (by simp)]
    exact .code ih
  | @note notes inner label body es _ hbody _ _ ih =>
    rw [mainText, mainText_inside hbody, mainText]
    exact ih
  | @group notes tag body es htag hbody _ ihbody ih =>
    rw [mainText_cons (Tag.opened_plain htag), mainText_append hbody, mainText_cons (Tag.closed_plain htag)]
    exact .group htag ihbody ih

/-! ### Definitions -/

theorem definitions_note {label : String} {body : List Event} (h : ∀ e ∈ body, e ≠ .closed .footnoteDefinition)
    (es : List Event) :
    definitions (.opened (.footnoteDefinition label) :: (body ++ .closed .footnoteDefinition :: es)) =
      (label, body) :: definitions es := by
  rw [definitions, definitionBody_append h]

theorem definitions_texts (texts : List String) (es : List Event) :
    definitions (texts.map .text ++ es) = definitions es := by
  induction texts with
  | nil => rfl
  | cons text texts ih => rw [List.map_cons, List.cons_append, definitions_cons (by simp), ih]

theorem definitions_append {es : List Event} (h : Nested .apart es) :
    ∀ rest, definitions (es ++ rest) = definitions es ++ definitions rest := by
  generalize hnotes : Notes.apart = notes at h
  induction h with
  | nil => intro rest; simp [definitions]
  | leaf he _ ih =>
    intro rest
    have hplain := (Event.leaf_plain he).1
    rw [List.cons_append, definitions_cons hplain, definitions_cons hplain, ih hnotes]
  | code _ ih =>
    intro rest
    simp only [List.cons_append, List.append_assoc]
    rw [definitions_cons (by simp), definitions_cons (by simp), definitions_texts, definitions_texts,
      definitions_cons (by simp), definitions_cons (by simp), ih hnotes]
  | note hin hbody _ _ ih =>
    intro rest
    subst hnotes
    cases hin
    have hends := fun e he => (hbody.no_note e he).2
    simp only [List.cons_append, List.append_assoc]
    rw [definitions_note hends, definitions_note hends, ih rfl, List.cons_append]
  | group htag _ _ ihbody ih =>
    intro rest
    have hopen := (Tag.opened_plain htag).1
    have hclose := (Tag.closed_plain htag).1
    simp only [List.cons_append, List.append_assoc]
    rw [definitions_cons hopen, definitions_cons hopen, ihbody hnotes, ihbody hnotes, definitions_cons hclose,
      definitions_cons hclose, ih hnotes, List.append_assoc]

/-- The body of a footnote definition is a nested stream without definitions. -/
theorem nested_of_mem_definitions {es : List Event} (h : Nested .apart es) :
    ∀ p ∈ definitions es, Nested .absent p.2 := by
  generalize hnotes : Notes.apart = notes at h
  induction h with
  | nil => intro p hp; simp [definitions] at hp
  | leaf he _ ih =>
    intro p hp
    rw [definitions_cons (Event.leaf_plain he).1] at hp
    exact ih hnotes p hp
  | code _ ih =>
    intro p hp
    rw [definitions_cons (by simp), definitions_texts, definitions_cons (by simp)] at hp
    exact ih hnotes p hp
  | note hin hbody _ _ ih =>
    subst hnotes
    cases hin
    intro p hp
    rw [definitions_note fun e he => (hbody.no_note e he).2, List.mem_cons] at hp
    obtain rfl | hp := hp
    · exact hbody
    · exact ih rfl p hp
  | group htag hbody _ ihbody ih =>
    subst hnotes
    intro p hp
    rw [definitions_cons (Tag.opened_plain htag).1, definitions_append hbody,
      definitions_cons (Tag.closed_plain htag).1, List.mem_append] at hp
    obtain hp | hp := hp
    · exact ihbody rfl p hp
    · exact ih rfl p hp

theorem subset_definitionBody (es : List Event) : (definitionBody es).1 ⊆ es ∧ (definitionBody es).2 ⊆ es := by
  fun_induction definitionBody es with
  | case1 => simp
  | case2 es => simp
  | case3 e es _ ih => exact ⟨List.cons_subset_cons e ih.1, List.subset_cons_of_subset e ih.2⟩

/-- The body of a footnote definition is made of events of the stream. -/
theorem subset_of_mem_definitions {es : List Event} : ∀ p ∈ definitions es, p.2 ⊆ es := by
  fun_induction definitions es with
  | case1 => simp
  | case2 label es ih =>
    obtain ⟨hbody, hbehind⟩ := subset_definitionBody es
    exact List.forall_mem_cons.2 ⟨List.subset_cons_of_subset _ hbody,
      fun p hp => List.subset_cons_of_subset _ (List.Subset.trans (ih p hp) hbehind)⟩
  | case3 e es _ ih => exact fun p hp => List.subset_cons_of_subset e (ih p hp)

theorem subset_mainText (depth : Nat) (es : List Event) : mainText depth es ⊆ es := by
  fun_induction mainText depth es with
  | case1 => simp
  | case2 depth label es ih => exact List.subset_cons_of_subset _ ih
  | case3 depth es ih => exact List.subset_cons_of_subset _ ih
  | case4 e es _ _ ih => exact List.cons_subset_cons e ih
  | case5 e es depth _ _ ih => exact List.subset_cons_of_subset _ ih

end Latex
end Folio

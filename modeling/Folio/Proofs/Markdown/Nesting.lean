import Folio.Markdown.Event

/-!
# Folio.Proofs.Markdown.Nesting

Streams of events in which each construct is closed by its own end.

* `Notes`: where footnote definitions may stand in a stream.
* `Nested`: the properly nested streams. A code block holds text only.
-/

namespace Folio
namespace Markdown

/-- Where footnote definitions may stand: nowhere, anywhere but inside of each other, or anywhere. -/
inductive Notes where
  | absent
  | apart
  | anywhere
  deriving DecidableEq, Repr

/-- Where footnote definitions may stand inside of one, if one may stand at all. -/
def Notes.inside? : Notes → Option Notes
  | .absent => none
  | .apart => some .absent
  | .anywhere => some .anywhere

/-- Whether an event stands for itself, neither opening nor closing a construct. -/
def Event.isLeaf : Event → Bool
  | .opened _ => false
  | .closed _ => false
  | _ => true

/-- Whether a construct may hold anything. Code blocks and footnote definitions have rules of their own. -/
def Tag.isPlain : Tag → Bool
  | .codeBlock _ => false
  | .footnoteDefinition _ => false
  | _ => true

/-- Whether a construct stands inside of a line of text. -/
def TagEnd.isInline : TagEnd → Bool
  | .emphasis | .strong | .strikethrough | .superscript | .link | .image => true
  | _ => false

theorem Event.leaf_plain {e : Event} (h : e.isLeaf = true) :
    (∀ label, e ≠ .opened (.footnoteDefinition label)) ∧ e ≠ .closed .footnoteDefinition := by
  constructor <;> intros <;> rintro rfl <;> cases h

theorem Tag.opened_plain {tag : Tag} (h : tag.isPlain = true) :
    (∀ label, Event.opened tag ≠ .opened (.footnoteDefinition label)) ∧
      Event.opened tag ≠ .closed .footnoteDefinition := by
  constructor
  · rintro label heq
    cases heq
    cases h
  · intro heq
    cases heq

theorem Tag.closed_plain {tag : Tag} (h : tag.isPlain = true) :
    (∀ label, Event.closed tag.toEnd ≠ .opened (.footnoteDefinition label)) ∧
      Event.closed tag.toEnd ≠ .closed .footnoteDefinition := by
  constructor
  · rintro label heq
    cases heq
  · intro heq
    cases tag <;> first | cases h; done | cases heq

/-- The properly nested streams. -/
inductive Nested : Notes → List Event → Prop where
  | nil {notes : Notes} : Nested notes []
  | leaf {notes : Notes} {e : Event} {es : List Event} : e.isLeaf = true → Nested notes es → Nested notes (e :: es)
  | code {notes : Notes} {kind : CodeKind} {texts : List String} {es : List Event} :
      Nested notes es →
      Nested notes (.opened (.codeBlock kind) :: (texts.map .text ++ .closed .codeBlock :: es))
  | note {notes inner : Notes} {label : String} {body es : List Event} :
      notes.inside? = some inner → Nested inner body → Nested notes es →
      Nested notes (.opened (.footnoteDefinition label) :: (body ++ .closed .footnoteDefinition :: es))
  | group {notes : Notes} {tag : Tag} {body es : List Event} :
      tag.isPlain = true → Nested notes body → Nested notes es →
      Nested notes (.opened tag :: (body ++ .closed tag.toEnd :: es))

namespace Nested

theorem append {notes : Notes} {es fs : List Event} (h : Nested notes es) (h' : Nested notes fs) :
    Nested notes (es ++ fs) := by
  induction h with
  | nil => exact h'
  | leaf he _ ih => exact .leaf he (ih h')
  | code _ ih =>
    rw [List.cons_append, List.append_assoc, List.cons_append]
    exact .code (ih h')
  | note hin hbody _ _ ih =>
    rw [List.cons_append, List.append_assoc, List.cons_append]
    exact .note hin hbody (ih h')
  | group htag hbody _ _ ih =>
    rw [List.cons_append, List.append_assoc, List.cons_append]
    exact .group htag hbody (ih h')

theorem no_note {es : List Event} (h : Nested .absent es) :
    ∀ e ∈ es, (∀ label, e ≠ .opened (.footnoteDefinition label)) ∧ e ≠ .closed .footnoteDefinition := by
  generalize hnotes : Notes.absent = notes at h
  induction h with
  | nil => simp
  | @leaf notes e es he _ ih =>
    intro e' he'
    rw [List.mem_cons] at he'
    obtain rfl | he' := he'
    · exact Event.leaf_plain he
    · exact ih hnotes e' he'
  | @code notes kind texts es _ ih =>
    intro e he
    simp only [List.mem_cons, List.mem_append, List.mem_map] at he
    obtain rfl | ⟨text, -, rfl⟩ | rfl | he := he
    · simp
    · simp
    · simp
    · exact ih hnotes e he
  | @note notes inner label body es hin _ _ _ _ =>
    subst hnotes
    cases hin
  | @group notes tag body es htag _ _ ihbody ih =>
    intro e he
    simp only [List.mem_cons, List.mem_append] at he
    obtain rfl | he | rfl | he := he
    · exact Tag.opened_plain htag
    · exact ihbody hnotes e he
    · exact Tag.closed_plain htag
    · exact ih hnotes e he

end Nested

end Markdown
end Folio

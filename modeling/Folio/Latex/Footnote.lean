import Folio.Markdown.Event

/-!
# Folio.Latex.Footnote

Footnote definitions in a stream of events.

* `definitions`: the labels with the events of their definitions. A definition lasts up to the next end of a
  definition.
* `mainText`: the events outside all definitions.
-/

namespace Folio
namespace Latex

open Markdown

/-- The events up to the next end of a definition, and those after it. -/
def definitionBody : List Event → List Event × List Event
  | [] => ([], [])
  | .closed .footnoteDefinition :: es => ([], es)
  | e :: es => (e :: (definitionBody es).1, (definitionBody es).2)

theorem length_definitionBody (es : List Event) : (definitionBody es).2.length ≤ es.length := by
  fun_induction definitionBody es with
  | case1 => simp
  | case2 => simp
  | case3 e es _ ih => exact Nat.le_succ_of_le ih

/-- The footnote definitions of a stream, each label with its events. -/
def definitions : List Event → List (String × List Event)
  | [] => []
  | .opened (.footnoteDefinition label) :: es =>
    (label, (definitionBody es).1) :: definitions (definitionBody es).2
  | _ :: es => definitions es
termination_by es => es.length
decreasing_by
  · exact Nat.lt_succ_of_le (length_definitionBody _)
  · simp

/-- The events outside definitions, where `depth` definitions are open at the start. -/
def mainText : Nat → List Event → List Event
  | _, [] => []
  | depth, .opened (.footnoteDefinition _) :: es => mainText (depth + 1) es
  | depth, .closed .footnoteDefinition :: es => mainText (depth - 1) es
  | 0, e :: es => e :: mainText 0 es
  | depth + 1, _ :: es => mainText (depth + 1) es

end Latex
end Folio

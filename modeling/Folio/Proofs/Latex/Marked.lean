import Folio.Proofs.Latex.Boundary

/-!
# Folio.Proofs.Latex.Marked

The text of a stream, each character with the event it is written for.

* `marked`, `markedFootnotes`: the texts of a stream and of its footnotes. The text of a footnote keeps its marks where
  it is referred to.
* `plain_marked`, `plain_markedFootnotes`: without the marks, these are the texts that are written.
-/

namespace Folio
namespace Latex

open Markdown

abbrev Marked :=
  List (Char × Event)

def mark (e : Event) (text : List Char) : Marked :=
  text.map fun c => (c, e)

def plain (out : Marked) : List Char :=
  out.map Prod.fst

/-- The bodies of footnotes by label, as texts with marks. -/
abbrev Bodies :=
  List (String × Marked)

def Bodies.body? (bodies : Bodies) : Event → Option Marked
  | .footnoteReference label => bodies.reverse.lookup label
  | _ => none

def Bodies.plain (bodies : Bodies) : Footnotes :=
  bodies.map fun p => (p.1, Latex.plain p.2)

/-- The text written for an event. The body of a footnote keeps its marks. -/
def markedChunk (bodies : Bodies) (m : Mode) (e : Event) : Marked :=
  match bodies.body? e with
  | some body => mark e "\\footnote\x7b".toList ++ body ++ mark e "\x7d".toList
  | none => mark e (chunk [] m e)

def marked (bodies : Bodies) (m : Mode) : List Event → Marked
  | [] => []
  | e :: es => markedChunk bodies m e ++ marked bodies (m.next e (plain (markedChunk bodies m e))) es

def trimMarked (out : Marked) : Marked :=
  out.rdropWhile fun p => Text.isBlank p.1

def markedFootnotes (es : List Event) : Bodies :=
  (definitions es).map fun p => (p.1, trimMarked (marked [] (Mode.after []) p.2))

@[simp] theorem mark_nil (e : Event) : mark e [] = [] :=
  rfl

@[simp] theorem mark_append (e : Event) (a b : List Char) : mark e (a ++ b) = mark e a ++ mark e b :=
  List.map_append

@[simp] theorem plain_append (a b : Marked) : plain (a ++ b) = plain a ++ plain b :=
  List.map_append

@[simp] theorem plain_mark (e : Event) (text : List Char) : plain (mark e text) = text := by
  rw [plain, mark, List.map_map]
  exact List.map_id text

theorem plain_trimMarked (out : Marked) : plain (trimMarked out) = Text.trimEnd (plain out) := by
  rw [plain, trimMarked, List.rdropWhile, Text.trimEnd, plain, ← List.map_reverse, List.dropWhile_map, List.map_reverse]
  rfl

theorem Bodies.body?_plain (bodies : Bodies) (label : String) :
    bodies.plain.body? label = (bodies.body? (.footnoteReference label)).map Latex.plain := by
  rw [Footnotes.body?, Bodies.plain, ← List.map_reverse, lookup_map]
  rfl

theorem plain_markedChunk (bodies : Bodies) (m : Mode) (e : Event) :
    plain (markedChunk bodies m e) = chunk bodies.plain m e := by
  rw [markedChunk]
  cases hbody : bodies.body? e with
  | some body =>
    cases e with
    | footnoteReference label =>
      rw [chunk_footnoteReference bodies.plain, Bodies.body?_plain, hbody]
      simp
    | _ => cases hbody
  | none =>
    rw [plain_mark]
    refine chunk_congr ?_ m
    rintro label rfl
    rw [Bodies.body?_plain, hbody]
    rfl

theorem Bodies.exists_label {bodies : Bodies} {e : Event} {body : Marked} (h : bodies.body? e = some body) :
    ∃ label, e = .footnoteReference label ∧ bodies.reverse.lookup label = some body := by
  cases e with
  | footnoteReference label => exact ⟨label, rfl, h⟩
  | _ => cases h

theorem markedChunk_text (bodies : Bodies) (m : Mode) (text : String) :
    markedChunk bodies m (.text text) = mark (.text text) (chunk [] m (.text text)) :=
  rfl

theorem plain_marked (bodies : Bodies) (m : Mode) (es : List Event) :
    plain (marked bodies m es) = emit bodies.plain m es := by
  induction es generalizing m with
  | nil => rfl
  | cons e es ih => rw [marked, plain_append, ih, plain_markedChunk, emit]

theorem plain_markedFootnotes (es : List Event) : (markedFootnotes es).plain = footnotes es := by
  rw [Bodies.plain, markedFootnotes, footnotes, List.map_map]
  refine List.map_congr_left fun p _ => ?_
  simp only [Function.comp_apply, plain_trimMarked, plain_marked]
  rfl

end Latex
end Folio

import Folio.Markdown.Document
import Folio.Proofs.Markdown.Nesting

/-!
# Folio.Proofs.Markdown.Events

The events of a document are properly nested.

* `nested_resolve`: emphasis wraps nested events, however its marks are matched.
* `Scan.Sound`: what holds of the pieces of a line while it is read; `Scan.Sound.step` is one step of the reader.
* `nested_events`: every construct of a document is closed by its own end, and a code block holds text only.
-/

namespace Folio
namespace Markdown

variable {notes : Notes}

theorem nested_leaf {e : Event} (he : e.isLeaf = true) : Nested notes [e] :=
  .leaf he .nil

theorem nested_wrap {tag : Tag} (htag : tag.isPlain = true) {es : List Event} (h : Nested notes es) :
    Nested notes (wrap tag es) :=
  .group htag h .nil

theorem nested_flatMap {α : Type} {f : α → List Event} {xs : List α} (h : ∀ x ∈ xs, Nested notes (f x)) :
    Nested notes (xs.flatMap f) := by
  induction xs with
  | nil => exact .nil
  | cons x xs ih =>
    obtain ⟨hx, hxs⟩ := List.forall_mem_cons.1 h
    exact hx.append (ih hxs)

/-! ### Emphasis -/

theorem nested_plainMarks (mark : Char) (n : Nat) : Nested notes (plainMarks mark n) := by
  rw [plainMarks]
  split
  · exact .nil
  · exact nested_leaf rfl

theorem emphasisTag_isPlain (mark : Char) (double : Bool) : (emphasisTag mark double).isPlain = true := by
  rw [emphasisTag]
  split
  · rfl
  · cases double <;> rfl

theorem nested_wrapMarks (mark : Char) (n : Nat) {es : List Event} (h : Nested notes es) :
    Nested notes (wrapMarks mark n es) := by
  fun_induction wrapMarks mark n es with
  | case1 => exact h
  | case2 => exact nested_wrap (emphasisTag_isPlain mark false) h
  | case3 es n ih => exact ih (nested_wrap (emphasisTag_isPlain mark true) h)

/-- A piece whose finished events are nested. -/
def Piece.Sound (notes : Notes) : Piece → Prop
  | .done es => Nested notes es
  | .run .. => True

/-- Pieces whose finished events are nested. -/
abbrev SoundPieces (notes : Notes) (pieces : List Piece) : Prop :=
  ∀ piece ∈ pieces, piece.Sound notes

namespace EmphasisState

/-- A state whose events are nested, between its open runs and before them. -/
structure Sound (notes : Notes) (s : EmphasisState) : Prop where
  runs : ∀ r ∈ s.runs, Nested notes r.content
  base : Nested notes s.base

theorem Sound.add {s : EmphasisState} (h : s.Sound notes) {es : List Event} (hes : Nested notes es) :
    (s.add es).Sound notes := by
  obtain ⟨runs, base⟩ := s
  cases runs with
  | nil => exact ⟨h.runs, h.base.append hes⟩
  | cons r runs =>
    obtain ⟨hr, hruns⟩ := List.forall_mem_cons.1 h.runs
    exact ⟨List.forall_mem_cons.2 ⟨hr.append hes, hruns⟩, h.base⟩

theorem nested_plain {runs : List OpenRun} (h : ∀ r ∈ runs, Nested notes r.content) : Nested notes (plain runs) := by
  induction runs with
  | nil => exact .nil
  | cons r runs ih =>
    obtain ⟨hr, hruns⟩ := List.forall_mem_cons.1 h
    exact ((ih hruns).append (nested_plainMarks r.mark r.left)).append hr

theorem eq_append_of_take? {mark : Char} {size : Nat} {both : Bool} {runs inner outer : List OpenRun} {r : OpenRun}
    (h : take? mark size both runs = some (inner, r, outer)) : runs = inner ++ r :: outer := by
  induction runs generalizing inner with
  | nil => cases h
  | cons first runs ih =>
    rw [take?] at h
    split at h
    · cases h
      rfl
    · split at h
      · cases h
      · next heq =>
        cases h
        rw [ih heq, List.cons_append]

theorem Sound.close (mark : Char) (size : Nat) (both : Bool) (n : Nat) {left : Nat} {s : EmphasisState}
    (h : s.Sound notes) : (close mark size both n left s).2.Sound notes := by
  induction n generalizing left s with
  | zero => exact h
  | succ n ih =>
    rw [EmphasisState.close]
    split
    · exact h
    · split
      · exact h
      · next inner r outer htake =>
        have hruns := eq_append_of_take? htake ▸ h.runs
        obtain ⟨hinner, hrest⟩ := List.forall_mem_append.1 hruns
        obtain ⟨hr, houter⟩ := List.forall_mem_cons.1 hrest
        have hcontent := nested_wrapMarks mark (min left r.left) (hr.append (nested_plain hinner))
        have hclosed : ({ s with runs := outer } : EmphasisState).Sound notes := ⟨houter, h.base⟩
        dsimp only
        split
        · exact ih ⟨List.forall_mem_cons.2 ⟨hcontent, houter⟩, h.base⟩
        · exact ih (hclosed.add hcontent)

theorem Sound.next {s : EmphasisState} (h : s.Sound notes) {piece : Piece} (hpiece : piece.Sound notes) :
    (s.next piece).Sound notes := by
  cases piece with
  | done es => exact h.add hpiece
  | run mark size opens closes =>
    have hclose : (if closes then EmphasisState.close mark size (opens && closes) size size s else (size, s)).2.Sound
        notes := by
      split
      · exact h.close mark size _ size
      · exact h
    rw [EmphasisState.next]
    split
    next left s' heq =>
    rw [heq] at hclose
    split
    · exact hclose
    · split
      · exact ⟨List.forall_mem_cons.2 ⟨.nil, hclose.runs⟩, hclose.base⟩
      · exact hclose.add (nested_plainMarks mark left)

end EmphasisState

theorem nested_resolve {pieces : List Piece} (h : SoundPieces notes pieces) : Nested notes (resolve pieces) := by
  have hfold : ∀ (pieces : List Piece) {s : EmphasisState}, s.Sound notes → SoundPieces notes pieces →
      (pieces.foldl EmphasisState.next s).Sound notes := by
    intro pieces
    induction pieces with
    | nil => exact fun hs _ => hs
    | cons piece pieces ih =>
      intro s hs hpieces
      obtain ⟨hpiece, hpieces⟩ := List.forall_mem_cons.1 hpieces
      exact ih (hs.next hpiece) hpieces
  have hend := hfold pieces (s := ⟨[], []⟩) ⟨by simp, .nil⟩ h
  exact hend.base.append (EmphasisState.nested_plain hend.runs)

/-! ### The text of a block -/

theorem sound_leaf {e : Event} (he : e.isLeaf = true) : Piece.Sound notes (.done [e]) :=
  nested_leaf he

theorem sound_textPiece (cs : List Char) : (textPiece cs).Sound notes :=
  sound_leaf rfl

theorem sound_markPiece (mark : Char) (size : Nat) (before after : Option Char) :
    (markPiece mark size before after).Sound notes := by
  rw [markPiece]
  split
  · trivial
  · exact sound_textPiece _

theorem sound_flatten {openers : List Opener} (h : ∀ o ∈ openers, SoundPieces notes o.before) {out : List Piece}
    (hout : SoundPieces notes out) : SoundPieces notes (flatten openers out) := by
  induction openers generalizing out with
  | nil => exact hout
  | cons o openers ih =>
    obtain ⟨ho, hopeners⟩ := List.forall_mem_cons.1 h
    exact ih hopeners (List.forall_mem_append.2 ⟨hout, List.forall_mem_cons.2 ⟨sound_textPiece _, ho⟩⟩)

theorem nested_linkEvents (image : Bool) (target : Target) {es : List Event} (h : Nested notes es) :
    Nested notes (linkEvents image target es) := by
  cases image
  · exact nested_wrap rfl h
  · exact nested_wrap rfl h

namespace Scan

/-- A scan all of whose pieces are sound, before its open brackets and behind them. -/
structure Sound (notes : Notes) (s : Scan) : Prop where
  openers : ∀ o ∈ s.openers, SoundPieces notes o.before
  out : SoundPieces notes s.out

variable {s : Scan}

theorem Sound.push (h : s.Sound notes) {piece : Piece} (hpiece : piece.Sound notes) (before : Option Char) :
    (s.push piece before).Sound notes :=
  ⟨h.openers, List.forall_mem_cons.2 ⟨hpiece, h.out⟩⟩

theorem Sound.opening (h : s.Sound notes) (image : Bool) (rest : List Char) : (s.opening image rest).Sound notes :=
  ⟨List.forall_mem_cons.2 ⟨h.out, h.openers⟩, List.forall_mem_nil _⟩

theorem Sound.lineEnd (h : s.Sound notes) (text rest : List Char) : (s.lineEnd text rest).1.Sound notes := by
  have hbreak : ∀ hard : Prop, ∀ [Decidable hard],
      Piece.Sound notes (.done [if hard then .hardBreak else .softBreak]) := by
    intro hard _
    split <;> exact sound_leaf rfl
  have htext : ∀ text : List Char, (if text.isEmpty then s else s.push (textPiece text) none).Sound notes := by
    intro text
    split
    · exact h
    · exact h.push (sound_textPiece text) none
  rw [Scan.lineEnd]
  exact (htext _).push (hbreak _) none

theorem Sound.angle (h : s.Sound notes) (cs : List Char) : (s.angle cs).1.Sound notes := by
  have hlinked : ∀ (kind : LinkKind) (text : String), Piece.Sound notes (.done (wrap (.link kind text "") [.text text])) :=
    fun kind text => nested_wrap rfl (nested_leaf rfl)
  rw [Scan.angle]
  split
  · exact h.push (hlinked _ _) _
  · split
    · exact h.push (hlinked _ _) _
    · split
      · exact h.push (sound_leaf rfl) _
      · exact h.push (sound_textPiece _) _

/-- Behind a closing bracket, `o` is the opener it belongs to. -/
theorem Sound.close (refs : References) (h : s.Sound notes) (rest : List Char) :
    (s.close refs rest).1.Sound notes := by
  have hplain : ∀ {o : Opener}, SoundPieces notes o.before →
      SoundPieces notes (textPiece [']'] :: s.out ++ o.piece :: o.before) := fun ho =>
    List.forall_mem_append.2 ⟨List.forall_mem_cons.2 ⟨sound_textPiece _, h.out⟩,
      List.forall_mem_cons.2 ⟨sound_textPiece _, ho⟩⟩
  have hlink : ∀ {o : Opener} {openers : List Opener}, s.openers = o :: openers → ∀ target before,
      Scan.Sound notes { s with
        before := before
        openers := if o.image then openers else openers.map fun p => { p with active := p.image && p.active }
        out := .done (linkEvents o.image target (resolve s.out.reverse)) :: o.before } := by
    intro o openers hs target before
    obtain ⟨ho, hopeners⟩ := List.forall_mem_cons.1 (hs ▸ h.openers)
    have hes := nested_resolve fun piece hpiece => h.out piece (List.mem_reverse.1 hpiece)
    refine ⟨?_, List.forall_mem_cons.2 ⟨nested_linkEvents o.image target hes, ho⟩⟩
    split
    · exact hopeners
    · exact List.forall_mem_map.2 hopeners
  fun_cases Scan.close refs s rest with
  | case1 => exact h.push (sound_textPiece _) _
  | case2 o openers hs _ _ target => exact hlink hs target _
  | case3 o openers hs _ _ _ target => exact hlink hs target _
  | case4 o openers hs =>
    obtain ⟨ho, hopeners⟩ := List.forall_mem_cons.1 (hs ▸ h.openers)
    have hout : SoundPieces notes (if o.image then textPiece ['!'] :: o.before else o.before) := by
      split
      · exact List.forall_mem_cons.2 ⟨sound_textPiece _, ho⟩
      · exact ho
    exact ⟨List.forall_mem_nil _, List.forall_mem_cons.2 ⟨sound_leaf rfl, sound_flatten hopeners hout⟩⟩
  | case5 o openers hs =>
    obtain ⟨ho, hopeners⟩ := List.forall_mem_cons.1 (hs ▸ h.openers)
    exact ⟨hopeners, hplain ho⟩
  | case6 o openers hs =>
    obtain ⟨ho, hopeners⟩ := List.forall_mem_cons.1 (hs ▸ h.openers)
    exact ⟨hopeners, hplain ho⟩

/-- One step keeps the pieces sound, whatever construct begins there. -/
theorem Sound.step (refs : References) (h : s.Sound notes) (cs : List Char) : (s.step refs cs).1.Sound notes := by
  have htext : ∀ text before, (s.push (textPiece text) before).Sound notes :=
    fun text before => h.push (sound_textPiece text) before
  fun_cases Scan.step refs s cs with
  | case1 => exact h
  | case2 => exact htext _ _
  | case3 => exact h.push (sound_leaf rfl) _
  | case4 => exact htext _ _
  | case5 => exact htext _ _
  | case6 => exact h.push (sound_leaf rfl) _
  | case7 => exact htext _ _
  | case8 rest value after hentity =>
    rw [hentity]
    exact htext _ _
  | case9 rest hentity =>
    rw [hentity]
    exact htext _ _
  | case10 rest => exact h.angle rest
  | case11 rest => exact h.opening true rest
  | case12 rest => exact h.opening false rest
  | case13 rest => exact h.close refs rest
  | case14 => exact h.push (sound_markPiece _ _ _ _) _
  | case15 => exact h.lineEnd _ _
  | case16 => exact h.lineEnd _ _
  | case17 => exact htext _ _

theorem sound_pieces (refs : References) (n : Nat) (h : s.Sound notes) (cs : List Char) :
    SoundPieces notes (s.pieces refs n cs) := by
  have hend : ∀ {s : Scan}, s.Sound notes → SoundPieces notes (flatten s.openers s.out).reverse :=
    fun h piece hpiece => sound_flatten h.openers h.out piece (List.mem_reverse.1 hpiece)
  induction n generalizing s cs with
  | zero => exact hend h
  | succ n ih =>
    rw [pieces]
    split
    · exact hend h
    · exact ih (h.step refs cs) _

end Scan

theorem nested_inlineEvents (refs : References) (cs : List Char) : Nested notes (inlineEvents refs cs) :=
  nested_resolve (Scan.sound_pieces refs cs.length ⟨List.forall_mem_nil _, List.forall_mem_nil _⟩ cs)

/-! ### Blocks -/

theorem nested_code (kind : CodeKind) (lines : List (List Char)) :
    Nested notes (wrap (.codeBlock kind) (lines.map fun line => .text (String.ofList line))) := by
  have hcode := @Nested.code notes kind (lines.map String.ofList) [] .nil
  rwa [List.map_map] at hcode

theorem nested_html (lines : List (List Char)) : Nested notes (lines.map fun line => .html (String.ofList line)) := by
  induction lines with
  | nil => exact .nil
  | cons line lines ih => exact .leaf rfl ih

theorem nested_rowEvents (refs : References) {tag : Tag} (htag : tag.isPlain = true) (cells : List (List Char)) :
    Nested notes (rowEvents refs tag cells) :=
  nested_wrap htag (nested_flatMap fun text _ => nested_wrap rfl (nested_inlineEvents refs text))

/-- A footnote definition wraps what stands in it, which may be other definitions. -/
theorem nested_footnote (label : String) {es : List Event} (h : Nested .anywhere es) :
    Nested .anywhere (wrap (.footnoteDefinition label) es) :=
  .note rfl h .nil

mutual

theorem Block.nested_events (refs : References) (tight : Bool) : ∀ b : Block, Nested .anywhere (b.events refs tight)
  | .paragraph text => by
    rw [Block.events]
    split
    · exact nested_inlineEvents refs text
    · exact nested_wrap rfl (nested_inlineEvents refs text)
  | .heading level text => nested_wrap rfl (nested_inlineEvents refs text)
  | .rule => nested_leaf rfl
  | .code kind lines => nested_code kind lines
  | .html lines => nested_wrap rfl (nested_html lines)
  | .table columns head rows =>
    nested_wrap rfl ((nested_rowEvents refs rfl head).append (nested_flatMap fun row _ => nested_rowEvents refs rfl row))
  | .quote content => nested_wrap rfl (nested_contentEvents refs false content)
  | .list start tight items => nested_wrap rfl (nested_contentEvents refs tight items)
  | .item content => nested_wrap rfl (nested_contentEvents refs tight content)
  | .footnote label content => nested_footnote label (nested_contentEvents refs false content)

theorem nested_contentEvents (refs : References) (tight : Bool) :
    ∀ content : List Block, Nested .anywhere (contentEvents refs tight content)
  | [] => .nil
  | b :: content => (Block.nested_events refs tight b).append (nested_contentEvents refs tight content)

end

/-- The events of a document are properly nested. -/
theorem nested_events (text : String) : Nested .anywhere (events text) :=
  nested_contentEvents _ false _

end Markdown
end Folio

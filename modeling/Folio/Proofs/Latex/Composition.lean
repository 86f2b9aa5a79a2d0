import Folio.Proofs.Latex.Placement

/-!
# Folio.Proofs.Latex.Composition

Streams are written one after the other.

* `Balanced`: streams in which each construct is closed by its own end, and cells stand inside of rows. Code blocks may
  hold anything.
* `Mode.Alike`: modes that a balanced stream cannot tell apart: the cells count inside of a row only, and what stands
  before the stream does not count at all.
* `emit_alike`: what is written for a balanced stream is the same in all such modes.
* `write_append`: so a document is written piece by piece, behind any text.
-/

namespace Folio
namespace Markdown

/-- Whether a construct is a row of cells. -/
def Tag.isRow : Tag → Bool
  | .tableHead => true
  | .tableRow => true
  | _ => false

/-- Streams without footnote definitions in which each construct is closed by its own end. Cells stand inside of rows, at
any depth; `row` says whether the stream does. -/
inductive Balanced : Bool → List Event → Prop where
  | nil {row : Bool} : Balanced row []
  | leaf {row : Bool} {e : Event} {es : List Event} : e.isLeaf = true → Balanced row es → Balanced row (e :: es)
  | group {row : Bool} {tag : Tag} {body es : List Event} :
      (Event.opened tag).isMark = false → (tag = .tableCell → row = true) →
      Balanced (row || tag.isRow) body → Balanced row es →
      Balanced row (.opened tag :: (body ++ .closed tag.toEnd :: es))

theorem Event.isMark_leaf {e : Event} (h : e.isLeaf = true) : e.isMark = false := by
  cases e <;> first | rfl | cases h

theorem Tag.isMark_closed {tag : Tag} (h : (Event.opened tag).isMark = false) :
    (Event.closed tag.toEnd).isMark = false := by
  cases tag <;> first | rfl | cases h

theorem Balanced.no_mark {row : Bool} {es : List Event} (h : Balanced row es) : ∀ e ∈ es, e.isMark = false := by
  induction h with
  | nil => simp
  | leaf he _ ih => exact List.forall_mem_cons.2 ⟨Event.isMark_leaf he, ih⟩
  | group htag _ _ _ ihbody ih =>
    refine List.forall_mem_cons.2 ⟨htag, List.forall_mem_append.2 ⟨ihbody, ?_⟩⟩
    exact List.forall_mem_cons.2 ⟨Tag.isMark_closed htag, ih⟩

end Markdown

namespace Latex

open Markdown

/-! ### Modes -/

/-- Modes that a balanced stream cannot tell apart. -/
structure Mode.Alike (row : Bool) (m m' : Mode) : Prop where
  code : m.code = m'.code
  cells : row = true → m.cells = m'.cells

section Modes

variable {row : Bool} {m m' : Mode}

theorem Mode.Alike.chunk_leaf (h : m.Alike row m') (notes : Footnotes) {e : Event} (he : e.isLeaf = true) :
    chunk notes m e = chunk notes m' e := by
  cases e with
  | opened tag => cases he
  | closed tag => cases he
  | text text => rw [chunk_text, chunk_text, h.code]
  | footnoteReference label => rw [chunk_footnoteReference, chunk_footnoteReference]
  | taskMarker checked => cases checked <;> rfl
  | _ => rfl

theorem Mode.Alike.next_leaf (h : m.Alike row m') {e : Event} (he : e.isLeaf = true) (written : List Char) :
    (m.next e written).Alike row (m'.next e written) := by
  cases e with
  | opened tag => cases he
  | closed tag => cases he
  | text text => exact ⟨congrArg (Option.map _) h.code, h.cells⟩
  | _ => exact ⟨h.code, h.cells⟩

/-- Only where a cell opens do the cells before it count. -/
theorem Mode.Alike.opening_eq (h : m.Alike row m') {tag : Tag} (hcell : tag = .tableCell → row = true) :
    opening m tag = opening m' tag := by
  cases tag with
  | tableCell => rw [opening_tableCell, opening_tableCell, h.cells (hcell rfl)]
  | codeBlock kind => cases kind <;> rfl
  | list start => cases start <;> rfl
  | _ => rfl

theorem Mode.Alike.next_opened (h : m.Alike row m') {tag : Tag} (hcell : tag = .tableCell → row = true)
    (written : List Char) :
    (m.next (.opened tag) written).Alike (row || tag.isRow) (m'.next (.opened tag) written) := by
  cases tag with
  | codeBlock kind => exact ⟨rfl, fun hrow => h.cells (by simpa [Tag.isRow] using hrow)⟩
  | tableHead => exact ⟨h.code, fun _ => rfl⟩
  | tableRow => exact ⟨h.code, fun _ => rfl⟩
  | tableCell => exact ⟨h.code, fun _ => congrArg (· + 1) (h.cells (hcell rfl))⟩
  | _ => exact ⟨h.code, fun hrow => h.cells (by simpa [Tag.isRow] using hrow)⟩

/-- Only where an item closes does it count whether the text ends a line. -/
theorem Mode.Alike.closing_eq (h : m.Alike row m') {tag : Tag} (hitem : tag = .item → m.lineStart = m'.lineStart) :
    closing m tag.toEnd = closing m' tag.toEnd := by
  cases tag with
  | codeBlock kind => rw [Tag.toEnd, closing_codeBlock, closing_codeBlock, h.code]
  | item => rw [Tag.toEnd, closing_item, closing_item, hitem rfl]
  | list start => cases start <;> rfl
  | _ => rfl

theorem Mode.Alike.next_closed (h : m.Alike row m') (tag : Tag) (written : List Char) :
    (m.next (.closed tag.toEnd) written).Alike row (m'.next (.closed tag.toEnd) written) := by
  cases tag with
  | codeBlock kind => exact ⟨rfl, h.cells⟩
  | _ => exact ⟨h.code, h.cells⟩

theorem endsLine_append (before : Bool) (as bs : List Char) :
    endsLine before (as ++ bs) = endsLine (endsLine before as) bs := by
  rw [endsLine, endsLine, endsLine, List.getLast?_append]
  cases bs.getLast? <;> rfl

theorem lineStart_through (notes : Footnotes) (m : Mode) (es : List Event) :
    (m.through notes es).lineStart = endsLine m.lineStart (emit notes m es) := by
  induction es generalizing m with
  | nil => rfl
  | cons e es ih =>
    rw [Mode.through, ih, emit, endsLine_append]
    rfl

end Modes

/-! ### Streams -/

section Streams

variable {row : Bool} {es : List Event}

/-- What is written for a balanced stream is the same in modes that are alike, and they stay alike. -/
theorem emit_alike (notes : Footnotes) (h : Balanced row es) :
    ∀ {m m' : Mode}, m.Alike row m' →
      emit notes m es = emit notes m' es ∧ (m.through notes es).Alike row (m'.through notes es) := by
  induction h with
  | nil => exact fun hm => ⟨rfl, hm⟩
  | @leaf row e es he _ ih =>
    intro m m' hm
    have hchunk := hm.chunk_leaf notes he
    obtain ⟨hrest, hafter⟩ := ih (hm.next_leaf he (chunk notes m e))
    rw [emit, emit, Mode.through, Mode.through, ← hchunk, hrest]
    exact ⟨rfl, hafter⟩
  | @group row tag body es _ hcell _ _ ihbody ih =>
    intro m m' hm
    have hopening : chunk notes m (.opened tag) = chunk notes m' (.opened tag) := hm.opening_eq hcell
    obtain ⟨hbody, hinside⟩ := ihbody (hm.next_opened hcell (chunk notes m (.opened tag)))
    -- An item begins with its mark, which ends no line: only what is written inside of it counts at its end.
    have hitem : tag = .item →
        ((m.next (.opened tag) (chunk notes m (.opened tag))).through notes body).lineStart =
          ((m'.next (.opened tag) (chunk notes m (.opened tag))).through notes body).lineStart := by
      rintro rfl
      rw [lineStart_through, lineStart_through, hbody]
      rfl
    rw [emit, emit_append, emit, Mode.through, through_append, Mode.through, emit, emit_append, emit, Mode.through,
      through_append, Mode.through, ← hopening, ← hbody]
    generalize (m.next (.opened tag) (chunk notes m (.opened tag))).through notes body = n at hinside hitem ⊢
    generalize (m'.next (.opened tag) (chunk notes m (.opened tag))).through notes body = n' at hinside hitem ⊢
    have hbehind : n.Alike row n' := ⟨hinside.code, fun hrow => hinside.cells (by rw [hrow, Bool.true_or])⟩
    have hclosing : chunk notes n (.closed tag.toEnd) = chunk notes n' (.closed tag.toEnd) := hbehind.closing_eq hitem
    obtain ⟨hrest, hafter⟩ := ih (hbehind.next_closed tag (chunk notes n (.closed tag.toEnd)))
    rw [← hclosing, hrest]
    exact ⟨rfl, hafter⟩

/-- A code block that opens in a balanced stream is closed in it. -/
theorem code_through (notes : Footnotes) (h : Balanced row es) :
    ∀ {m : Mode}, m.code = none → (m.through notes es).code = none := by
  induction h with
  | nil => exact fun hm => hm
  | leaf he _ ih => exact fun hm => ih (leaf_nextCode hm he)
  | @group row tag body es _ _ _ _ ihbody ih =>
    intro m hm
    rw [Mode.through, through_append, Mode.through]
    refine ih ?_
    cases tag with
    | codeBlock kind => rfl
    | _ => exact ihbody hm

end Streams

/-! ### Documents -/

/-- Footnote definitions, one after the other. -/
def definitionEvents (notes : List (String × List Event)) : List Event :=
  notes.flatMap fun note => definition note.1 note.2

section Documents

variable {notes : List (String × List Event)}

theorem definitions_plain_append {es : List Event} (h : ∀ e ∈ es, e.isMark = false) (rest : List Event) :
    definitions (es ++ rest) = definitions rest := by
  induction es with
  | nil => rfl
  | cons e es ih =>
    rw [List.cons_append, definitions_cons (Event.ne_mark (h e List.mem_cons_self)).1,
      ih fun e' he' => h e' (List.mem_cons_of_mem e he')]

theorem mainText_definitionEvents (h : ∀ note ∈ notes, ∀ e ∈ note.2, e.isMark = false) :
    mainText 0 (definitionEvents notes) = [] := by
  induction notes with
  | nil => rfl
  | cons note notes ih =>
    rw [definitionEvents, List.flatMap_cons, mainText_definition (h note List.mem_cons_self)]
    exact ih fun note' hnote' => h note' (List.mem_cons_of_mem note hnote')

/-- What is written for events without marks before some definitions. -/
theorem write_plain {es : List Event} (hes : ∀ e ∈ es, e.isMark = false)
    (hnotes : ∀ note ∈ notes, ∀ e ∈ note.2, e.isMark = false) (text : String) :
    write text (es ++ definitionEvents notes) =
      text ++ String.ofList (emit (footnotes (definitionEvents notes)) (Mode.after text.toList) es) := by
  rw [write, mainText_plain_append hes, mainText_definitionEvents hnotes, List.append_nil, footnotes,
    definitions_plain_append hes, ← footnotes]

/-- Balanced streams are written one after the other, behind any text: no code, no cells and no end of a line are carried
over from one to the next. -/
theorem write_append {es fs : List Event} (hes : Balanced false es) (hfs : Balanced false fs)
    (hnotes : ∀ note ∈ notes, ∀ e ∈ note.2, e.isMark = false) (text : String) :
    write text (es ++ fs ++ definitionEvents notes) =
      text ++ write "" (es ++ definitionEvents notes) ++ write "" (fs ++ definitionEvents notes) := by
  have hboth : ∀ e ∈ es ++ fs, e.isMark = false := List.forall_mem_append.2 ⟨hes.no_mark, hfs.no_mark⟩
  have halike : ∀ {m : Mode}, m.code = none → m.Alike false (Mode.after []) :=
    fun hm => ⟨hm, fun hrow => nomatch hrow⟩
  rw [write_plain hboth hnotes, write_plain hes.no_mark hnotes, write_plain hfs.no_mark hnotes]
  generalize footnotes (definitionEvents notes) = bodies
  have hstart : (Mode.after text.toList).code = none := rfl
  have hfirst := (emit_alike bodies hes (halike hstart)).1
  have hsecond := (emit_alike bodies hfs (halike (code_through bodies hes hstart))).1
  rw [emit_append, hfirst, hsecond]
  simp [String.append_assoc]

end Documents

namespace Composed

/-- An item that does not end its line, and a listing. -/
def items : List Event :=
  .opened (.list none) :: ((.opened .item :: ([.text "a"] ++ .closed .item :: [])) ++ .closed (.list false) ::
    (.opened (.codeBlock .indented) :: ([.text "b"] ++ .closed .codeBlock :: [])))

/-- A row of two cells, with a reference in the second one. -/
def cells : List Event :=
  .opened .tableRow :: ((.opened .tableCell :: ([.text "c"] ++ .closed .tableCell ::
    (.opened .tableCell :: ([.footnoteReference "n"] ++ .closed .tableCell :: [])))) ++ .closed .tableRow :: [])

/-- A footnote with a cell and a listing that are left open. -/
def footnote : List (String × List Event) :=
  [("n", [.opened .tableCell, .text "50%", .opened (.codeBlock .indented), .text "d"])]

def page : String :=
  "\\begin\x7bitemize\x7d\n\\item a\n\\end\x7bitemize\x7d\n\n" ++
    "\\begin\x7bverbatim\x7d\nb\n\\end\x7bverbatim\x7d\n\n" ++ "c & \\footnote\x7b50\\%\x7d \\\\\n"

theorem write_composed :
    Balanced false items ∧ Balanced false cells ∧ (∀ note ∈ footnote, ∀ e ∈ note.2, e.isMark = false) ∧
      write "x" (items ++ cells ++ definitionEvents footnote) = "x" ++ page := by
  have hitems : Balanced false items :=
    .group rfl nofun (.group rfl nofun (.leaf rfl .nil) .nil) (.group rfl nofun (.leaf rfl .nil) .nil)
  have hcells : Balanced false cells :=
    .group rfl nofun (.group rfl (fun _ => rfl) (.leaf rfl .nil) (.group rfl (fun _ => rfl) (.leaf rfl .nil) .nil)) .nil
  have hnotes : ∀ note ∈ footnote, ∀ e ∈ note.2, e.isMark = false := by decide
  have hdefinitions : definitions (definitionEvents footnote) = footnote := by
    simp [footnote, definitionEvents, definition, definitions, definitionBody]
  refine ⟨hitems, hcells, hnotes, ?_⟩
  rw [write_append hitems hcells hnotes, write_plain hitems.no_mark hnotes, write_plain hcells.no_mark hnotes, footnotes,
    hdefinitions]
  decide +kernel

end Composed

end Latex
end Folio

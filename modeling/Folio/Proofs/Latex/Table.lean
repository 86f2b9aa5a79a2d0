import Folio.Proofs.Latex.Comment
import Folio.Proofs.Latex.Inline

/-!
# Folio.Proofs.Latex.Table

Tables as a reader of LaTeX takes them.

* `table`: the events of a table, row by row; `Inline`: what a cell may hold.
* `CodeTexts`: streams whose code blocks hold text only, so that none is open where a table begins.
* `Row`, `Cell`: conditions on the tokens of a row and of a cell outside of all braces.
* `even_cells`: a row of cells has one separator less than cells, whatever the cells hold.
* `TableBody`: what is read between the ends of a table.
* `write_table`: a table is written with a letter for each column, and with the rows and cells it has.
-/

namespace Folio
namespace Markdown

/-- The text of a cell, without hard breaks. -/
inductive Inline : List Event → Prop where
  | nil : Inline []
  | leaf {e : Event} {es : List Event} : e.isLeaf = true → e ≠ .hardBreak → Inline es → Inline (e :: es)
  | group {tag : Tag} {body es : List Event} : tag.toEnd.isInline = true → Inline body → Inline es →
      Inline (.opened tag :: (body ++ .closed tag.toEnd :: es))

/-- The head or another row of a table, with the contents of its cells. -/
structure TableLine where
  head : Bool
  cells : List (List Event)

def TableLine.tag (line : TableLine) : Tag :=
  if line.head then .tableHead else .tableRow

def TableLine.events (line : TableLine) : List Event :=
  wrap line.tag (line.cells.flatMap (wrap .tableCell))

/-- The events of a table. -/
def table (columns : List ColumnAlignment) (lines : List TableLine) : List Event :=
  wrap (.table columns) (lines.flatMap TableLine.events)

theorem TableLine.isPlain (line : TableLine) : line.tag.isPlain = true := by
  obtain ⟨head, cells⟩ := line
  cases head <;> rfl

section Nested

variable {notes : Notes} {es : List Event}

theorem isPlain_of_isInline {tag : Tag} (h : tag.toEnd.isInline = true) : tag.isPlain = true := by
  cases tag <;> first | rfl | cases h

theorem Inline.nested (h : Inline es) : Nested notes es := by
  induction h with
  | nil => exact .nil
  | leaf he _ _ ih => exact .leaf he ih
  | group htag _ _ ihbody ih => exact .group (isPlain_of_isInline htag) ihbody ih

theorem nested_table {columns : List ColumnAlignment} {lines : List TableLine}
    (h : ∀ line ∈ lines, ∀ content ∈ line.cells, Inline content) : Nested notes (table columns lines) :=
  nested_wrap rfl (nested_flatMap fun line hline => nested_wrap line.isPlain
    (nested_flatMap fun content hcontent => nested_wrap rfl (h line hline content hcontent).nested))

/-- Whether a code block is open behind an event. -/
def Event.codeAfter (code : Bool) : Event → Bool
  | .opened (.codeBlock _) => true
  | .closed .codeBlock => false
  | _ => code

/-- Streams in which code blocks hold text only. -/
def CodeTexts : Bool → List Event → Prop
  | _, [] => True
  | code, e :: es =>
    (code = true → (∃ text, e = .text text) ∨ e = .closed .codeBlock) ∧ CodeTexts (e.codeAfter code) es

theorem CodeTexts.cons {e : Event} (he : e.codeAfter false = false) (h : CodeTexts false es) :
    CodeTexts false (e :: es) :=
  ⟨nofun, he.symm ▸ h⟩

theorem Nested.codeTexts (h : Nested notes es) :
    ∀ {rest}, CodeTexts false rest → CodeTexts false (es ++ rest) := by
  induction h with
  | nil => exact id
  | @leaf notes e es he _ ih =>
    intro rest hrest
    exact .cons (by cases e <;> first | rfl | cases he) (ih hrest)
  | @code notes kind texts es _ ih =>
    intro rest hrest
    have htexts : ∀ {fs}, CodeTexts true fs → CodeTexts true (texts.map .text ++ fs) := by
      intro fs hfs
      induction texts with
      | nil => exact hfs
      | cons text texts ih => exact ⟨fun _ => .inl ⟨text, rfl⟩, ih⟩
    rw [List.cons_append, List.append_assoc, List.cons_append]
    exact ⟨nofun, htexts ⟨fun _ => .inr rfl, ih hrest⟩⟩
  | note _ _ _ ihbody ih =>
    intro rest hrest
    rw [List.cons_append, List.append_assoc, List.cons_append]
    exact .cons rfl (ihbody (.cons rfl (ih hrest)))
  | @group notes tag body es htag _ _ ihbody ih =>
    intro rest hrest
    have hopen : (Event.opened tag).codeAfter false = false := by cases tag <;> first | rfl | cases htag
    have hclose : (Event.closed tag.toEnd).codeAfter false = false := by cases tag <;> rfl
    rw [List.cons_append, List.append_assoc, List.cons_append]
    exact .cons hopen (ihbody (.cons hclose (ih hrest)))

end Nested

end Markdown

namespace Latex

open Markdown

/-! ### Modes -/

theorem isSome_nextCode (m : Mode) (e : Event) : (m.nextCode e).isSome = e.codeAfter m.code.isSome := by
  cases e with
  | opened tag => cases tag <;> rfl
  | closed tag => cases tag <;> rfl
  | text text => rw [Mode.nextCode, Option.isSome_map]; rfl
  | _ => rfl

/-- Where something else than text stands, no code block is open. -/
theorem code_of_codeTexts {notes : Footnotes} {as bs : List Event} {e : Event} (hne : ∀ text, e ≠ .text text)
    (hne' : e ≠ .closed .codeBlock) :
    ∀ m : Mode, CodeTexts m.code.isSome (as ++ e :: bs) → (m.through notes as).code = none := by
  induction as with
  | nil =>
    intro m h
    rw [Mode.through, ← Option.not_isSome_iff_eq_none]
    intro hopen
    obtain ⟨text, htext⟩ | hclosed := h.1 hopen
    · exact hne text htext
    · exact hne' hclosed
  | cons a as ih =>
    intro m h
    refine ih (m.next a (chunk notes m a)) ?_
    have hafter : (m.next a (chunk notes m a)).code.isSome = a.codeAfter m.code.isSome := isSome_nextCode m a
    exact hafter ▸ h.2

/-! ### Tokens -/

/-- Outside of all braces, a row holds text only, and does not end a line. -/
def Row (x : Nat × Token) : Prop :=
  x.1 = 0 → x.2.isTextual = true ∧ x.2 ≠ .escaped '\\'

/-- Nor does a cell, in which no other one begins. -/
def Cell (x : Nat × Token) : Prop :=
  Row x ∧ x ≠ (0, .char '&')

theorem cell_deeper (x : Nat × Token) : Cell (deeper 1 x) :=
  ⟨nofun, fun heq => nomatch congrArg Prod.fst heq⟩

theorem admits_cell : Admits Cell where
  char hc := ⟨fun _ => ⟨rfl, nofun⟩, by simpa using hc⟩
  escaped hc := ⟨fun _ => ⟨rfl, by simpa using hc⟩, by simp⟩
  opened := ⟨fun _ => ⟨rfl, nofun⟩, by simp⟩
  inside _ := ⟨nofun, by simp⟩

/-- The separators of cells outside of all braces. -/
def separators (text : List Char) : Nat :=
  (atDepth 0 (tokens text)).count (0, .char '&')

section Cells

variable {p : Nat × Token → Prop} {a b text : List Char}

theorem separators_append (ha : Even p a) : separators (a ++ b) = separators a + separators b := by
  rw [separators, ha.readable.tokens_append, atDepth_append, ha.moves.level_start, List.count_append]
  rfl

theorem separators_cell (h : Even Cell text) : separators text = 0 :=
  List.count_eq_zero.2 fun hmem => (h.each _ hmem).2 rfl

theorem Even.row (h : Even Cell text) : Even Row text :=
  h.mono fun _ hx => hx.1

/-- What leaves all groups as they are may stand inside of braces. -/
theorem even_inside (h : Reads [] text []) : Even (fun x => Cell (deeper 1 x)) text :=
  ⟨h.readable, h.moves, fun x _ => cell_deeper x⟩

variable {notes : Footnotes} {m : Mode}

theorem inline_cells {tag : Tag} (h : tag.toEnd.isInline = true) (m : Mode) :
    m.nextCells (.opened tag) = m.cells ∧ m.nextCells (.closed tag.toEnd) = m.cells := by
  cases tag <;> first | exact ⟨rfl, rfl⟩ | cases h

/-- An argument, or nothing but its text. -/
theorem even_inline {m' : Mode} {tag : Tag} (h : tag.toEnd.isInline = true) {body : List Char} (hbody : Even Cell body) :
    Even Cell (opening m tag ++ body ++ closing m' tag.toEnd) := by
  by_cases harg : isArgument tag = true
  · exact even_argument admits_cell harg (hbody.mono fun x _ => cell_deeper x)
  · have hopening : opening m tag = [] := by
      cases tag <;> first | rfl | cases h; done | exact absurd rfl harg
    have hclosing : closing m' tag.toEnd = [] := by
      cases tag <;> first | rfl | cases h; done | exact absurd rfl harg
    rw [hopening, hclosing, List.nil_append, List.append_nil]
    exact hbody

theorem leaf_nextCells {e : Event} (h : e.isLeaf = true) (m : Mode) : m.nextCells e = m.cells := by
  cases e <;> first | rfl | cases h

/-- What is written for the contents of a cell. They begin no cells themselves. -/
theorem even_content (hnotes : notes.Closed) {es : List Event} (h : Inline es) : ∀ m : Mode, m.code = none →
    Even Cell (emit notes m es) ∧ (m.through notes es).code = none ∧ (m.through notes es).cells = m.cells := by
  induction h with
  | nil => exact fun m hm => ⟨.nil, hm, rfl⟩
  | @leaf e es he hbreak _ ih =>
    intro m hm
    have hchunk := even_leaf admits_cell hm he (fun heq => absurd heq hbreak)
      fun label body _ hbody => even_inside (hnotes label body hbody)
    obtain ⟨hrest, hcode, hcells⟩ := ih (m.next e (chunk notes m e)) (leaf_nextCode hm he)
    exact ⟨hchunk.append hrest, hcode, hcells.trans (leaf_nextCells he m)⟩
  | @group tag body es htag _ _ ihbody ih =>
    intro m hm
    have hplain := isPlain_of_isInline htag
    obtain ⟨hbody, hcode, hcells⟩ := ihbody (m.through notes [.opened tag]) ((plain_nextCode m hplain).1.trans hm)
    obtain ⟨hrest, hcode', hcells'⟩ := ih (m.behind notes tag body) ((plain_nextCode _ hplain).2.trans hcode)
    rw [emit_construct, through_construct]
    refine ⟨(even_inline htag hbody).append hrest, hcode', ?_⟩
    calc _ = (m.behind notes tag body).cells := hcells'
      _ = (m.through notes (.opened tag :: body)).cells := (inline_cells htag _).2
      _ = (m.through notes [.opened tag]).cells := hcells
      _ = m.cells := (inline_cells htag m).1

theorem even_separator : Even Row " & ".toList := by
  refine .of_plain (lexes_ordinary (by decide)) (by simp [Token.isPlain]) ?_
  exact List.forall_mem_map.2 fun c _ _ => ⟨rfl, by simp⟩

theorem separators_separator : separators " & ".toList = 1 := by
  rw [separators, (lexes_ordinary (by decide)).tokens_eq]
  decide

/-- A separator stands before each cell but the first one of a row. -/
theorem even_opening_cell (m : Mode) :
    Even Row (opening m .tableCell) ∧ separators (opening m .tableCell) = if m.cells = 0 then 0 else 1 := by
  rw [opening_tableCell]
  split
  · exact ⟨.nil, by simp [separators, tokens_nil, atDepth]⟩
  · exact ⟨even_separator, separators_separator⟩

theorem even_cells (hnotes : notes.Closed) {cells : List (List Event)} (h : ∀ content ∈ cells, Inline content) :
    ∀ m : Mode, m.code = none →
      let es := cells.flatMap (wrap .tableCell)
      Even Row (emit notes m es) ∧ (m.through notes es).code = none ∧
        separators (emit notes m es) = if m.cells = 0 then cells.length - 1 else cells.length := by
  induction cells with
  | nil => exact fun m hm => ⟨.nil, hm, by simp [emit, separators, tokens_nil, atDepth]⟩
  | cons content cells ih =>
    intro m hm es
    obtain ⟨hcontent, hcells⟩ := List.forall_mem_cons.1 h
    have hes : es = .opened .tableCell :: (content ++ .closed Tag.tableCell.toEnd :: cells.flatMap (wrap .tableCell)) := by
      simp [es, wrap]
    obtain ⟨hbody, hcode, hsame⟩ := even_content hnotes hcontent (m.through notes [.opened .tableCell]) hm
    obtain ⟨hrest, hcode', hcount⟩ := ih hcells (m.behind notes .tableCell content) hcode
    have hmore : (m.behind notes .tableCell content).cells = m.cells + 1 := hsame
    obtain ⟨hopening, hfirst⟩ := even_opening_cell m
    have hclosing : closing (m.through notes (.opened .tableCell :: content)) Tag.tableCell.toEnd = [] := rfl
    rw [hmore, if_neg (Nat.succ_ne_zero _)] at hcount
    rw [hes, emit_construct, through_construct, hclosing, List.append_nil]
    have hbefore := hopening.append hbody.row
    refine ⟨hbefore.append hrest, hcode', ?_⟩
    rw [separators_append hbefore, separators_append hopening, hfirst, separators_cell hbody, hcount, List.length_cons]
    split <;> omega

end Cells

/-! ### Rows -/

/-- What is read between the ends of a table. Outside of its braces it is text, so that no environment begins or ends there.
The rows are what is ended by a double backslash, and behind the last one only the rule of a head may stand. -/
structure TableBody (columns rows : Nat) (ts : List Token) : Prop where
  moves : Moves 0 ts 0
  textual : ∀ x ∈ atDepth 0 ts, x.1 = 0 → x.2.isTextual = true
  split : ∃ front last, (atDepth 0 ts).splitOn (0, .escaped '\\') = front ++ [last] ∧ front.length = rows ∧
    (∀ row ∈ front, row.count (0, .char '&') = columns - 1) ∧
    (last.map Prod.snd = tokens "\n".toList ∨ last.map Prod.snd = tokens "\n\\hline\n".toList)

/-- The end of the line of a row, and the rule behind a head. -/
def lineGap (head : Bool) : List Char :=
  if head then "\n\\hline\n".toList else "\n".toList

section Rows

variable {columns rows : Nat} {a b : List Char}

theorem notMem_row (h : Even Row a) : (0, .escaped '\\') ∉ atDepth 0 (tokens a) :=
  fun hmem => (h.each _ hmem rfl).2 rfl

theorem even_lineGap (head : Bool) : Even Cell (lineGap head) := by
  cases head with
  | true =>
    have hrule := @even_command Cell admits_cell 'h' "line".toList (by decide) (by decide)
    exact ((even_word admits_cell (by decide : isWord "\n".toList = true)).append hrule).append
      (even_word admits_cell (by decide : isWord "\n".toList = true))
  | false => exact even_word admits_cell (by decide)

theorem tableBody_lineGap (head : Bool) : TableBody columns 0 (tokens (lineGap head)) := by
  have heven := even_lineGap head
  refine ⟨heven.moves, fun x hx hzero => ((heven.each x hx).1 hzero).1, [], atDepth 0 (tokens (lineGap head)), ?_, rfl,
    by simp, ?_⟩
  · rw [List.splitOn_eq_singleton (notMem_row heven.row), List.nil_append]
  · rw [map_atDepth]
    cases head with
    | true => exact .inr rfl
    | false => exact .inl rfl

theorem lexes_lineEnd : Lexes "\\\\".toList [.escaped '\\'] :=
  lexes_escaped (by decide) (by decide)

theorem TableBody.cons (ha : Even Row a) (hcount : separators a = columns - 1) (hb : TableBody columns rows (tokens b)) :
    TableBody columns (rows + 1) (tokens (a ++ "\\\\".toList ++ b)) := by
  obtain ⟨front, last, hsplit, hlength, hrows, hlast⟩ := hb.split
  have htokens : tokens (a ++ "\\\\".toList ++ b) = tokens a ++ .escaped '\\' :: tokens b := by
    rw [List.append_assoc, ha.readable.tokens_append, lexes_lineEnd]
    rfl
  have hdepth : atDepth 0 (tokens a ++ .escaped '\\' :: tokens b) =
      atDepth 0 (tokens a) ++ (0, .escaped '\\') :: atDepth 0 (tokens b) := by
    rw [atDepth_append, ha.moves.level_start]
    rfl
  rw [htokens]
  refine ⟨ha.moves.append (.cons (fun _ => rfl) hb.moves), ?_, atDepth 0 (tokens a) :: front, last, ?_, ?_, ?_, hlast⟩
  · rw [hdepth]
    exact List.forall_mem_append.2 ⟨fun x hx hzero => (ha.each x hx hzero).1,
      List.forall_mem_cons.2 ⟨fun _ => rfl, hb.textual⟩⟩
  · rw [hdepth, List.splitOn_append_cons_self_of_not_mem (notMem_row ha), hsplit, List.cons_append]
  · rw [List.length_cons, hlength]
  · exact List.forall_mem_cons.2 ⟨hcount, hrows⟩

theorem opening_line (m : Mode) (line : TableLine) : opening m line.tag = [] := by
  obtain ⟨head, cells⟩ := line
  cases head <;> rfl

theorem closing_line (m : Mode) (line : TableLine) :
    closing m line.tag.toEnd = " ".toList ++ "\\\\".toList ++ lineGap line.head := by
  obtain ⟨head, cells⟩ := line
  cases head <;> rfl

/-- Whatever row stands before it, a row begins with its first cell. -/
theorem mode_line (notes : Footnotes) (m : Mode) (line : TableLine) :
    (m.through notes [.opened line.tag]).code = m.code ∧ (m.through notes [.opened line.tag]).cells = 0 := by
  obtain ⟨head, cells⟩ := line
  cases head <;> exact ⟨rfl, rfl⟩

/-- One row after the other is written, each with the cells it has. -/
theorem tableBody_lines {notes : Footnotes} (hnotes : notes.Closed) {lines : List TableLine}
    (h : ∀ line ∈ lines, line.cells.length = columns ∧ ∀ content ∈ line.cells, Inline content) :
    ∀ (head : Bool) (m : Mode), m.code = none →
      let es := lines.flatMap TableLine.events
      TableBody columns lines.length (tokens (lineGap head ++ emit notes m es)) ∧
        Readable (lineGap head ++ emit notes m es) ∧ (m.through notes es).code = none := by
  induction lines with
  | nil =>
    intro head m hm es
    have hes : emit notes m es = [] := rfl
    rw [hes, List.append_nil]
    exact ⟨tableBody_lineGap head, (even_lineGap head).readable, hm⟩
  | cons line lines ih =>
    intro head m hm es
    obtain ⟨⟨hlength, hinline⟩, hlines⟩ := List.forall_mem_cons.1 h
    have hes : es = .opened line.tag :: (line.cells.flatMap (wrap .tableCell) ++ .closed line.tag.toEnd ::
        lines.flatMap TableLine.events) := by
      simp [es, TableLine.events, wrap]
    obtain ⟨hmode, hzero⟩ := mode_line notes m line
    obtain ⟨hcells, hcode, hcount⟩ := even_cells hnotes hinline (m.through notes [.opened line.tag]) (hmode.trans hm)
    rw [hzero, if_pos rfl, hlength] at hcount
    obtain ⟨hbody, hread, hcode'⟩ := ih hlines line.head (m.behind notes line.tag (line.cells.flatMap (wrap .tableCell)))
      ((plain_nextCode _ line.isPlain).2.trans hcode)
    have hgap := even_lineGap head
    have hblank : Even Cell " ".toList := even_word admits_cell (by decide)
    -- Of the gap, the cells and the blank that are one row, only the cells hold separators.
    have hbefore := hgap.row.append hcells
    have hrow := hbefore.append hblank.row
    have htext : lineGap head ++ emit notes m es = lineGap head ++ emit notes (m.through notes [.opened line.tag])
        (line.cells.flatMap (wrap .tableCell)) ++ " ".toList ++ "\\\\".toList ++
          (lineGap line.head ++ emit notes (m.behind notes line.tag (line.cells.flatMap (wrap .tableCell)))
            (lines.flatMap TableLine.events)) := by
      rw [hes, emit_construct, opening_line, closing_line]
      simp only [List.append_assoc, List.nil_append]
    rw [htext, hes, through_construct]
    refine ⟨TableBody.cons hrow ?_ hbody, (hrow.readable.append ⟨_, lexes_lineEnd⟩).append hread, hcode'⟩
    rw [separators_append hbefore, separators_append hgap.row, separators_cell hgap, separators_cell hblank, hcount,
      Nat.zero_add, Nat.add_zero]

end Rows

/-! ### Tables -/

theorem emit_table (notes : Footnotes) (m : Mode) (columns : List ColumnAlignment) (lines : List TableLine)
    (bs : List Event) :
    let rows := lines.flatMap TableLine.events
    emit notes m (table columns lines ++ bs) =
      "\\begin\x7btabular\x7d".toList ++ ['{'] ++ columns.map columnLetter ++ ['}'] ++
        (lineGap false ++ emit notes (m.through notes [.opened (.table columns)]) rows) ++
        "\\end\x7btabular\x7d".toList ++ ("\n\n".toList ++ emit notes (m.behind notes (.table columns) rows) bs) := by
  intro rows
  have hevents : table columns lines ++ bs =
      .opened (.table columns) :: (rows ++ .closed (Tag.table columns).toEnd :: bs) := by
    simp [table, wrap, rows]
  have hopening : opening m (.table columns) =
      "\\begin\x7btabular\x7d".toList ++ ['{'] ++ columns.map columnLetter ++ ['}'] ++ lineGap false :=
    (List.append_assoc _ ['}'] ['\n']).symm
  have hclosing : ∀ m', closing m' (Tag.table columns).toEnd = "\\end\x7btabular\x7d".toList ++ "\n\n".toList :=
    fun _ => rfl
  rw [hevents, emit_construct, hopening, hclosing]
  simp only [List.append_assoc]

theorem tokens_table {notes : Footnotes} (hnotes : notes.Closed) {columns : List ColumnAlignment} {lines : List TableLine}
    (hlines : ∀ line ∈ lines, line.cells.length = columns.length ∧ ∀ content ∈ line.cells, Inline content) {m : Mode}
    (hm : m.code = none) (bs : List Event) :
    ∃ body behind, TableBody columns.length lines.length body ∧
      tokens (emit notes m (table columns lines ++ bs)) =
        .begins "tabular".toList :: .opened :: (columns.map columnLetter).map .char ++
          .closed :: body ++ .ends "tabular".toList :: behind := by
  obtain ⟨hbody, hread, -⟩ := tableBody_lines hnotes hlines false (m.through notes [.opened (.table columns)]) hm
  have hbegins := @lexes_begins "tabular".toList (by decide) (by decide)
  have hends := @lexes_ends "tabular".toList (by decide)
  have hletters : (columns.map columnLetter).all isOrdinary = true := by
    refine List.all_eq_true.2 (List.forall_mem_map.2 fun column _ => ?_)
    cases column <;> decide
  have hall := ((((hbegins.append lexes_opened).append (lexes_ordinary hletters)).append lexes_closed).append
    hread.lexes).append hends
  refine ⟨_, tokens ("\n\n".toList ++ emit notes (m.behind notes (.table columns) (lines.flatMap TableLine.events)) bs),
    hbody, ?_⟩
  rw [emit_table]
  refine (hall _).trans ?_
  simp only [List.append_assoc, List.cons_append, List.nil_append]

/-- A table outside of the definitions of footnotes, of which the rows have a cell for each column, is written with a letter
for each column, and with the rows and cells it has. A reader goes by what stands outside of the braces of the table, and
comes to its end where no environment has begun in it, whatever stands in the targets of links, in footnotes, or in tables
before this one. -/
theorem write_table {es : List Event} (h : Nested .apart es) (hinfo : InfoLines es) {columns : List ColumnAlignment}
    {lines : List TableLine} {as bs : List Event} (hmain : mainText 0 es = as ++ (table columns lines ++ bs))
    (hlines : ∀ line ∈ lines, line.cells.length = columns.length ∧ ∀ content ∈ line.cells, Inline content) :
    ∃ body behind, TableBody columns.length lines.length body ∧
      tokens (write "" es).toList = tokens (emit (footnotes es) (Mode.after []) as) ++
        (.begins "tabular".toList :: .opened ::
          columns.map (fun column => .char (match column with
            | .unset => 'l'
            | .left => 'l'
            | .center => 'c'
            | .right => 'r')) ++
          .closed :: body ++ .ends "tabular".toList :: behind) := by
  have hnotes := closed_footnotes h hinfo
  have hinfo' : InfoLines as := fun info hmem => hinfo info (subset_mainText 0 es (by simp [hmain, hmem]))
  have hbefore : Readable (emit (footnotes es) (Mode.after []) as) :=
    readable_emit (fun label body hbody => (hnotes label body hbody).readable) hinfo' _
  have hcode : ((Mode.after []).through (footnotes es) as).code = none := by
    have htexts : CodeTexts false (mainText 0 es ++ []) := (nested_mainText h).codeTexts trivial
    rw [List.append_nil, hmain] at htexts
    exact code_of_codeTexts (e := .opened (.table columns)) (by simp) (by simp) (Mode.after []) htexts
  obtain ⟨body, behind, hbody, htokens⟩ := tokens_table hnotes hlines hcode bs
  refine ⟨body, behind, hbody, ?_⟩
  have hletters : (columns.map columnLetter).map Token.char = columns.map (fun column => .char (match column with
      | .unset => 'l'
      | .left => 'l'
      | .center => 'c'
      | .right => 'r')) := by
    rw [List.map_map]
    exact List.map_congr_left fun column _ => by cases column <;> rfl
  rw [toList_write, hmain, emit_append, hbefore.tokens_append, htokens, hletters]

namespace Tabulated

/-- A link and a footnote in the cells of a table. -/
def lines : List TableLine :=
  [⟨true, [[.text "a & b"], .opened (.link .place "u?v&w\\" "") :: ([.text "t"] ++ .closed .link :: [])]⟩,
    ⟨false, [[.code "50%"], [.footnoteReference "n"]]⟩]

/-- Tables before it, and in the footnote. -/
def small : List Event :=
  table [.center] [⟨true, [[.text "x"]]⟩]

def wide : List Event :=
  table [.unset, .right] [⟨false, [[.text "c"], [.text "d"]]⟩]

def stream : List Event :=
  small ++ (table [.left, .right] lines ++ definition "n" wide)

theorem inline_lines : ∀ line ∈ lines, line.cells.length = 2 ∧ ∀ content ∈ line.cells, Inline content := by
  have htext : ∀ text, Inline [.text text] := fun _ => .leaf rfl nofun .nil
  have hlink : Inline (.opened (.link .place "u?v&w\\" "") :: ([.text "t"] ++ .closed .link :: [])) :=
    .group rfl (htext "t") .nil
  have hcode : Inline [.code "50%"] := .leaf rfl nofun .nil
  have hreference : Inline [.footnoteReference "n"] := .leaf rfl nofun .nil
  simpa [lines, htext, hcode, hreference] using hlink

theorem table_tabulated :
    Nested .apart stream ∧ InfoLines stream ∧ ∃ body behind, TableBody 2 2 body ∧
      tokens (write "" stream).toList = tokens (emit (footnotes stream) (Mode.after []) small) ++
        (.begins "tabular".toList :: .opened :: [.char 'l', .char 'r'] ++
          .closed :: body ++ .ends "tabular".toList :: behind) := by
  have htext : ∀ text, Inline [.text text] := fun _ => .leaf rfl nofun .nil
  have hsmall : Nested .apart small := nested_table (by simpa using htext "x")
  have hwide : Nested .absent wide := nested_table (by simpa using ⟨htext "c", htext "d"⟩)
  have hlines : Nested .apart (table [.left, .right] lines) :=
    nested_table fun line hline => (inline_lines line hline).2
  have hnested : Nested .apart stream := hsmall.append (hlines.append (.note rfl hwide .nil))
  have hinfo : InfoLines stream := by
    intro info hmem
    simp [stream, small, wide, lines, table, wrap, definition, TableLine.events, TableLine.tag] at hmem
  have hmain : mainText 0 stream = small ++ (table [.left, .right] lines ++ []) := rfl
  exact ⟨hnested, hinfo, write_table hnested hinfo hmain inline_lines⟩

end Tabulated

end Latex
end Folio

import Folio.Proofs.Latex.Escaping
import Folio.Proofs.Latex.Marked

/-!
# Folio.Proofs.Latex.Argument

Brackets read as optional arguments.

LaTeX takes a bracket behind `\item` or `\\` for an argument of the command, also behind blanks and one line end.

* `Swallows`: texts in which a bracket of a text event stands behind such a command.
* `Wait`: what a bracket would be taken for at a place of the text, found from the events before it.
* `Wait.exposed_of_caught`, `swallows_of_exposed`: reading the text character by character, and the events one by one.
* `swallows_iff`: a bracket is taken for an argument exactly where a text that begins with it comes next after an item,
  a hard break or a table row, as in `Label`.
-/

namespace Folio
namespace Latex

open Markdown

/-! ### Brackets -/

/-- The command written for an event that takes a bracket behind it for an argument. -/
def command? : Event → Option (List Char)
  | .opened .item => some "\\item".toList
  | .hardBreak => some "\\\\".toList
  | .closed .tableHead => some "\\\\".toList
  | .closed .tableRow => some "\\\\".toList
  | _ => none

/-- Blanks with at most one line end. -/
def IsGap (text : List Char) : Prop :=
  (∀ c ∈ text, c = ' ' ∨ c = '\n') ∧ text.count '\n' ≤ 1

/-- A bracket of a text event stands behind a command that takes it for an argument. -/
def Swallows (out : Marked) : Prop :=
  ∃ before e command gap text after, command? e = some command ∧ IsGap (plain gap) ∧
    out = before ++ mark e command ++ gap ++ ('[', .text text) :: after

/-- What a bracket would be taken for that comes next: text, or an argument, also behind a line end or only before
one. -/
inductive Wait where
  | idle
  | acrossLine
  | sameLine
  deriving DecidableEq, Repr

namespace Wait

def next : Wait → Char → Wait
  | .idle, _ => .idle
  | w, ' ' => w
  | .acrossLine, '\n' => .sameLine
  | _, _ => .idle

def through (w : Wait) (text : List Char) : Wait :=
  text.foldl next w

/-- After an event for which a text is written. -/
def written (w : Wait) : Event → Wait
  | .opened .item => .acrossLine
  | .hardBreak => .sameLine
  | .closed .tableRow => .sameLine
  | .closed .item => w.next '\n'
  | .softBreak => w.next '\n'
  | .text text => w.through text.toList
  | _ => .idle

def step (w : Wait) (m : Mode) (e : Event) : Wait :=
  if chunk [] m e = [] then w else w.written e

end Wait

/-- A text event begins with a bracket, behind blanks and line ends, where it would be taken for an argument. -/
def Exposed (notes : Footnotes) (m : Mode) (w : Wait) : List Event → Prop
  | [] => False
  | e :: es =>
    (∃ text gap rest, e = .text text ∧ m.code = none ∧ text.toList = gap ++ '[' :: rest ∧ w.through gap ≠ .idle) ∨
      Exposed notes (m.next e (chunk notes m e)) (w.step m e) es

/-! ### Waiting over a text -/

/-- The characters that end the wait. -/
def visible (c : Char) : Bool :=
  c != ' ' && c != '\n'

theorem visible_of_special {c : Char} (h : c ∈ specials) : visible c = true := by
  have hall : ∀ d ∈ specials, visible d = true := List.all_iff_forall_prop.1 rfl
  exact hall c h

theorem visible_opening (m : Mode) (tag : Tag) : opening m tag = [] ∨ (opening m tag).any visible = true := by
  cases tag with
  | heading level => cases level <;> exact .inr rfl
  | codeBlock kind =>
    cases kind with
    | indented => exact .inl rfl
    | fenced info =>
      by_cases hinfo : info.isEmpty = true
      · exact .inl (if_pos hinfo)
      · exact .inr (congrArg (List.any · visible) (if_neg hinfo))
  | list start => cases start <;> exact .inr rfl
  | tableCell =>
    rw [opening_tableCell]
    split
    · exact .inl rfl
    · exact .inr rfl
  | blockQuote | item | table | emphasis | strong | strikethrough | link => exact .inr rfl
  | _ => exact .inl rfl

theorem closing_item_of_ne {m : Mode} (h : closing m .item ≠ []) : closing m .item = ['\n'] := by
  rw [closing_item] at h ⊢
  cases hline : m.lineStart with
  | false => rfl
  | true =>
    rw [hline] at h
    exact absurd rfl h

theorem chunk_text_of_ne {m : Mode} {text : String} (h : chunk [] m (.text text) ≠ []) :
    m.code = none ∧ chunk [] m (.text text) = escaped text := by
  rw [chunk_text] at h ⊢
  cases hcode : m.code with
  | none => exact ⟨rfl, rfl⟩
  | some code =>
    rw [hcode] at h
    exact absurd rfl h

namespace Wait

@[simp] theorem idle_through (text : List Char) : idle.through text = idle := by
  induction text with
  | nil => rfl
  | cons c cs ih => exact ih

theorem through_cons (w : Wait) (c : Char) (cs : List Char) : w.through (c :: cs) = (w.next c).through cs :=
  rfl

theorem through_append (w : Wait) (a b : List Char) : w.through (a ++ b) = (w.through a).through b :=
  List.foldl_append

theorem next_visible {c : Char} (h : visible c = true) (w : Wait) : w.next c = idle := by
  simp only [visible, Bool.and_eq_true, bne_iff_ne] at h
  obtain ⟨hspace, hline⟩ := h
  cases w with
  | idle => rfl
  | acrossLine =>
    unfold next
    split <;> simp_all
  | sameLine =>
    unfold next
    split <;> simp_all

theorem through_visible {text : List Char} (h : text.any visible = true) (w : Wait) : w.through text = idle := by
  obtain ⟨c, hc, hvisible⟩ := List.any_eq_true.1 h
  obtain ⟨a, b, rfl⟩ := List.append_of_mem hc
  rw [through_append]
  exact (congrArg (fun w => through w b) (next_visible hvisible _)).trans (idle_through b)

theorem through_escapeChar (w : Wait) (c : Char) : w.through (escapeChar c) = w.next c := by
  by_cases hspecial : c ∈ specials
  · rw [next_visible (visible_of_special hspecial)]
    exact through_visible (List.any_eq_true.2 ⟨_, backslash_mem_escapeChar hspecial, rfl⟩) w
  · rw [escapeChar_of_plain hspecial]
    rfl

theorem through_escaped (w : Wait) (text : List Char) : w.through (text.flatMap escapeChar) = w.through text := by
  induction text generalizing w with
  | nil => rfl
  | cons c cs ih =>
    rw [List.flatMap_cons, through_append, through_escapeChar, ih]
    rfl

theorem sameLine_through {text : List Char} : sameLine.through text ≠ idle ↔ ∀ c ∈ text, c = ' ' := by
  induction text with
  | nil => simp [through]
  | cons c cs ih =>
    by_cases hspace : c = ' '
    · subst hspace
      have hnext : sameLine.next ' ' = sameLine := rfl
      simpa [through_cons, hnext] using ih
    · have hnext : sameLine.next c = idle := by
        unfold next
        split <;> simp_all
      simp [through_cons, hnext, hspace]

theorem acrossLine_through {text : List Char} : acrossLine.through text ≠ idle ↔ IsGap text := by
  induction text with
  | nil => simp [through, IsGap]
  | cons c cs ih =>
    by_cases hspace : c = ' '
    · subst hspace
      have hnext : acrossLine.next ' ' = acrossLine := rfl
      simpa [through_cons, hnext, IsGap] using ih
    · by_cases hline : c = '\n'
      · subst hline
        have hnext : acrossLine.next '\n' = sameLine := rfl
        have hrest : (∀ c ∈ cs, c = ' ') ↔ (∀ c ∈ cs, c = ' ' ∨ c = '\n') ∧ '\n' ∉ cs := by
          grind
        rw [through_cons, hnext, sameLine_through, hrest]
        simp [IsGap, List.count_eq_zero]
      · have hvisible : visible c = true := by simp [visible, hspace, hline]
        simp [through_cons, next_visible hvisible, IsGap, hspace, hline]

end Wait

/-! ### Reading a marked text -/

def endsCommand (p : Char × Event) : Bool :=
  match command? p.2 with
  | some command => command.getLast? == some p.1
  | none => false

namespace Wait

def read (w : Wait) (p : Char × Event) : Wait :=
  if endsCommand p then .acrossLine else w.next p.1

def run (w : Wait) (out : Marked) : Wait :=
  out.foldl read w

/-- A bracket of a text event is taken for an argument, where `w` is the wait at the start. -/
def Caught : Wait → Marked → Prop
  | _, [] => False
  | w, p :: out => (w ≠ .idle ∧ p.1 = '[' ∧ ∃ text, p.2 = .text text) ∨ Caught (w.read p) out

theorem run_append (w : Wait) (a b : Marked) : w.run (a ++ b) = (w.run a).run b :=
  List.foldl_append

theorem caught_append {w : Wait} {a b : Marked} : w.Caught (a ++ b) ↔ w.Caught a ∨ (w.run a).Caught b := by
  induction a generalizing w with
  | nil => simp [Caught, run]
  | cons p a ih =>
    rw [List.cons_append, Caught, Caught, ih, or_assoc]
    rfl

theorem run_mark {e : Event} (h : command? e = none) (w : Wait) (text : List Char) :
    w.run (mark e text) = w.through text := by
  have hread : ∀ (w : Wait) (c : Char), w.read (c, e) = w.next c := by
    intro w c
    rw [read, endsCommand, h]
    rfl
  induction text generalizing w with
  | nil => rfl
  | cons c cs ih => exact (congrArg (fun w => run w (mark e cs)) (hread w c)).trans (ih _)

theorem command?_cases {e : Event} {command : List Char} (h : command? e = some command) :
    e = .opened .item ∧ command = "\\item".toList ∨
      (e = .hardBreak ∨ e = .closed .tableHead ∨ e = .closed .tableRow) ∧ command = "\\\\".toList := by
  unfold command? at h
  split at h <;> simp_all

theorem run_command {e : Event} {command : List Char} (h : command? e = some command) (w : Wait) :
    w.run (mark e command) = acrossLine := by
  obtain ⟨rfl, rfl⟩ | ⟨rfl | rfl | rfl, rfl⟩ := command?_cases h <;> rfl

/-- No command ends in a blank. -/
theorem run_gap {gap : Marked} (h : ∀ c ∈ plain gap, c = ' ' ∨ c = '\n') (w : Wait) :
    w.run gap = w.through (plain gap) := by
  induction gap generalizing w with
  | nil => rfl
  | cons p gap ih =>
    have hblank : p.1 = ' ' ∨ p.1 = '\n' := h p.1 List.mem_cons_self
    have hread : w.read p = w.next p.1 := by
      have hends : endsCommand p = false := by
        unfold endsCommand
        split
        · next command hcommand =>
          obtain ⟨-, rfl⟩ | ⟨-, rfl⟩ := command?_cases hcommand <;> obtain heq | heq := hblank <;> rw [heq] <;> decide
        · rfl
      rw [read, hends]
      rfl
    have hrest : ∀ c ∈ plain gap, c = ' ' ∨ c = '\n' := fun c hc => h c (List.mem_cons_of_mem _ hc)
    exact (congrArg (fun w => run w gap) hread).trans (ih hrest _)

theorem caught_of_swallows {out : Marked} (h : Swallows out) : idle.Caught out := by
  obtain ⟨before, e, command, gap, text, after, hcommand, hgap, rfl⟩ := h
  have hwait : idle.run (before ++ mark e command ++ gap) ≠ idle := by
    rw [run_append, run_append, run_command hcommand, run_gap hgap.1]
    exact acrossLine_through.2 hgap
  rw [caught_append]
  exact .inr (.inl ⟨hwait, rfl, text, rfl⟩)

/-! ### The text of an event -/

theorem mem_of_caught {w : Wait} {out : Marked} (h : w.Caught out) : ∃ text, ('[', .text text) ∈ out := by
  induction out generalizing w with
  | nil => exact h.elim
  | cons p out ih =>
    obtain ⟨-, hbracket, text, htext⟩ | hrest := h
    · exact ⟨text, List.mem_cons.2 (.inl (Prod.ext hbracket.symm htext.symm))⟩
    · obtain ⟨text, hmem⟩ := ih hrest
      exact ⟨text, List.mem_cons_of_mem p hmem⟩

theorem not_caught_mark {e : Event} (h : ∀ text, e ≠ .text text) (w : Wait) (text : List Char) :
    ¬ w.Caught (mark e text) := by
  intro hcaught
  obtain ⟨other, hmem⟩ := mem_of_caught hcaught
  obtain ⟨c, -, heq⟩ := List.mem_map.1 hmem
  exact h other (congrArg Prod.snd heq)

theorem caught_text {t : String} {w : Wait} {text : List Char}
    (h : w.Caught (mark (.text t) (text.flatMap escapeChar))) :
    ∃ gap rest, text = gap ++ '[' :: rest ∧ w.through gap ≠ idle := by
  induction text generalizing w with
  | nil => exact h.elim
  | cons c cs ih =>
    rw [List.flatMap_cons, mark_append, caught_append] at h
    obtain hhead | hrest := h
    · have hspecial : c ∉ specials := by
        intro hspecial
        have hnone : ∀ d ∈ specials, '[' ∉ escapeChar d := List.all_iff_forall_prop.1 rfl
        obtain ⟨other, hmem⟩ := mem_of_caught hhead
        obtain ⟨d, hd, heq⟩ := List.mem_map.1 hmem
        rw [Prod.mk.injEq] at heq
        exact hnone c hspecial (heq.1 ▸ hd)
      rw [escapeChar_of_plain hspecial] at hhead
      obtain ⟨hwait, hbracket, -⟩ | hnil := hhead
      · obtain rfl : c = '[' := hbracket
        exact ⟨[], cs, rfl, hwait⟩
      · exact hnil.elim
    · rw [run_mark rfl, through_escapeChar] at hrest
      obtain ⟨gap, rest, rfl, hgap⟩ := ih hrest
      exact ⟨c :: gap, rest, rfl, hgap⟩

theorem run_visible {e : Event} (hcommand : command? e = none) {text : List Char} (h : text.any visible = true)
    (w : Wait) : w.run (mark e text) = idle := by
  rw [run_mark hcommand, through_visible h]

theorem run_opening {m : Mode} {tag : Tag} (h : opening m tag ≠ []) (w : Wait) :
    w.run (mark (.opened tag) (opening m tag)) = w.written (.opened tag) := by
  have hvisible := (visible_opening m tag).resolve_left h
  cases tag with
  | item => cases w <;> rfl
  | _ => exact run_visible rfl hvisible w

theorem run_closing {m : Mode} {tag : TagEnd} (h : closing m tag ≠ []) (w : Wait) :
    w.run (mark (.closed tag) (closing m tag)) = w.written (.closed tag) := by
  cases tag with
  | paragraph => cases w <;> rfl
  | tableHead =>
    -- The rule behind the line ends the wait.
    cases w <;> rfl
  | tableRow => cases w <;> rfl
  | item =>
    rw [closing_item_of_ne h, run_mark rfl]
    rfl
  | list ordered => cases ordered <;> exact run_visible rfl rfl w
  | heading | blockQuote | codeBlock | table | emphasis | strong | strikethrough | link => exact run_visible rfl rfl w
  | _ => exact absurd rfl h

theorem run_chunk (w : Wait) (m : Mode) (e : Event) : w.run (mark e (chunk [] m e)) = w.step m e := by
  by_cases hnil : chunk [] m e = []
  · rw [hnil, step, if_pos hnil]
    rfl
  · rw [step, if_neg hnil]
    cases e with
    | opened tag => exact run_opening hnil w
    | closed tag => exact run_closing hnil w
    | text text =>
      rw [(chunk_text_of_ne hnil).2, run_mark rfl]
      exact through_escaped w text.toList
    | softBreak => cases w <;> rfl
    | hardBreak => cases w <;> rfl
    | taskMarker checked => cases checked <;> exact run_visible rfl rfl w
    | code | footnoteReference | rule => exact run_visible rfl rfl w
    | _ => exact absurd rfl hnil

theorem step_footnoteReference (w : Wait) (m : Mode) (label : String) : w.step m (.footnoteReference label) = idle :=
  if_neg (List.cons_ne_nil _ _)

theorem run_markedChunk (bodies : Bodies) (w : Wait) (m : Mode) (e : Event) :
    w.run (markedChunk bodies m e) = w.step m e := by
  cases hbody : bodies.body? e with
  | none =>
    rw [markedChunk, hbody]
    exact run_chunk w m e
  | some body =>
    obtain ⟨label, rfl, -⟩ := Bodies.exists_label hbody
    rw [markedChunk, hbody, step_footnoteReference, run_append]
    exact run_visible rfl (by decide) _

/-- A bracket that is taken for an argument stands in a text event, or in a footnote. -/
theorem caught_markedChunk {bodies : Bodies} {w : Wait} {m : Mode} {e : Event} (h : w.Caught (markedChunk bodies m e)) :
    (∃ text gap rest, e = .text text ∧ m.code = none ∧ text.toList = gap ++ '[' :: rest ∧ w.through gap ≠ idle) ∨
      ∃ label body, e = .footnoteReference label ∧ bodies.reverse.lookup label = some body ∧ idle.Caught body := by
  cases hbody : bodies.body? e with
  | some body =>
    obtain ⟨label, rfl, hlookup⟩ := Bodies.exists_label hbody
    refine .inr ⟨label, body, rfl, hlookup, ?_⟩
    rw [markedChunk, hbody] at h
    simp only [caught_append, run_append] at h
    obtain (hleft | hinside) | hright := h
    · exact absurd hleft (not_caught_mark (by simp) w _)
    · rwa [run_visible rfl (by decide)] at hinside
    · exact absurd hright (not_caught_mark (by simp) _ _)
  | none =>
    rw [markedChunk, hbody] at h
    left
    by_cases htext : ∃ text, e = .text text
    · obtain ⟨text, rfl⟩ := htext
      have hwritten : chunk [] m (.text text) ≠ [] := by
        intro hnil
        rw [hnil] at h
        exact h
      obtain ⟨hcode, heq⟩ := chunk_text_of_ne hwritten
      simp only [heq, escaped] at h
      obtain ⟨gap, rest, hgap, hwait⟩ := caught_text h
      exact ⟨text, gap, rest, rfl, hcode, hgap, hwait⟩
    · exact absurd h (not_caught_mark (fun text heq => htext ⟨text, heq⟩) w _)

/-- What is caught in the text of a stream is exposed in the stream, or is caught in a footnote that is referred to. -/
theorem exposed_of_caught {bodies : Bodies} {es : List Event} {m : Mode} {w : Wait}
    (h : w.Caught (marked bodies m es)) :
    Exposed bodies.plain m w es ∨
      ∃ label body, .footnoteReference label ∈ es ∧ bodies.reverse.lookup label = some body ∧ idle.Caught body := by
  -- The wait at an event is the one at which the text before it has been read.
  induction es generalizing m w with
  | nil => exact h.elim
  | cons e es ih =>
    rw [marked, plain_markedChunk, caught_append, run_markedChunk] at h
    obtain hhead | hrest := h
    · obtain hexposed | ⟨label, body, rfl, hlookup, hcaught⟩ := caught_markedChunk hhead
      · exact .inl (.inl hexposed)
      · exact .inr ⟨label, body, List.mem_cons_self, hlookup, hcaught⟩
    · obtain hexposed | ⟨label, body, hmem, hlookup, hcaught⟩ := ih hrest
      · exact .inl (.inr hexposed)
      · exact .inr ⟨label, body, List.mem_cons_of_mem e hmem, hlookup, hcaught⟩

end Wait

/-! ### From exposed texts to brackets -/

/-- A command stands before a gap behind which the wait is `w`. -/
def Behind (out : Marked) (w : Wait) : Prop :=
  ∃ before e command gap, command? e = some command ∧ out = before ++ mark e command ++ gap ∧
    Wait.acrossLine.through (plain gap) = w

theorem Behind.through {out : Marked} {w : Wait} (h : Behind out w) (e : Event) (text : List Char) :
    Behind (out ++ mark e text) (w.through text) := by
  obtain ⟨before, source, command, gap, hcommand, rfl, rfl⟩ := h
  refine ⟨before, source, command, gap ++ mark e text, hcommand, by simp, ?_⟩
  rw [plain_append, plain_mark, Wait.through_append]

theorem ne_idle_of_through {w : Wait} {text : List Char} (h : w.through text ≠ .idle) : w ≠ .idle := by
  rintro rfl
  exact h (Wait.idle_through text)

theorem Behind.step {out : Marked} {w : Wait} (h : w ≠ .idle → Behind out w) (bodies : Bodies) {m : Mode} {e : Event}
    (hstep : w.step m e ≠ .idle) : Behind (out ++ markedChunk bodies m e) (w.step m e) := by
  have hbody : bodies.body? e = none := by
    cases hbody : bodies.body? e with
    | none => rfl
    | some body =>
      obtain ⟨label, rfl, -⟩ := Bodies.exists_label hbody
      exact absurd (Wait.step_footnoteReference w m label) hstep
  rw [markedChunk, hbody]
  by_cases hnil : chunk [] m e = []
  · rw [Wait.step, if_pos hnil] at hstep ⊢
    simpa [hnil] using h hstep
  · rw [Wait.step, if_neg hnil] at hstep ⊢
    -- Either the event writes a command, or what it writes continues the gap.
    have hcontinue : ∀ text, chunk [] m e = text → w.written e = w.through text →
        Behind (out ++ mark e (chunk [] m e)) (w.written e) := by
      rintro text rfl heq
      rw [heq] at hstep ⊢
      exact (h (ne_idle_of_through hstep)).through e _
    cases e with
    | opened tag =>
      cases tag with
      | item =>
        refine ⟨out, .opened .item, _, mark (.opened .item) [' '], rfl, ?_, rfl⟩
        rw [List.append_assoc, ← mark_append]
        rfl
      | _ => exact absurd rfl hstep
    | closed tag =>
      cases tag with
      | tableRow =>
        let e := Event.closed .tableRow
        refine ⟨out ++ mark e [' '], e, _, mark e ['\n'], rfl, ?_, rfl⟩
        rw [List.append_assoc, List.append_assoc, ← mark_append, ← mark_append]
        rfl
      | item => exact hcontinue _ (closing_item_of_ne hnil) rfl
      | _ => exact absurd rfl hstep
    | hardBreak =>
      refine ⟨out, .hardBreak, _, mark .hardBreak ['\n'], rfl, ?_, rfl⟩
      rw [List.append_assoc, ← mark_append]
      rfl
    | softBreak => exact hcontinue _ rfl rfl
    | text text => exact hcontinue _ (chunk_text_of_ne hnil).2 (Wait.through_escaped w _).symm
    | _ => exact absurd rfl hstep

theorem escaped_gap {w : Wait} {gap : List Char} (h : w.through gap ≠ .idle) : gap.flatMap escapeChar = gap := by
  have hplain : ∀ c ∈ gap, escapeChar c = [c] := by
    intro c hc
    refine escapeChar_of_plain fun hspecial => h ?_
    exact Wait.through_visible (List.any_eq_true.2 ⟨c, hc, visible_of_special hspecial⟩) w
  rw [List.flatMap_congr hplain, List.flatMap_singleton']

theorem swallows_append {bodies : Bodies} {es : List Event} {m : Mode} {w : Wait} {out : Marked}
    (hw : w ≠ .idle → Behind out w) (h : Exposed bodies.plain m w es) : Swallows (out ++ marked bodies m es) := by
  induction es generalizing m w out with
  | nil => exact h.elim
  | cons e es ih =>
    obtain ⟨text, gap, rest, rfl, hcode, htext, hwait⟩ | hrest := h
    · obtain ⟨before, source, command, gap', hcommand, hout, hthrough⟩ :=
        (hw (ne_idle_of_through hwait)).through (.text text) gap
      have hchunk : markedChunk bodies m (.text text) =
          mark (.text text) gap ++ ('[', .text text) :: mark (.text text) (rest.flatMap escapeChar) := by
        have hescaped : escaped text = gap ++ '[' :: rest.flatMap escapeChar := by
          rw [escaped, htext, List.flatMap_append, escaped_gap hwait]
          rfl
        have hwritten : chunk [] m (.text text) = escaped text := by rw [chunk_text, hcode]
        rw [markedChunk_text, hwritten, hescaped, mark_append]
        rfl
      have hgap : IsGap (plain gap') := by
        rw [← Wait.acrossLine_through, hthrough]
        exact hwait
      rw [marked, hchunk, List.append_assoc, ← List.append_assoc out, hout]
      exact ⟨before, source, command, gap', text, _, hcommand, hgap, rfl⟩
    · rw [marked, ← List.append_assoc, plain_markedChunk]
      exact ih (Behind.step hw bodies) hrest

theorem swallows_of_exposed {bodies : Bodies} {es : List Event} {m : Mode} (h : Exposed bodies.plain m .idle es) :
    Swallows (marked bodies m es) :=
  @swallows_append bodies es m .idle [] (fun hidle => absurd rfl hidle) h

theorem Swallows.of_infix {out out' : Marked} (h : Swallows out) (hwithin : out <:+: out') : Swallows out' := by
  obtain ⟨before, e, command, gap, text, after, hcommand, hgap, rfl⟩ := h
  obtain ⟨left, right, rfl⟩ := hwithin
  exact ⟨left ++ before, e, command, gap, text, after ++ right, hcommand, hgap, by simp⟩

theorem Swallows.trim {out : Marked} (h : Swallows out) : Swallows (trimMarked out) := by
  obtain ⟨before, e, command, gap, text, after, hcommand, hgap, rfl⟩ := h
  have hkeep : ∀ a : Marked, ∃ rest, trimMarked (a ++ ('[', .text text) :: after) = a ++ ('[', .text text) :: rest := by
    intro a
    -- The bracket is no blank, so that only text behind it is cut.
    have hbracket : Text.isBlank '[' = false := by decide
    simp only [trimMarked, List.rdropWhile, List.reverse_append, List.reverse_cons, List.append_assoc,
      List.singleton_append, List.dropWhile_append, List.dropWhile_cons, hbracket]
    split
    · exact ⟨[], by simp⟩
    · exact ⟨_, by simp; rfl⟩
  obtain ⟨rest, hrest⟩ := hkeep (before ++ mark e command ++ gap)
  exact ⟨before, e, command, gap, text, rest, hcommand, hgap, hrest⟩

theorem infix_marked {bodies : Bodies} {es : List Event} {label : String} {body : Marked}
    (hmem : .footnoteReference label ∈ es) (hlookup : bodies.reverse.lookup label = some body) (m : Mode) :
    body <:+: marked bodies m es := by
  induction es generalizing m with
  | nil => cases hmem
  | cons e es ih =>
    rw [marked]
    obtain rfl | hrest := List.mem_cons.1 hmem
    · have hchunk : body <:+: markedChunk bodies m (.footnoteReference label) := by
        rw [markedChunk, Bodies.body?, hlookup]
        exact List.infix_append _ body _
      exact hchunk.trans (List.prefix_append _ _).isInfix
    · exact (ih hrest _).trans (List.suffix_append _ _).isInfix

theorem lookup_markedFootnotes (es : List Event) (label : String) :
    (markedFootnotes es).reverse.lookup label =
      ((definitions es).reverse.lookup label).map fun body => trimMarked (marked [] (Mode.after []) body) := by
  rw [← lookup_map, markedFootnotes, List.map_reverse]

/-- In the text of a stream, and in its footnotes, a bracket of a text is taken for an argument exactly where the stream
or the footnote exposes it. -/
theorem swallows_iff (text : String) (es : List Event) :
    let main := mainText 0 es
    let out := marked (markedFootnotes es) (Mode.after text.toList) main
    write text es = text ++ String.ofList (plain out) ∧
      (Swallows out ↔
        Exposed (footnotes es) (Mode.after text.toList) .idle main ∨
          ∃ label body, .footnoteReference label ∈ main ∧ (definitions es).reverse.lookup label = some body ∧
            Exposed [] (Mode.after []) .idle body) := by
  intro main out
  refine ⟨?_, fun h => ?_, fun h => ?_⟩
  · rw [write, plain_marked, plain_markedFootnotes]
  · obtain hexposed | ⟨label, found, hmem, hlookup, hcaught⟩ := Wait.exposed_of_caught (Wait.caught_of_swallows h)
    · rw [plain_markedFootnotes] at hexposed
      exact .inl hexposed
    · rw [lookup_markedFootnotes, Option.map_eq_some_iff] at hlookup
      obtain ⟨body, hbody, rfl⟩ := hlookup
      refine .inr ⟨label, body, hmem, hbody, ?_⟩
      -- Trimming only cuts the end, so the bracket stands in the whole text of the footnote.
      have hwhole : Wait.idle.Caught (marked [] (Mode.after []) body) := by
        obtain ⟨rest, hrest⟩ : trimMarked (marked [] (Mode.after []) body) <+: marked [] (Mode.after []) body :=
          List.rdropWhile_prefix _ _
        rw [← hrest, Wait.caught_append]
        exact .inl hcaught
      obtain hexposed | ⟨other, none, -, hnone, -⟩ := Wait.exposed_of_caught hwhole
      · exact hexposed
      · cases hnone
  · obtain hexposed | ⟨label, body, hmem, hbody, hexposed⟩ := h
    · rw [← plain_markedFootnotes] at hexposed
      exact swallows_of_exposed hexposed
    · have hlookup := lookup_markedFootnotes es label
      rw [hbody] at hlookup
      have hinside : Swallows (marked [] (Mode.after []) body) := swallows_of_exposed hexposed
      exact hinside.trim.of_infix (infix_marked hmem hlookup _)

namespace Label

def document : String :=
  "- [x] done\n"

/-- The text in brackets becomes the label of the item. -/
theorem swallows_label :
    Nested .anywhere (events document) ∧
      write "" (events document) = "\\begin\x7bitemize\x7d\n\\item [x] done\n\\end\x7bitemize\x7d\n\n" ∧
      Swallows (marked (markedFootnotes (events document)) (Mode.after []) (mainText 0 (events document))) := by
  have hevents : events document = [.opened (.list none), .opened .item, .text "[", .text "x", .text "]", .text " done",
      .closed .item, .closed (.list false)] := by
    cbv
  refine ⟨nested_events document, ?_, ?_⟩
  · rw [hevents]
    decide +kernel
  · rw [hevents]
    let m := Mode.after []
    have hwait : ((Wait.idle.step m (.opened (.list none))).step m (.opened .item)) ≠ .idle := by decide +kernel
    exact swallows_of_exposed (.inr (.inr (.inl ⟨"[", [], [], rfl, rfl, rfl, hwait⟩)))

end Label

end Latex
end Folio

import Folio.Proofs.Latex.Boundary
import Folio.Proofs.Latex.Escaping

/-!
# Folio.Proofs.Latex.Printed

How often footnotes are printed.

* `parts`: the events of a stream, each with what is written for it.
* `exists_of_footnote`: only for a reference a footnote is written.
* `write_footnotes`: a footnote is printed once for each reference of the main text, and nowhere else.
* `Repeated`: a footnote that is printed twice.
-/

namespace Folio
namespace Latex

open Markdown

/-! ### Parts of the text -/

/-- The events of a stream, each with what is written for it. -/
def parts (notes : Footnotes) (m : Mode) : List Event → List (Event × List Char)
  | [] => []
  | e :: es => (e, chunk notes m e) :: parts notes (m.next e (chunk notes m e)) es

section Parts

variable {notes : Footnotes} {es : List Event}

theorem flatMap_parts (notes : Footnotes) (m : Mode) (es : List Event) :
    (parts notes m es).flatMap Prod.snd = emit notes m es := by
  induction es generalizing m with
  | nil => rfl
  | cons e es ih => simp [parts, emit, ih]

theorem map_parts (notes : Footnotes) (m : Mode) (es : List Event) : (parts notes m es).map Prod.fst = es := by
  induction es generalizing m with
  | nil => rfl
  | cons e es ih => simp [parts, ih]

theorem parts_split (notes : Footnotes) (m : Mode) (as : List Event) (e : Event) (bs : List Event) :
    parts notes m (as ++ e :: bs) = parts notes m as ++
      (e, chunk notes (m.through notes as) e) :: parts notes (m.through notes (as ++ [e])) bs := by
  induction as generalizing m with
  | nil => rfl
  | cons a as ih => simp [parts, Mode.through, ih]

theorem exists_of_mem_parts {m : Mode} {p : Event × List Char} (h : p ∈ parts notes m es) :
    ∃ m', p = (p.1, chunk notes m' p.1) := by
  induction es generalizing m with
  | nil => cases h
  | cons e es ih =>
    obtain rfl | hmem := List.mem_cons.1 h
    · exact ⟨m, rfl⟩
    · exact ih hmem

/-- An event for which the same is written everywhere is found as often among the parts as in the stream. -/
theorem count_parts {e : Event} {written : List Char} (h : ∀ m, chunk notes m e = written) (m : Mode) :
    (parts notes m es).count (e, written) = es.count e := by
  induction es generalizing m with
  | nil => rfl
  | cons e' es ih =>
    rw [parts, List.count_cons, List.count_cons, ih]
    by_cases he : e' = e
    · subst he
      simp [h]
    · have hne : (e', chunk notes m e') ≠ (e, written) := fun heq => he (congrArg Prod.fst heq)
      simp [he, hne]

theorem second_listing (code : List Char) : (listing code)[1]? ≠ some 'f' :=
  (by decide : some 'b' ≠ some 'f')

theorem second_closing (m : Mode) (tag : TagEnd) : (closing m tag)[1]? ≠ some 'f' := by
  fun_cases closing m tag
  case case4 => exact second_listing _
  all_goals decide

theorem second_opening (m : Mode) (tag : Tag) : (opening m tag)[1]? ≠ some 'f' := by
  fun_cases opening m tag
  case case1 level => cases level <;> decide
  case case4 info => simp
  case case8 columns => simp
  case case14 kind url title => simp
  all_goals decide

/-- A backslash in escaped text begins one of the escape sequences. -/
theorem not_prefix_escaped (text : List Char) : ¬ ['\\', 'f'] <+: text.flatMap escapeChar := by
  cases text with
  | nil => simp
  | cons c cs =>
    rw [List.flatMap_cons]
    obtain ⟨hplain, heq⟩ | ⟨hmark, heq⟩ | ⟨symbol, hsymbol, heq⟩ := escapeChar_cases c
    · have hslash : '\\' ≠ c := by
        rintro rfl
        exact hplain (by decide)
      simp [heq, hslash]
    · have hletter : 'f' ≠ c := by
        rintro rfl
        exact absurd hmark (by decide)
      simp [heq, hletter]
    · rw [heq]
      simp only [symbols, List.mem_cons, List.not_mem_nil, or_false] at hsymbol
      obtain rfl | rfl | rfl := hsymbol <;> simp

/-- Only for a reference to a footnote a footnote is written. -/
theorem exists_of_footnote {m : Mode} {e : Event} (h : "\\footnote\x7b".toList <+: chunk notes m e) :
    ∃ label, e = .footnoteReference label ∧ notes.body? label ≠ none := by
  -- The letter behind the backslash tells a footnote from all else that is written.
  have hshort : ['\\', 'f'] <+: chunk notes m e := .trans (by decide) h
  have hsecond : (chunk notes m e)[1]? = some 'f' := by
    obtain ⟨rest, hrest⟩ := hshort
    rw [← hrest]
    rfl
  cases e with
  | opened tag => exact absurd hsecond (second_opening m tag)
  | closed tag => exact absurd hsecond (second_closing m tag)
  | text text =>
    rw [chunk_text] at hshort
    split at hshort
    · simp at hshort
    · exact absurd hshort (not_prefix_escaped _)
  | footnoteReference label =>
    refine ⟨label, rfl, fun hnone => ?_⟩
    rw [chunk_footnoteReference, hnone] at hsecond
    exact absurd hsecond (by decide : some 't' ≠ some 'f')
  | code text => exact absurd hsecond (by decide : some 't' ≠ some 'f')
  | taskMarker checked =>
    cases checked with
    | true => exact absurd hsecond (by decide : some 'x' ≠ some 'f')
    | false => exact absurd hsecond (by decide : some ' ' ≠ some 'f')
  | softBreak => exact absurd hsecond (by decide : none ≠ some 'f')
  | hardBreak => exact absurd hsecond (by decide : some '\\' ≠ some 'f')
  | rule => exact absurd hsecond (by decide : some 'n' ≠ some 'f')
  | _ => exact absurd hsecond (by decide : none ≠ some 'f')

end Parts

/-- Where labels differ, a footnote is printed at the first reference to its label in the main text, and once for each
reference behind it. No footnote is printed elsewhere, neither for another event of the main text nor in a footnote. -/
theorem write_footnotes {es : List Event} (hlabels : ((definitions es).map Prod.fst).Nodup) {label : String}
    {body : List Event} (hmem : (label, body) ∈ definitions es) (text : String) :
    let main := mainText 0 es
    let printed := parts (footnotes es) (Mode.after text.toList) main
    let footnote := (Event.footnoteReference label, footnoteText body)
    write text es = text ++ String.ofList (printed.flatMap Prod.snd) ∧
      printed.count footnote = main.count (.footnoteReference label) ∧
      (∀ as bs, main = as ++ .footnoteReference label :: bs → .footnoteReference label ∉ as →
        ∃ before behind, printed = before ++ footnote :: behind ∧ before.map Prod.fst = as ∧ behind.map Prod.fst = bs ∧
          before.count footnote = 0 ∧ behind.count footnote = bs.count (.footnoteReference label)) ∧
      (∀ p ∈ printed, "\\footnote\x7b".toList <+: p.2 →
        ∃ q ∈ definitions es, p = (.footnoteReference q.1, footnoteText q.2)) ∧
      ∀ q ∈ definitions es, ∀ p ∈ parts [] (Mode.after []) q.2, ¬ "\\footnote\x7b".toList <+: p.2 := by
  intro main printed footnote
  -- The last definition of a label counts. Where labels differ there is no other one.
  have hlookup : ∀ q ∈ definitions es, (definitions es).reverse.lookup q.1 = some q.2 := by
    intro q hq
    rw [lookup_reverse hlabels]
    exact lookup_of_mem hlabels hq
  have hchunk : ∀ m, chunk (footnotes es) m (.footnoteReference label) = footnoteText body :=
    chunk_of_lookup (hlookup _ hmem)
  refine ⟨?_, count_parts hchunk _, ?_, ?_, ?_⟩
  · rw [write, ← flatMap_parts]
  · intro as bs hsplit hfirst
    have hprinted := congrArg (parts (footnotes es) (Mode.after text.toList)) hsplit
    rw [parts_split, hchunk] at hprinted
    refine ⟨_, _, hprinted, map_parts _ _ as, map_parts _ _ bs, ?_, count_parts hchunk _⟩
    · rw [count_parts hchunk, List.count_eq_zero]
      exact hfirst
  · intro p hp hfootnote
    obtain ⟨m, hpart⟩ := exists_of_mem_parts hp
    rw [hpart] at hfootnote
    obtain ⟨other, hother, hsome⟩ := exists_of_footnote hfootnote
    rw [body?_eq_lookup] at hsome
    obtain ⟨found, hfound⟩ := Option.ne_none_iff_exists'.1 fun hnone => hsome (congrArg (Option.map _) hnone)
    refine ⟨(other, found), List.mem_reverse.1 (mem_of_lookup hfound), ?_⟩
    rw [hpart, hother, chunk_of_lookup hfound]
  · intro q hq p hp hfootnote
    obtain ⟨m, hpart⟩ := exists_of_mem_parts hp
    rw [hpart] at hfootnote
    obtain ⟨other, -, hsome⟩ := @exists_of_footnote [] m p.1 hfootnote
    exact hsome rfl

namespace Twice

/-- Two footnotes, one of them with two references. -/
def stream : List Event :=
  [.footnoteReference "b", .footnoteReference "a", .text "x", .footnoteReference "b"] ++ definition "a" [.text "y"] ++
    definition "b" [.text "z"]

theorem write_twice :
    ((definitions stream).map Prod.fst).Nodup ∧
      ("b", [.text "z"]) ∈ definitions stream ∧
      (parts (footnotes stream) (Mode.after "".toList) (mainText 0 stream)).count
        (.footnoteReference "b", footnoteText [.text "z"]) = 2 ∧
      write "" stream = "\\footnote\x7bz\x7d\\footnote\x7by\x7dx\\footnote\x7bz\x7d" := by
  have hdefinitions : definitions stream = [("a", [.text "y"]), ("b", [.text "z"])] := by
    simp [stream, definition, definitions, definitionBody]
  have hlabels : ((definitions stream).map Prod.fst).Nodup := by
    rw [hdefinitions]
    decide
  have hmem : ("b", [.text "z"]) ∈ definitions stream := by
    rw [hdefinitions]
    decide
  obtain ⟨hwritten, hcount, -⟩ := write_footnotes hlabels hmem ""
  refine ⟨hlabels, hmem, hcount, ?_⟩
  rw [hwritten, footnotes, hdefinitions]
  decide +kernel

end Twice

namespace Repeated

def document : String :=
  "x[^a] y[^a]\n\n[^a]: note\n"

def body : List Event :=
  inParagraph [.text "note"]

def stream : List Event :=
  inParagraph [.text "x", .footnoteReference "a", .text " y", .footnoteReference "a"] ++ definition "a" body

/-- Of two references both print the footnote. -/
theorem write_repeated :
    events document = stream ∧
      definitions stream = [("a", body)] ∧
      write "" stream = "x\\footnote\x7bnote\x7d y\\footnote\x7bnote\x7d\n\n" ∧
      (parts (footnotes stream) (Mode.after []) (mainText 0 stream)).count
        (.footnoteReference "a", footnoteText body) = 2 := by
  have hevents : events document = stream := by cbv
  have hdefinitions : definitions stream = [("a", body)] := by
    simp [stream, body, inParagraph, definition, definitions, definitionBody]
  refine ⟨hevents, hdefinitions, ?_, ?_⟩
  · rw [write, footnotes, hdefinitions]
    decide +kernel
  · rw [footnotes, hdefinitions]
    decide +kernel

end Repeated

end Latex
end Folio

import Folio.Proofs.Latex.Boundary

/-!
# Folio.Proofs.Latex.Reference

References to footnotes.

* `Unnested`: streams in which no footnote definition begins inside of another one.
* `ReferenceAt`: the places where a reference is written, in the main text or in a footnote at a reference to it.
* `write_reference`: a reference of the main text is written as the footnote with its label, and as a superscript where
  no footnote has the label, as are references in footnotes.
* `Lost`: a reference in a footnote whose label has a definition.
-/

namespace Folio
namespace Markdown

/-- Streams in which no footnote definition begins inside of another one, where `inside` says whether one is open at the
start. The last one may be left open. -/
def Unnested : Bool → List Event → Prop
  | _, [] => True
  | inside, .opened (.footnoteDefinition _) :: es => inside = false ∧ Unnested true es
  | _, .closed .footnoteDefinition :: es => Unnested false es
  | inside, _ :: es => Unnested inside es

end Markdown

namespace Latex

open Markdown

/-! ### Labels with a definition -/

section Definitions

variable {es : List Event} {label : String}

theorem unnested_definitionBody (h : Unnested true es) :
    Unnested false (definitionBody es).2 ∧
      (.opened (.footnoteDefinition label) ∈ es → .opened (.footnoteDefinition label) ∈ (definitionBody es).2) := by
  fun_induction definitionBody es with
  | case1 => exact ⟨trivial, id⟩
  | case2 es => exact ⟨h, fun hmem => by simpa using hmem⟩
  | case3 e es hclosed ih =>
    by_cases hopened : ∃ other, e = .opened (.footnoteDefinition other)
    · obtain ⟨other, rfl⟩ := hopened
      cases h.1
    · rw [not_exists] at hopened
      rw [Unnested.eq_4 _ _ _ hopened hclosed] at h
      obtain ⟨hbehind, hkeep⟩ := ih h
      refine ⟨hbehind, fun hmem => hkeep ?_⟩
      obtain heq | hmem := List.mem_cons.1 hmem
      · exact absurd heq.symm (hopened label)
      · exact hmem

/-- Each definition is found whose beginning stands outside of the other ones. -/
theorem exists_of_opened (h : Unnested false es) (hopened : .opened (.footnoteDefinition label) ∈ es) :
    ∃ body, (label, body) ∈ definitions es := by
  fun_induction definitions es with
  | case1 => cases hopened
  | case2 other es ih =>
    obtain ⟨hbehind, hkeep⟩ := @unnested_definitionBody es label h.2
    obtain heq | hmem := List.mem_cons.1 hopened
    · cases heq
      exact ⟨_, List.mem_cons_self⟩
    · obtain ⟨body, hbody⟩ := ih hbehind (hkeep hmem)
      exact ⟨body, List.mem_cons_of_mem _ hbody⟩
  | case3 e es hother ih =>
    have hes : Unnested false es := by
      by_cases hclosed : e = .closed .footnoteDefinition
      · subst hclosed
        exact h
      · rwa [Unnested.eq_4 _ _ _ hother hclosed] at h
    obtain heq | hmem := List.mem_cons.1 hopened
    · exact absurd heq.symm (hother label)
    · exact ih hes hmem

theorem lookup_of_opened (h : Unnested false es) (hopened : .opened (.footnoteDefinition label) ∈ es) :
    ∃ body, (definitions es).reverse.lookup label = some body := by
  obtain ⟨body, hbody⟩ := exists_of_opened h hopened
  exact exists_lookup (List.mem_reverse.2 hbody)

end Definitions

/-! ### Where references are written -/

/-- What is written for a reference without a footnote. -/
def superscript (label : String) : List Char :=
  "\\textsuperscript\x7b".toList ++ escaped label ++ "\x7d".toList

/-- Where a reference is written: in the main text, or in a footnote at a reference to it. The texts are what is written
before it and behind it. -/
inductive ReferenceAt (es : List Event) (m : Mode) (label : String) :
    (inNote : Bool) → List Char → List Char → Prop where
  | main {as bs : List Event} : mainText 0 es = as ++ .footnoteReference label :: bs →
      ReferenceAt es m label false (emit (footnotes es) m as)
        (emit (footnotes es) (m.through (footnotes es) (as ++ [.footnoteReference label])) bs)
  | note {outer : String} {as bs cs ds : List Event} : mainText 0 es = as ++ .footnoteReference outer :: bs →
      (definitions es).reverse.lookup outer = some (cs ++ .footnoteReference label :: ds) →
      ReferenceAt es m label true
        (emit (footnotes es) m as ++ "\\footnote\x7b".toList ++ emit [] (Mode.after []) cs)
        (Text.trimEnd (emit [] ((Mode.after []).through [] (cs ++ [.footnoteReference label])) ds) ++ "\x7d".toList ++
          emit (footnotes es) (m.through (footnotes es) (as ++ [.footnoteReference outer])) bs)

section Places

variable {es : List Event} {label : String}

theorem chunk_of_no_lookup (h : (definitions es).reverse.lookup label = none) (m : Mode) :
    chunk (footnotes es) m (.footnoteReference label) = superscript label := by
  rw [chunk_footnoteReference, body?_eq_lookup, h]
  rfl

theorem superscript_eq (label : String) :
    superscript label = "\\textsuperscript\x7b".toList ++ escaped label ++ ['}'] :=
  congrArg (_ ++ ·) (by decide : "\x7d".toList = ['}'])

/-- A superscript does not end in a blank, so that nothing before it is cut. -/
theorem trimEnd_superscript (label : String) (before behind : List Char) :
    Text.trimEnd (before ++ superscript label ++ behind) = before ++ superscript label ++ Text.trimEnd behind := by
  have hbrace : Text.isBlank '}' = false := by decide
  have hkeep := Text.trimEnd_concat hbrace (before ++ ("\\textsuperscript\x7b".toList ++ escaped label))
  rw [List.append_assoc before, ← superscript_eq] at hkeep
  rw [Text.trimEnd_append]
  split
  · next hnil => rw [hkeep, hnil, List.append_nil]
  · rfl

/-- References in footnotes are written as superscripts, also where their labels have definitions. -/
theorem footnoteText_reference (cs ds : List Event) (label : String) :
    footnoteText (cs ++ .footnoteReference label :: ds) =
      "\\footnote\x7b".toList ++ (emit [] (Mode.after []) cs ++ superscript label ++
        Text.trimEnd (emit [] ((Mode.after []).through [] (cs ++ [.footnoteReference label])) ds)) ++
          "\x7d".toList := by
  have hchunk : ∀ m, chunk [] m (.footnoteReference label) = superscript label := fun _ => rfl
  have hinside := emit_split [] (Mode.after []) cs (.footnoteReference label) ds
  rw [hchunk] at hinside
  have htrim := congrArg Text.trimEnd hinside
  rw [trimEnd_superscript] at htrim
  exact congrArg (fun inside => "\\footnote\x7b".toList ++ inside ++ "\x7d".toList) htrim

theorem write_in_note {m : Mode} {before after : List Char} (h : ReferenceAt es m label true before after) :
    emit (footnotes es) m (mainText 0 es) = before ++ superscript label ++ after := by
  cases h with
  | @note outer as bs cs ds hmain hlookup =>
    rw [hmain, emit_split, chunk_of_lookup hlookup, footnoteText_reference]
    simp

/-- A reference of the main text is written as the footnote with its label, the last one if there are several, and
nothing is lost that is referred to there. A reference without a definition is written as a superscript, also in a
footnote. -/
theorem write_reference (h : Unnested false es) {text : String} {inNote : Bool} {before after : List Char}
    (hat : ReferenceAt es (Mode.after text.toList) label inNote before after) :
    (.opened (.footnoteDefinition label) ∈ es → inNote = false →
      ∃ body, (definitions es).reverse.lookup label = some body ∧
        write text es = text ++ String.ofList (before ++ footnoteText body ++ after)) ∧
      (.opened (.footnoteDefinition label) ∉ es →
        write text es = text ++ String.ofList (before ++ superscript label ++ after)) := by
  constructor
  · intro hopened hmain
    obtain ⟨body, hbody⟩ := lookup_of_opened h hopened
    refine ⟨body, hbody, ?_⟩
    cases hat with
    | note => cases hmain
    | main hsplit => rw [write, hsplit, emit_split, chunk_of_lookup hbody]
  · intro hopened
    have hnone := lookup_of_not_opened hopened
    cases inNote with
    | true => rw [write, write_in_note hat]
    | false =>
      cases hat with
      | main hsplit => rw [write, hsplit, emit_split, chunk_of_no_lookup hnone]

end Places

namespace Mixed

/-- References to a footnote and to none, and one to none in the footnote. -/
def stream : List Event :=
  [.footnoteReference "a", .footnoteReference "b"] ++ definition "a" [.text "x", .footnoteReference "_"]

theorem write_mixed :
    Unnested false stream ∧
      write "" stream = "\\footnote\x7bx\\textsuperscript\x7b\\_\x7d\x7d\\textsuperscript\x7bb\x7d" ∧
      (∃ before behind, write "" stream = "" ++ String.ofList (before ++ superscript "b" ++ behind)) ∧
      ∃ before behind, write "" stream = "" ++ String.ofList (before ++ superscript "_" ++ behind) := by
  have hunnested : Unnested false stream := by simp [stream, definition, Unnested]
  have hdefinitions : definitions stream = [("a", [.text "x", .footnoteReference "_"])] := by
    simp [stream, definition, definitions, definitionBody]
  have hlookup : (definitions stream).reverse.lookup "a" = some ([.text "x"] ++ .footnoteReference "_" :: []) := by
    rw [hdefinitions]
    rfl
  have hleft : mainText 0 stream = [] ++ .footnoteReference "a" :: [.footnoteReference "b"] := rfl
  have hright : mainText 0 stream = [.footnoteReference "a"] ++ .footnoteReference "b" :: [] := rfl
  have hknown : ReferenceAt stream (Mode.after "".toList) "a" false _ _ := .main hleft
  have hunknown : ReferenceAt stream (Mode.after "".toList) "b" false _ _ := .main hright
  have hinside : ReferenceAt stream (Mode.after "".toList) "_" true _ _ := .note hleft hlookup
  refine ⟨hunnested, ?_, ?_, ?_⟩
  · obtain ⟨body, hbody, hwritten⟩ := (write_reference hunnested hknown).1 (by decide) rfl
    obtain rfl := Option.some.inj (hlookup.symm.trans hbody)
    rw [hwritten, footnotes, hdefinitions]
    decide +kernel
  · exact ⟨_, _, (write_reference hunnested hunknown).2 (by decide)⟩
  · exact ⟨_, _, (write_reference hunnested hinside).2 (by decide)⟩

end Mixed

namespace Lost

def document : String :=
  "x[^a]\n\n[^a]: see [^b]\n\n[^b]: gone\n"

def stream : List Event :=
  inParagraph [.text "x", .footnoteReference "a"] ++
    definition "a" (inParagraph [.text "see ", .footnoteReference "b"]) ++ definition "b" (inParagraph [.text "gone"])

/-- Where a footnote is referred to in another one, a superscript is written, and its text is lost. -/
theorem write_lost :
    events document = stream ∧
      Unnested false stream ∧
      (∃ before behind, ReferenceAt stream (Mode.after []) "b" true before behind) ∧
      .opened (.footnoteDefinition "b") ∈ stream ∧
      write "" stream = "x\\footnote\x7bsee \\textsuperscript\x7bb\x7d\x7d\n\n" ∧
      Text.contains "gone".toList (write "" stream).toList = false := by
  have hevents : events document = stream := by cbv
  have hdefinitions : definitions stream =
      [("a", inParagraph [.text "see ", .footnoteReference "b"]), ("b", inParagraph [.text "gone"])] := by
    simp [stream, inParagraph, definition, definitions, definitionBody]
  have hlookup : (definitions stream).reverse.lookup "a" =
      some ([.opened .paragraph, .text "see "] ++ .footnoteReference "b" :: [.closed .paragraph]) := by
    rw [hdefinitions]
    rfl
  have hmain : mainText 0 stream =
      [.opened .paragraph, .text "x"] ++ .footnoteReference "a" :: [.closed .paragraph] := rfl
  have hwritten : write "" stream = "x\\footnote\x7bsee \\textsuperscript\x7bb\x7d\x7d\n\n" := by
    rw [write, footnotes, hdefinitions]
    decide +kernel
  refine ⟨hevents, ?_, ⟨_, _, .note hmain hlookup⟩, by decide, hwritten, ?_⟩
  · simp [stream, inParagraph, definition, Unnested]
  · rw [hwritten]
    decide +kernel

end Lost

end Latex
end Folio

import Folio.Content
import Folio.Proofs.Latex.Escaping
import Folio.Proofs.Latex.WellFormed

/-!
# Folio.Proofs.Latex.Recovery

Code listings give back their code.

* `pieces`: the verbatim environments and the typewriter lines of a text. A comment lasts up to the end of its line,
  and an environment up to the first end mark. `Piece.lines` are the lines of a piece, `Piece.written` is its LaTeX form.
* `Listed`: a text from whose pieces the lines of a code are recovered.
* `codeBlock_listed`: so they are from what is written for a code block, and for a script.
-/

namespace Folio
namespace Latex

open Markdown

/-! ### Pieces of a listing -/

/-- What a listing is made of: the body of a verbatim environment, or a line of typewriter text. -/
inductive Piece where
  | verbatim (body : List Char)
  | typewriter (line : List Char)
  deriving DecidableEq, Repr

def typewriterMark : List Char :=
  "\\noindent\\texttt\x7b".toList

/-- The lines of a text, with no regard to carriage returns. -/
def literalLines : List Char → List (List Char)
  | [] => []
  | '\n' :: cs => [] :: literalLines cs
  | c :: cs =>
    match literalLines cs with
    | [] => [[c]]
    | line :: rest => (c :: line) :: rest

/-- The lines of a verbatim body, which begin behind the line of its begin mark. -/
def verbatimLines : List Char → List (List Char)
  | '\n' :: cs => literalLines cs
  | cs => literalLines cs

namespace Piece

def lines : Piece → List (List Char)
  | verbatim body => verbatimLines body
  | typewriter line => [line]

/-- The LaTeX form of a piece. -/
def written : Piece → List Char
  | verbatim body => verbatimBegin ++ body ++ verbatimEnd
  | typewriter line => ['\n'] ++ typewriterMark ++ line.flatMap escapeChar ++ ['}', '\n']

end Piece

def Token.piece? : Token → Option Piece
  | .verbatim body => some (.verbatim body)
  | _ => none

/-- The pieces of a text, one after the other. -/
def pieces (text : List Char) : List Piece :=
  if typewriterMark.isPrefixOf text then
    let argument := unescape (text.drop typewriterMark.length)
    .typewriter argument.1 :: pieces argument.2
  else
    match _h : token? text with
    | none => []
    | some (t, rest) => t.piece?.toList ++ pieces rest
termination_by text.length
decreasing_by
  · next hmark =>
    have hlength := length_unescape (text.drop typewriterMark.length)
    have hprefix := (List.isPrefixOf_iff_prefix.1 hmark).length_le
    have hpositive : 0 < typewriterMark.length := by decide
    rw [List.length_drop] at hlength
    omega
  · exact length_token _h

theorem pieces_of_token {text rest : List Char} {t : Token} (hmark : ¬ typewriterMark <+: text)
    (h : token? text = some (t, rest)) : pieces text = t.piece?.toList ++ pieces rest := by
  rw [pieces, if_neg (by rwa [List.isPrefixOf_iff_prefix])]
  split
  · next h' => rw [h] at h'; cases h'
  · next h' => rw [h] at h'; cases h'; rfl

/-- A typewriter line begins with a backslash and the letter n. -/
theorem not_typewriterMark {c : Char} {text : List Char} (h : ¬ ['\\', 'n'] <+: c :: text) :
    ¬ typewriterMark <+: c :: text := by
  have hstart : ['\\', 'n'] <+: typewriterMark := List.isPrefixOf_iff_prefix.1 (by decide)
  exact fun hmark => h (hstart.trans hmark)

theorem pieces_newline (rest : List Char) : pieces ('\n' :: rest) = pieces rest := by
  have hmark : ¬ typewriterMark <+: '\n' :: rest := not_typewriterMark (by simp [List.cons_prefix_cons])
  exact pieces_of_token hmark rfl

theorem pieces_typewriter (line rest : List Char) :
    pieces ((Piece.typewriter line).written ++ rest) = .typewriter line :: pieces rest := by
  have hargument := unescape_escaped line ('\n' :: rest)
  have htext : (Piece.typewriter line).written ++ rest =
      '\n' :: (typewriterMark ++ (line.flatMap escapeChar ++ '}' :: '\n' :: rest)) := by
    simp only [Piece.written, List.cons_append, List.nil_append, List.append_assoc]
  rw [htext, pieces_newline, pieces, if_pos (List.isPrefixOf_iff_prefix.2 (List.prefix_append _ _)), List.drop_left,
    hargument]
  dsimp only
  rw [pieces_newline]

theorem pieces_verbatim {body : List Char} (h : Passes verbatimEnd body) (rest : List Char) :
    pieces ((Piece.verbatim body).written ++ rest) = .verbatim body :: pieces rest := by
  refine pieces_of_token ?_ (token_verbatim h rest)
  have hbegin : verbatimBegin = '\\' :: 'b' :: "egin\x7bverbatim\x7d".toList := by decide
  rw [hbegin]
  exact not_typewriterMark (by simp [List.cons_prefix_cons])

theorem pieces_nil : pieces [] = [] := by
  rw [pieces, if_neg (by decide)]
  split
  · rfl
  · next h => cases h

theorem pieces_language (m : Mode) {kind : CodeKind} (h : ∀ info, kind = .fenced info → '\n' ∉ info.toList)
    (rest : List Char) : pieces (opening m (.codeBlock kind) ++ rest) = pieces rest := by
  cases kind with
  | indented => rfl
  | fenced info =>
    show pieces ((if info.isEmpty then [] else "% language: ".toList ++ info.toList ++ ['\n']) ++ rest) = pieces rest
    split
    · rfl
    · have hline : '\n' ∉ " language: ".toList ++ info.toList := by
        rw [List.mem_append, not_or]
        exact ⟨by decide, h info rfl⟩
      have htext : "% language: ".toList ++ info.toList ++ ['\n'] ++ rest =
          '%' :: (" language: ".toList ++ info.toList ++ '\n' :: rest) := by
        simp
      have hmark : ¬ typewriterMark <+: '%' :: (" language: ".toList ++ info.toList ++ '\n' :: rest) :=
        not_typewriterMark (by simp [List.cons_prefix_cons])
      rw [htext, pieces_of_token hmark (token_comment hline rest)]
      exact pieces_newline rest

/-! ### The pieces that are written -/

/-- The body of an environment with these lines. -/
def verbatimBody (lines : List (List Char)) : List Char :=
  '\n' :: lines.flatMap (· ++ ['\n'])

/-- The pieces for some lines, where `done` are the lines of the open environment. -/
def listedPieces : List (List Char) → List (List Char) → List Piece
  | done, [] => [.verbatim (verbatimBody done)]
  | done, line :: lines =>
    if Text.contains verbatimEnd line then .verbatim (verbatimBody done) :: .typewriter line :: listedPieces [] lines
    else listedPieces (done ++ [line]) lines

theorem literalLines_append {line : List Char} (h : '\n' ∉ line) (rest : List Char) :
    literalLines (line ++ '\n' :: rest) = line :: literalLines rest := by
  induction line with
  | nil => rfl
  | cons c cs ih =>
    obtain ⟨hc, hcs⟩ := not_or.1 (List.mem_cons.not.1 h)
    rw [List.cons_append, literalLines, ih hcs]
    exact fun heq => hc heq.symm

theorem verbatimLines_verbatimBody {lines : List (List Char)} (h : ∀ line ∈ lines, '\n' ∉ line) :
    verbatimLines (verbatimBody lines) = lines := by
  rw [verbatimBody, verbatimLines]
  induction lines with
  | nil => rfl
  | cons line lines ih =>
    rw [List.flatMap_cons, List.append_assoc, List.singleton_append, literalLines_append (h line List.mem_cons_self),
      ih fun l hl => h l (List.mem_cons_of_mem line hl)]

/-- No end mark stands in the body of an environment, for none stands in a line of it. -/
theorem passes_verbatimBody {lines : List (List Char)} (h : ∀ line ∈ lines, Text.contains verbatimEnd line = false) :
    Passes verbatimEnd (verbatimBody lines) := by
  have hlines : Passes verbatimEnd (lines.flatMap (· ++ ['\n'])) := by
    induction lines with
    | nil => exact fun rest => by simp
    | cons line lines ih =>
      rw [List.flatMap_cons]
      exact (passes_line line (by decide) (h line List.mem_cons_self)).append
        (ih fun l hl => h l (List.mem_cons_of_mem line hl))
  exact (passes_line [] (by decide) (by decide)).append hlines

theorem contains_of_cutAt {pattern text : List Char} (hpattern : pattern ≠ []) (h : cutAt pattern text = none) :
    Text.contains pattern text = false := by
  induction text with
  | nil => simpa [Text.contains] using hpattern
  | cons c cs ih =>
    rw [cutAt] at h
    split at h
    · cases h
    · next hprefix =>
      rw [Text.contains, ih (Option.map_eq_none_iff.1 h), Bool.or_false]
      exact eq_false_of_ne_true hprefix

theorem Passes.contains {pattern text : List Char} (hpattern : pattern ≠ []) (h : Passes pattern text) :
    Text.contains pattern text = false := by
  refine contains_of_cutAt hpattern ?_
  have hcut := h []
  rwa [List.append_nil] at hcut

theorem listingLine_of_contains {line : List Char} (h : Text.contains verbatimEnd line = true) :
    listingLine line = verbatimEnd ++ (Piece.typewriter line).written ++ verbatimBegin ++ ['\n'] := by
  have hmark : "\n\\noindent\\texttt\x7b".toList = ['\n'] ++ typewriterMark := by decide
  have hclose : "\x7d\n".toList = ['}', '\n'] := by decide
  rw [listingLine, if_pos h, hmark, hclose, Piece.written]
  simp only [List.append_assoc]

theorem written_listedPieces (done lines : List (List Char)) :
    (listedPieces done lines).flatMap Piece.written =
      verbatimBegin ++ verbatimBody done ++ lines.flatMap listingLine ++ verbatimEnd := by
  induction lines generalizing done with
  | nil => simp [listedPieces, Piece.written]
  | cons line lines ih =>
    rw [listedPieces, List.flatMap_cons]
    split
    · next hmark =>
      rw [listingLine_of_contains hmark, List.flatMap_cons, List.flatMap_cons, ih]
      simp only [Piece.written, verbatimBody, List.flatMap_nil, List.append_assoc]
    · next hmark =>
      rw [listingLine, if_neg hmark, ih]
      simp only [verbatimBody, List.flatMap_append, List.flatMap_cons, List.flatMap_nil, List.append_nil,
        List.cons_append, List.append_assoc]

theorem lines_listedPieces {done lines : List (List Char)} (hdone : ∀ line ∈ done, '\n' ∉ line)
    (hlines : ∀ line ∈ lines, '\n' ∉ line) : (listedPieces done lines).flatMap Piece.lines = done ++ lines := by
  induction lines generalizing done with
  | nil => simp [listedPieces, Piece.lines, verbatimLines_verbatimBody hdone]
  | cons line lines ih =>
    have hrest : ∀ l ∈ lines, '\n' ∉ l := fun l hl => hlines l (List.mem_cons_of_mem line hl)
    rw [listedPieces]
    split
    · rw [List.flatMap_cons, List.flatMap_cons, Piece.lines, Piece.lines, verbatimLines_verbatimBody hdone,
        ih (by simp) hrest]
      rfl
    · have hline : ∀ l ∈ [line], '\n' ∉ l := List.forall_mem_singleton.2 (hlines line List.mem_cons_self)
      rw [ih (List.forall_mem_append.2 ⟨hdone, hline⟩) hrest, List.append_assoc, List.singleton_append]

/-- What is written for some lines is read as these pieces: the reader ends an environment where the writer does. -/
theorem pieces_listedPieces {done : List (List Char)} (hdone : ∀ line ∈ done, Text.contains verbatimEnd line = false)
    (lines : List (List Char)) (rest : List Char) :
    pieces ((listedPieces done lines).flatMap Piece.written ++ rest) = listedPieces done lines ++ pieces rest := by
  induction lines generalizing done with
  | nil =>
    rw [listedPieces, List.flatMap_singleton, pieces_verbatim (passes_verbatimBody hdone), List.singleton_append]
  | cons line lines ih =>
    rw [listedPieces]
    split
    · rw [List.flatMap_cons, List.flatMap_cons, List.append_assoc, List.append_assoc,
        pieces_verbatim (passes_verbatimBody hdone), pieces_typewriter, ih (by simp)]
      rfl
    · next hmark =>
      have hline : ∀ l ∈ [line], Text.contains verbatimEnd l = false :=
        List.forall_mem_singleton.2 (eq_false_of_ne_true hmark)
      exact ih (List.forall_mem_append.2 ⟨hdone, hline⟩)

theorem contains_listedPieces {done : List (List Char)}
    (hdone : ∀ line ∈ done, Text.contains verbatimEnd line = false) (lines : List (List Char)) {body : List Char}
    (h : .verbatim body ∈ listedPieces done lines) : Text.contains verbatimEnd body = false := by
  induction lines generalizing done with
  | nil =>
    cases List.mem_singleton.1 h
    exact (passes_verbatimBody hdone).contains (by decide)
  | cons line lines ih =>
    rw [listedPieces] at h
    split at h
    · rcases List.mem_cons.1 h with h | h
      · cases h
        exact (passes_verbatimBody hdone).contains (by decide)
      · rcases List.mem_cons.1 h with h | h
        · cases h
        · exact ih (by simp) h
    · next hmark =>
      have hline : ∀ l ∈ [line], Text.contains verbatimEnd l = false :=
        List.forall_mem_singleton.2 (eq_false_of_ne_true hmark)
      exact ih (List.forall_mem_append.2 ⟨hdone, hline⟩) h

/-! ### Code blocks -/

/-- A text with a listing from which the lines of a code are recovered: nothing but the pieces stands behind `before`,
and no body holds the end mark. -/
structure Listed (before text code : List Char) : Prop where
  lines : (pieces text).flatMap Piece.lines = Text.lines code
  pieces : text = before ++ (pieces text).flatMap Piece.written ++ "\n\n".toList
  bodies : ∀ body, .verbatim body ∈ Latex.pieces text → Text.contains verbatimEnd body = false

theorem listed_listing (m : Mode) {kind : CodeKind} (h : ∀ info, kind = .fenced info → '\n' ∉ info.toList)
    (code : List Char) : Listed (opening m (.codeBlock kind)) (opening m (.codeBlock kind) ++ listing code) code := by
  have hwritten : listing code = (listedPieces [] (Text.lines code)).flatMap Piece.written ++ "\n\n".toList := by
    rw [written_listedPieces, listing]
    rfl
  have hread : pieces (opening m (.codeBlock kind) ++ listing code) = listedPieces [] (Text.lines code) := by
    have hend : pieces "\n\n".toList = [] := by
      show pieces ['\n', '\n'] = []
      rw [pieces_newline, pieces_newline, pieces_nil]
    rw [pieces_language m h, hwritten, pieces_listedPieces (by simp), hend, List.append_nil]
  constructor
  · rw [hread, lines_listedPieces (by simp) (Text.not_mem_of_mem_lines code), List.nil_append]
  · rw [hread, hwritten, List.append_assoc]
  · intro body hbody
    rw [hread] at hbody
    exact contains_listedPieces (by simp) _ hbody

theorem emit_codeBlock (notes : Footnotes) (m : Mode) (kind : CodeKind) (texts : List String) :
    emit notes m (.opened (.codeBlock kind) :: (texts.map .text ++ [.closed .codeBlock])) =
      opening m (.codeBlock kind) ++ listing (texts.flatMap String.toList) := by
  have hstart : (m.next (.opened (.codeBlock kind)) (opening m (.codeBlock kind))).code = some [] := rfl
  obtain ⟨hsilent, hcode⟩ := emit_texts notes hstart texts
  have hclose : ∀ m' : Mode, m'.code = some (texts.flatMap String.toList) →
      emit notes m' [.closed .codeBlock] = listing (texts.flatMap String.toList) := by
    intro m' hm'
    show listing (m'.code.getD []) ++ [] = _
    rw [hm', Option.getD_some, List.append_nil]
  rw [emit, emit_append]
  exact congrArg₂ (· ++ ·) rfl ((congrArg₂ (· ++ ·) hsilent (hclose _ hcode)).trans (List.nil_append _))

/-- A script is one code block with a single text. -/
theorem toList_fragment_script (source : Path) (text : String) :
    (fragment .latex (Content.documentEvents .script source text)).toList =
      emit (footnotes (Content.scriptEvents source text)) (Mode.after [])
        (.opened (.codeBlock (.fenced (Content.language source))) :: ([text].map .text ++ [.closed .codeBlock])) := by
  have hmain : mainText 0 (Content.scriptEvents source text) = Content.scriptEvents source text := rfl
  rw [fragment, Content.documentEvents, write, hmain]
  simp [Content.scriptEvents]

/-- The lines of the code are recovered from what is written for a code block, in whatever texts it comes, and so they
are from what is written for a script. -/
theorem codeBlock_listed :
    (∀ (notes : Footnotes) (m : Mode) (kind : CodeKind) (texts : List String),
      (∀ info, kind = .fenced info → '\n' ∉ info.toList) →
      Listed (opening m (.codeBlock kind))
        (emit notes m (.opened (.codeBlock kind) :: (texts.map .text ++ [.closed .codeBlock])))
        (texts.flatMap String.toList)) ∧
    ∀ (source : Path) (text : String), '\n' ∉ (Content.language source).toList →
      Listed (opening (Mode.after []) (.codeBlock (.fenced (Content.language source))))
        (fragment .latex (Content.documentEvents .script source text)).toList text.toList := by
  constructor
  · intro notes m kind texts hinfo
    rw [emit_codeBlock]
    exact listed_listing m hinfo _
  · intro source text hinfo
    have hcode : [text].flatMap String.toList = text.toList := List.flatMap_singleton ..
    rw [toList_fragment_script, emit_codeBlock, hcode]
    exact listed_listing _ (by rintro info ⟨⟩; exact hinfo) text.toList

namespace Interrupted

/-- A code in two texts that are cut within an end mark, with a carriage return behind its last line. -/
def texts : List String :=
  ["a\r\n\\end\x7bverb", "atim\x7d 50%\nb\r"]

def written : List Char :=
  ("% language: tex\n\\begin\x7bverbatim\x7d\na\n\\end\x7bverbatim\x7d\n" ++
    "\\noindent\\texttt\x7b\\textbackslash\x7b\x7dend\\\x7bverbatim\\\x7d 50\\%\x7d\n" ++
    "\\begin\x7bverbatim\x7d\nb\r\n\\end\x7bverbatim\x7d\n\n").toList

theorem codeBlock_interrupted :
    emit [] (Mode.after []) (.opened (.codeBlock (.fenced "tex")) :: (texts.map .text ++ [.closed .codeBlock])) =
        written ∧
      (pieces written).flatMap Piece.lines = ["a".toList, "\\end\x7bverbatim\x7d 50%".toList, "b\r".toList] := by
  have hwritten : emit [] (Mode.after [])
      (.opened (.codeBlock (.fenced "tex")) :: (texts.map .text ++ [.closed .codeBlock])) = written := by
    decide +kernel
  have hinfo : ∀ info, CodeKind.fenced "tex" = .fenced info → '\n' ∉ info.toList := by
    rintro info ⟨⟩
    decide
  have hlisted := codeBlock_listed.1 [] (Mode.after []) _ texts hinfo
  rw [hwritten] at hlisted
  exact ⟨hwritten, hlisted.lines.trans (by decide)⟩

end Interrupted

end Latex
end Folio

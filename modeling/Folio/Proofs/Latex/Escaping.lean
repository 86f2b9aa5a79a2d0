import Mathlib.Data.Bool.AllAny
import Folio.Latex.Writer
import Folio.Proofs.Latex.Neutral

/-!
# Folio.Proofs.Latex.Escaping

Escaped texts and link targets.

* `Safe`: texts in which characters with a meaning of their own stand in escape sequences only.
* `unescape`: reads escaped text up to the brace that closes its group; `unescape_escaped`: it is what was escaped.
* `unescapeUrl`: reads an escaped link target.
* `takesNext`: whether a text ends with a backslash that takes the character behind it.
* `escape_faithful`: what is escaped is given back, and what has a meaning of its own stands where the writer puts it:
  in an escape sequence, or behind a backslash.
-/

namespace Folio
namespace Latex

/-! ### Safe texts -/

/-- The characters with a meaning of their own. -/
def specials : List Char :=
  ['\\', '~', '^', '{', '}', '$', '&', '#', '%', '_']

/-- A character that stands for itself, or the escape sequence of another one. -/
def IsPiece (piece : List Char) : Prop :=
  (∃ c, c ∉ specials ∧ piece = [c]) ∨ ∃ c ∈ specials, piece = escapeChar c

/-- A text in which characters with a meaning of their own stand in escape sequences only. -/
def Safe (text : List Char) : Prop :=
  ∃ pieces : List (List Char), text = pieces.flatten ∧ ∀ piece ∈ pieces, IsPiece piece

theorem safe_of_plain {text : List Char} (h : ∀ c ∈ text, c ∉ specials) : Safe text := by
  refine ⟨text.map fun c => [c], by rw [← List.flatMap_def, List.flatMap_singleton'], fun piece hpiece => ?_⟩
  obtain ⟨c, hc, rfl⟩ := List.mem_map.1 hpiece
  exact .inl ⟨c, h c hc, rfl⟩

theorem escapeChar_of_plain {c : Char} (h : c ∉ specials) : escapeChar c = [c] := by
  simp only [specials, List.mem_cons, List.not_mem_nil, or_false, not_or] at h
  unfold escapeChar
  split <;> simp_all

theorem safe_escape (text : String) : Safe (escape text).toList := by
  refine ⟨text.toList.map escapeChar, by rw [escape, String.toList_ofList, List.flatMap], fun piece hpiece => ?_⟩
  obtain ⟨c, -, rfl⟩ := List.mem_map.1 hpiece
  by_cases hc : c ∈ specials
  · exact .inr ⟨c, hc, rfl⟩
  · exact .inl ⟨c, hc, escapeChar_of_plain hc⟩

/-- Each escape sequence begins with a backslash. -/
theorem backslash_mem_escapeChar {c : Char} (h : c ∈ specials) : '\\' ∈ escapeChar c := by
  have hall : ∀ d ∈ specials, '\\' ∈ escapeChar d := List.all_iff_forall_prop.1 rfl
  exact hall c h

/-- Without backslashes, no character with a meaning of its own is safe. -/
theorem Safe.plain {text : List Char} (h : Safe text) (hslash : '\\' ∉ text) : ∀ c ∈ text, c ∉ specials := by
  obtain ⟨pieces, rfl, hpieces⟩ := h
  intro c hc
  obtain ⟨piece, hpiece, hmem⟩ := List.mem_flatten.1 hc
  obtain ⟨d, hd, rfl⟩ | ⟨d, hd, rfl⟩ := hpieces piece hpiece
  · rw [List.mem_singleton.1 hmem]
    exact hd
  · exact absurd (List.mem_flatten.2 ⟨_, hpiece, backslash_mem_escapeChar hd⟩) hslash

/-! ### Reading back -/

/-- The first character of escaped text, and the text behind it; none where the text or its group ends. -/
def unescapeChar? : List Char → Option (Char × List Char)
  | [] => none
  | '}' :: _ => none
  | '\\' :: cs =>
    if "textbackslash\x7b\x7d".toList.isPrefixOf cs then some ('\\', cs.drop 15)
    else if "textasciitilde\x7b\x7d".toList.isPrefixOf cs then some ('~', cs.drop 16)
    else if "textasciicircum\x7b\x7d".toList.isPrefixOf cs then some ('^', cs.drop 17)
    else
      match cs with
      | [] => some ('\\', [])
      | c :: cs => some (c, cs)
  | c :: cs => some (c, cs)

theorem length_unescapeChar {text rest : List Char} {c : Char} (h : unescapeChar? text = some (c, rest)) :
    rest.length < text.length := by
  rw [unescapeChar?.eq_def] at h
  repeat' split at h
  all_goals cases h
  all_goals simp only [List.length_drop, List.length_cons, List.length_nil]; omega

/-- The text that escaped text stands for, up to the end of its group, and what stands behind the group. -/
def unescape (text : List Char) : List Char × List Char :=
  match _h : unescapeChar? text with
  | none => ([], text.drop 1)
  | some (c, rest) => (c :: (unescape rest).1, (unescape rest).2)
termination_by text.length
decreasing_by all_goals exact length_unescapeChar _h

theorem unescape_of_none {text : List Char} (h : unescapeChar? text = none) : unescape text = ([], text.drop 1) := by
  rw [unescape]
  split
  · rfl
  · next h' => rw [h] at h'; cases h'

theorem unescape_of_some {text rest : List Char} {c : Char} (h : unescapeChar? text = some (c, rest)) :
    unescape text = (c :: (unescape rest).1, (unescape rest).2) := by
  rw [unescape]
  split
  · next h' => rw [h] at h'; cases h'
  · next h' => rw [h] at h'; cases h'; rfl

theorem unescapeChar_escapeChar (c : Char) (rest : List Char) :
    unescapeChar? (escapeChar c ++ rest) = some (c, rest) := by
  rw [escapeChar.eq_def]
  split
  case h_11 hbackslash _ _ _ hclosed _ _ _ _ _ =>
    rw [List.singleton_append, unescapeChar?]
    · exact hclosed
    · exact hbackslash
  all_goals rfl

theorem length_unescape (text : List Char) : (unescape text).2.length ≤ text.length := by
  fun_induction unescape text with
  | case1 text h => simp
  | case2 text c rest h ih => exact Nat.le_of_lt (Nat.lt_of_le_of_lt ih (length_unescapeChar h))

theorem unescape_append (text : List Char) {rest : List Char} (h : unescapeChar? rest = none) :
    unescape (text.flatMap escapeChar ++ rest) = (text, rest.drop 1) := by
  induction text with
  | nil => exact unescape_of_none h
  | cons c cs ih => rw [List.flatMap_cons, List.append_assoc, unescape_of_some (unescapeChar_escapeChar c _), ih]

theorem unescape_escaped (text rest : List Char) :
    unescape (text.flatMap escapeChar ++ '}' :: rest) = (text, rest) :=
  unescape_append text rfl

/-- The link target that an escaped one stands for. -/
def unescapeUrl : List Char → List Char
  | '\\' :: c :: cs => c :: unescapeUrl cs
  | c :: cs => c :: unescapeUrl cs
  | [] => []

theorem unescapeUrl_escaped (url : List Char) : unescapeUrl (url.flatMap escapeUrlChar) = url := by
  induction url with
  | nil => rfl
  | cons c cs ih =>
    rw [List.flatMap_cons, escapeUrlChar.eq_def]
    split
    case h_6 hbackslash _ _ _ _ =>
      rw [List.singleton_append, unescapeUrl.eq_2 _ _ fun _ _ heq => absurd heq hbackslash, ih]
    all_goals exact congrArg (List.cons _) ih

/-! ### Where characters stand -/

/-- Whether a text ends with a backslash that takes the character behind it. A backslash that is taken takes nothing. -/
def takesNext : List Char → Bool
  | [] => false
  | ['\\'] => true
  | '\\' :: _ :: cs => takesNext cs
  | _ :: cs => takesNext cs

theorem takesNext_cons {c : Char} (h : c ≠ '\\') (cs : List Char) : takesNext (c :: cs) = takesNext cs :=
  takesNext.eq_4 c cs (fun heq => absurd heq h) fun _ _ heq => absurd heq h

/-- A text that is made of pieces, of which none takes a character of the next one. -/
theorem takesNext_flatMap {f : Char → List Char} (h : ∀ c rest, takesNext (f c ++ rest) = takesNext rest)
    (text rest : List Char) : takesNext (text.flatMap f ++ rest) = takesNext rest := by
  induction text with
  | nil => rfl
  | cons c cs ih => rw [List.flatMap_cons, List.append_assoc, h, ih]

/-- A character of a text that is made of pieces stands in one of them. -/
theorem exists_of_flatMap_eq {f : Char → List Char} {text before after : List Char} {c : Char}
    (h : text.flatMap f = before ++ c :: after) :
    ∃ as d bs l r, text = as ++ d :: bs ∧ before = as.flatMap f ++ l ∧ f d = l ++ c :: r ∧
      after = r ++ bs.flatMap f := by
  induction text generalizing before with
  | nil => simp at h
  | cons d ds ih =>
    rw [List.flatMap_cons, List.append_eq_append_iff] at h
    obtain ⟨before', rfl, hrest⟩ | ⟨piece, hd, hrest⟩ := h
    · obtain ⟨as, e, bs, l, r, rfl, rfl, he, hafter⟩ := ih hrest
      exact ⟨d :: as, e, bs, l, r, rfl, by simp, he, hafter⟩
    · cases piece with
      | nil =>
        obtain ⟨as, e, bs, l, r, rfl, has, he, hafter⟩ := @ih [] hrest.symm
        refine ⟨d :: as, e, bs, l, r, rfl, ?_, he, hafter⟩
        rw [List.flatMap_cons, List.append_assoc, ← has, hd]
        simp
      | cons c' piece =>
        cases hrest
        exact ⟨[], d, ds, before, piece, rfl, rfl, hd, rfl⟩

/-! ### Texts -/

/-- The characters that are escaped by a backslash. -/
def marks : List Char :=
  ['{', '}', '$', '&', '#', '%', '_']

/-- The commands of the other ones, each with an empty group. -/
def symbols : List (List Char) :=
  ["\\textbackslash".toList, "\\textasciitilde".toList, "\\textasciicircum".toList]

/-- The escape sequences of the characters with a meaning of their own. -/
def sequences : List (List Char) :=
  marks.map (fun c => ['\\', c]) ++ symbols.map (· ++ ['{', '}'])

/-- A character stands for itself, is taken by a backslash, or has a command. -/
theorem escapeChar_cases (c : Char) :
    c ∉ specials ∧ escapeChar c = [c] ∨ c ∈ marks ∧ escapeChar c = ['\\', c] ∨
      ∃ symbol ∈ symbols, escapeChar c = symbol ++ ['{', '}'] := by
  by_cases hspecial : c ∈ specials
  · have hall : ∀ d ∈ specials, d ∈ marks ∧ escapeChar d = ['\\', d] ∨
        ∃ symbol ∈ symbols, escapeChar d = symbol ++ ['{', '}'] :=
      List.all_iff_forall_prop.1 rfl
    exact .inr (hall c hspecial)
  · exact .inl ⟨hspecial, escapeChar_of_plain hspecial⟩

theorem takesNext_escapeChar (c : Char) (rest : List Char) : takesNext (escapeChar c ++ rest) = takesNext rest := by
  obtain ⟨hc, heq⟩ | ⟨-, heq⟩ | ⟨symbol, hsymbol, heq⟩ := escapeChar_cases c
  · have hslash : c ≠ '\\' := by
      rintro rfl
      exact hc (by decide)
    rw [heq, List.singleton_append, takesNext_cons hslash]
  · rw [heq]
    rfl
  · rw [heq]
    simp only [symbols, List.mem_cons, List.not_mem_nil, or_false] at hsymbol
    obtain rfl | rfl | rfl := hsymbol <;> rfl

/-- The end of what stands before a brace: the backslash that takes it, or the last letter of a command. -/
def braceNeighbours : List Char :=
  ['\\', 'h', 'e', 'm']

theorem symbol_plain {symbol : List Char} (h : symbol ∈ symbols) :
    '{' ∉ symbol ∧ '}' ∉ symbol ∧ ∃ name c, symbol = name ++ [c] ∧ c ∈ braceNeighbours := by
  simp only [symbols, List.mem_cons, List.not_mem_nil, or_false] at h
  obtain rfl | rfl | rfl := h
  · exact ⟨by decide, by decide, "\\textbackslas".toList, 'h', rfl, by decide⟩
  · exact ⟨by decide, by decide, "\\textasciitild".toList, 'e', rfl, by decide⟩
  · exact ⟨by decide, by decide, "\\textasciicircu".toList, 'm', rfl, by decide⟩

theorem eq_of_singleton {c d : Char} {l r : List Char} (h : [d] = l ++ c :: r) : l = [] ∧ d = c ∧ r = [] := by
  cases l with
  | nil =>
    cases h
    exact ⟨rfl, rfl, rfl⟩
  | cons b l => simp at h

/-- A brace in an escape sequence is taken by a backslash, or belongs to the empty group of a command. -/
theorem brace_of_escapeChar {c d : Char} {l r : List Char} (h : escapeChar d = l ++ c :: r) (hc : c = '{' ∨ c = '}') :
    l = ['\\'] ∧ r = [] ∨
      ∃ symbol ∈ symbols, c = '{' ∧ l = symbol ∧ r = ['}'] ∨ c = '}' ∧ l = symbol ++ ['{'] ∧ r = [] := by
  obtain ⟨hplain, heq⟩ | ⟨-, heq⟩ | ⟨symbol, hsymbol, heq⟩ := escapeChar_cases d
  · obtain ⟨rfl, rfl, rfl⟩ := eq_of_singleton (heq.symm.trans h)
    obtain rfl | rfl := hc <;> exact absurd (by decide) hplain
  · rw [heq] at h
    cases l with
    | nil =>
      cases h
      obtain hc | hc := hc <;> cases hc
    | cons b l =>
      obtain ⟨rfl, hd⟩ := List.cons.inj h
      obtain ⟨rfl, rfl, rfl⟩ := eq_of_singleton hd
      exact .inl ⟨rfl, rfl⟩
  · obtain ⟨hopen, hclose, -⟩ := symbol_plain hsymbol
    rw [heq] at h
    refine .inr ⟨symbol, hsymbol, ?_⟩
    obtain rfl | rfl := hc
    · obtain ⟨rfl, -, rfl⟩ := (List.append_cons_inj_of_notMem hopen (by decide)).1 h
      exact .inl ⟨rfl, rfl, rfl⟩
    · rw [← List.singleton_append, ← List.append_assoc] at h
      obtain ⟨rfl, -, rfl⟩ := (List.append_cons_inj_of_notMem (by simpa using hclose) (by simp)).1 h
      exact .inr ⟨rfl, rfl, rfl⟩

section Texts

variable {text before after : List Char} {c : Char}

/-- Before an opening brace in escaped text stands the backslash that takes it, or a command. -/
theorem exists_neighbour (h : text.flatMap escapeChar = before ++ '{' :: after) :
    ∃ front d, before = front ++ [d] ∧ d ∈ braceNeighbours := by
  obtain ⟨as, d, bs, l, r, -, rfl, hd, -⟩ := exists_of_flatMap_eq h
  obtain ⟨rfl, -⟩ | ⟨symbol, hsymbol, ⟨-, rfl, -⟩ | ⟨hc, -⟩⟩ := brace_of_escapeChar hd (.inl rfl)
  · exact ⟨_, '\\', rfl, by decide⟩
  · obtain ⟨-, -, name, e, rfl, he⟩ := symbol_plain hsymbol
    exact ⟨_, e, (List.append_assoc ..).symm, he⟩
  · cases hc

/-- So no mark of an environment is written, in which a letter stands before the brace. -/
theorem not_infix_escaped {mark behind : List Char} {e : Char} (he : e ∉ braceNeighbours) (text : List Char) :
    ¬ mark ++ [e] ++ '{' :: behind <:+: text.flatMap escapeChar := by
  rintro ⟨start, rest, h⟩
  have hsplit : text.flatMap escapeChar = start ++ mark ++ [e] ++ '{' :: (behind ++ rest) := by
    rw [← h]
    simp
  obtain ⟨front, d, hfront, hd⟩ := exists_neighbour hsplit
  obtain ⟨-, heq⟩ := List.append_inj' hfront rfl
  cases heq
  exact he hd

/-- A character with a meaning of its own stands in an escape sequence. -/
theorem exists_sequence (h : text.flatMap escapeChar = before ++ c :: after) (hc : c ∈ specials) :
    ∃ as bs l r : List Char,
      before = as.flatMap escapeChar ++ l ∧ after = r ++ bs.flatMap escapeChar ∧ l ++ c :: r ∈ sequences := by
  obtain ⟨as, d, bs, l, r, -, hbefore, hd, hafter⟩ := exists_of_flatMap_eq h
  refine ⟨as, bs, l, r, hbefore, hafter, ?_⟩
  rw [← hd, sequences, List.mem_append]
  obtain ⟨hplain, heq⟩ | ⟨hmark, heq⟩ | ⟨symbol, hsymbol, heq⟩ := escapeChar_cases d
  · obtain ⟨rfl, rfl, rfl⟩ := eq_of_singleton (heq.symm.trans hd)
    exact absurd hc hplain
  · exact .inl (List.mem_map.2 ⟨d, hmark, heq.symm⟩)
  · exact .inr (List.mem_map.2 ⟨symbol, hsymbol, heq.symm⟩)

/-- A brace that is not taken belongs to the empty group of a command. -/
theorem exists_group (h : text.flatMap escapeChar = before ++ c :: after) (hbare : takesNext before = false)
    (hc : c = '{' ∨ c = '}') :
    ∃ as bs : List Char, ∃ symbol ∈ symbols,
      c = '{' ∧ before = as.flatMap escapeChar ++ symbol ∧ after = '}' :: bs.flatMap escapeChar ∨
        c = '}' ∧ before = as.flatMap escapeChar ++ symbol ++ ['{'] ∧ after = bs.flatMap escapeChar := by
  obtain ⟨as, d, bs, l, r, -, rfl, hd, rfl⟩ := exists_of_flatMap_eq h
  rw [takesNext_flatMap takesNext_escapeChar] at hbare
  obtain ⟨rfl, -⟩ | ⟨symbol, hsymbol, ⟨rfl, rfl, rfl⟩ | ⟨rfl, rfl, rfl⟩⟩ := brace_of_escapeChar hd hc
  · cases hbare
  · exact ⟨as, bs, l, hsymbol, .inl ⟨rfl, rfl, rfl⟩⟩
  · exact ⟨as, bs, symbol, hsymbol, .inr ⟨rfl, (List.append_assoc ..).symm, rfl⟩⟩

end Texts

/-- What a reader finds in the escaped form of a text. -/
structure EscapedText (text written : List Char) : Prop where
  read : (unescape written).1 = text
  specials : ∀ before c after, written = before ++ c :: after → c ∈ specials →
    ∃ as bs l r : List Char, before = as.flatMap escapeChar ++ l ∧ after = r ++ bs.flatMap escapeChar ∧
      l ++ c :: r ∈ sequences
  braces : ∀ before c after, written = before ++ c :: after → takesNext before = false → c = '{' ∨ c = '}' →
    ∃ as bs : List Char, ∃ symbol ∈ symbols,
      c = '{' ∧ before = as.flatMap escapeChar ++ symbol ∧ after = '}' :: bs.flatMap escapeChar ∨
        c = '}' ∧ before = as.flatMap escapeChar ++ symbol ++ ['{'] ∧ after = bs.flatMap escapeChar
  environments : ¬ verbatimBegin <:+: written ∧ ¬ verbatimEnd <:+: written

theorem escapedText_escape (text : String) : EscapedText text.toList (escape text).toList := by
  rw [escape, String.toList_ofList]
  constructor
  · have hread := @unescape_append text.toList [] rfl
    rw [List.append_nil] at hread
    rw [hread]
  · exact fun before c after h hc => exists_sequence h hc
  · exact fun before c after h hbare hc => exists_group h hbare hc
  · exact ⟨@not_infix_escaped "\\begi".toList _ 'n' (by decide) _,
      @not_infix_escaped "\\en".toList _ 'd' (by decide) _⟩

/-! ### Link targets -/

/-- The characters of a link target before which a backslash is put. -/
def urlMarks : List Char :=
  ['\\', '%', '#', '{', '}']

theorem escapeUrlChar_cases (c : Char) :
    c ∉ urlMarks ∧ escapeUrlChar c = [c] ∨ c ∈ urlMarks ∧ escapeUrlChar c = ['\\', c] := by
  by_cases hmark : c ∈ urlMarks
  · have hall : ∀ d ∈ urlMarks, escapeUrlChar d = ['\\', d] := List.all_iff_forall_prop.1 rfl
    exact .inr ⟨hmark, hall c hmark⟩
  · refine .inl ⟨hmark, ?_⟩
    simp only [urlMarks, List.mem_cons, List.not_mem_nil, or_false, not_or] at hmark
    unfold escapeUrlChar
    split <;> simp_all

theorem takesNext_escapeUrlChar (c : Char) (rest : List Char) :
    takesNext (escapeUrlChar c ++ rest) = takesNext rest := by
  obtain ⟨hc, heq⟩ | ⟨-, heq⟩ := escapeUrlChar_cases c
  · have hslash : c ≠ '\\' := by
      rintro rfl
      exact hc (by decide)
    rw [heq, List.singleton_append, takesNext_cons hslash]
  · rw [heq]
    rfl

/-- What a reader finds in the escaped form of a link target. -/
structure EscapedUrl (url written : List Char) : Prop where
  read : unescapeUrl written = url
  bare : ∀ before c after, written = before ++ c :: after → takesNext before = false → c ∉ ['%', '#', '{', '}']

theorem escapedUrl_escapeUrl (url : String) : EscapedUrl url.toList (escapeUrl url).toList := by
  rw [escapeUrl, String.toList_ofList]
  refine ⟨unescapeUrl_escaped _, fun before c after h hbare hc => ?_⟩
  obtain ⟨as, d, bs, l, r, -, rfl, hd, -⟩ := exists_of_flatMap_eq h
  rw [takesNext_flatMap takesNext_escapeUrlChar] at hbare
  have hmark : c ∈ urlMarks := List.mem_cons_of_mem _ hc
  obtain ⟨hplain, heq⟩ | ⟨-, heq⟩ := escapeUrlChar_cases d
  · obtain ⟨rfl, rfl, rfl⟩ := eq_of_singleton (heq.symm.trans hd)
    exact hplain hmark
  · rw [heq] at hd
    cases l with
    | nil =>
      obtain ⟨rfl, -⟩ := List.cons.inj hd
      exact absurd hc (by decide)
    | cons b l =>
      obtain ⟨rfl, hrest⟩ := List.cons.inj hd
      obtain ⟨rfl, -⟩ := eq_of_singleton hrest
      cases hbare

/-- Escaping loses nothing, and a reader finds nothing in what is escaped that has a meaning of its own. The argument with
the target of a link ends at the brace that is written behind it. -/
theorem escape_faithful :
    Function.Injective escape ∧ (∀ text, EscapedText text.toList (escape text).toList) ∧
    Function.Injective escapeUrl ∧ (∀ url, EscapedUrl url.toList (escapeUrl url).toList) ∧
    ∀ (m : Mode) (kind : Markdown.LinkKind) (url title : String) (rest : List Char), ∃ target : List Token,
      Lexes (escapeUrl url).toList target ∧ (∀ t ∈ target, t.isPlain = true) ∧
        tokens (opening m (.link kind url title) ++ rest) =
          [.escaped 'h', .char 'r', .char 'e', .char 'f', .opened] ++ target ++ [.closed, .opened] ++ tokens rest := by
  refine ⟨fun a b h => ?_, escapedText_escape, fun a b h => ?_, escapedUrl_escapeUrl, fun m kind url title rest => ?_⟩
  · have hread := (escapedText_escape a).read
    rw [h, (escapedText_escape b).read] at hread
    exact (String.toList_inj.1 hread).symm
  · have hread := (escapedUrl_escapeUrl a).read
    rw [h, (escapedUrl_escapeUrl b).read] at hread
    exact (String.toList_inj.1 hread).symm
  · obtain ⟨target, htarget, hplain⟩ := lexes_escapedUrl url.toList
    refine ⟨target, ?_, hplain, ?_⟩
    · rw [escapeUrl, String.toList_ofList]
      exact htarget
    · have hcommand : Lexes "\\href".toList [.escaped 'h', .char 'r', .char 'e', .char 'f'] :=
        (lexes_escaped (by decide) (by decide)).append (@lexes_ordinary "ref".toList (by decide))
      have hall := ((hcommand.append lexes_opened).append htarget).append (lexes_closed.append lexes_opened)
      exact hall rest

end Latex
end Folio

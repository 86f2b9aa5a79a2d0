import Folio.Proofs.Latex.Readable

/-!
# Folio.Proofs.Latex.Depth

The braces that are open where something is read.

* `atDepth`: tokens with the number of braces that are open at each of them; `level`: the number after them.
* `Moves`: tokens that lead from one number of open braces to another one, with any number of braces around them.
  `Reads.moves`: so do pieces of text that open and close groups.
* `Even`: texts that leave the braces as they are and in which each token is as it should be at its depth.
  `Even.append`, `Even.command`: such texts compose.
* `infix_of_verbatim`: where a verbatim environment is read, its beginning is written.
-/

namespace Folio
namespace Latex

/-! ### Depth -/

/-- The number of open braces after a token. -/
def Token.after : Token → Nat → Nat
  | .opened, d => d + 1
  | .closed, d => d - 1
  | _, d => d

/-- The number of open braces after some tokens. -/
def level : Nat → List Token → Nat
  | d, [] => d
  | d, t :: ts => level (t.after d) ts

/-- Tokens with the number of braces that are open at each of them. -/
def atDepth : Nat → List Token → List (Nat × Token)
  | _, [] => []
  | d, t :: ts => (d, t) :: atDepth (t.after d) ts

theorem level_append (d : Nat) (ts us : List Token) : level d (ts ++ us) = level (level d ts) us := by
  induction ts generalizing d with
  | nil => rfl
  | cons t ts ih => exact ih _

theorem atDepth_append (d : Nat) (ts us : List Token) :
    atDepth d (ts ++ us) = atDepth d ts ++ atDepth (level d ts) us := by
  induction ts generalizing d with
  | nil => rfl
  | cons t ts ih => rw [List.cons_append, atDepth, ih, atDepth, level, List.cons_append]

theorem map_atDepth (d : Nat) (ts : List Token) : (atDepth d ts).map Prod.snd = ts := by
  induction ts generalizing d with
  | nil => rfl
  | cons t ts ih => rw [atDepth, List.map_cons, ih]

theorem mem_of_mem_atDepth {d : Nat} {ts : List Token} {x : Nat × Token} (h : x ∈ atDepth d ts) : x.2 ∈ ts := by
  rw [← map_atDepth d ts]
  exact List.mem_map_of_mem h

/-- A token at a depth that is deeper by `d`. -/
def deeper (d : Nat) (x : Nat × Token) : Nat × Token :=
  (x.1 + d, x.2)

/-- Tokens that lead from `a` open braces to `b`, with any number of braces around them. -/
structure Moves (a : Nat) (ts : List Token) (b : Nat) : Prop where
  level_eq : ∀ d, level (a + d) ts = b + d
  atDepth_eq : ∀ d, atDepth (a + d) ts = (atDepth a ts).map (deeper d)

namespace Moves

variable {a b c : Nat} {ts us : List Token}

theorem level_start (h : Moves a ts b) : level a ts = b :=
  h.level_eq 0

theorem append (h : Moves a ts b) (h' : Moves b us c) : Moves a (ts ++ us) c := by
  refine ⟨fun d => by rw [level_append, h.level_eq, h'.level_eq], fun d => ?_⟩
  rw [atDepth_append, atDepth_append, h.level_eq, h.level_start, h.atDepth_eq, h'.atDepth_eq, List.map_append]

theorem frame (h : Moves a ts b) (k : Nat) : Moves (a + k) ts (b + k) := by
  refine ⟨fun d => by rw [Nat.add_assoc, h.level_eq, Nat.add_assoc], fun d => ?_⟩
  rw [Nat.add_assoc, h.atDepth_eq, h.atDepth_eq, List.map_map]
  refine List.map_congr_left fun x _ => ?_
  simp [deeper, Nat.add_assoc]

theorem nil (a : Nat) : Moves a [] a :=
  ⟨fun _ => rfl, fun _ => rfl⟩

theorem cons {t : Token} (ht : ∀ d, t.after (a + d) = b + d) (h : Moves b ts c) : Moves a (t :: ts) c := by
  have hstart : t.after a = b := ht 0
  refine ⟨fun d => by rw [level, ht, h.level_eq], fun d => ?_⟩
  rw [atDepth, ht, h.atDepth_eq, atDepth, hstart, List.map_cons]
  rfl

end Moves

theorem length_atDepth (d : Nat) (ts : List Token) : (atDepth d ts).length = ts.length := by
  rw [← List.length_map (f := Prod.snd), map_atDepth]

theorem Token.after_of_plain {t : Token} (h : t.isPlain = true) (d : Nat) : t.after d = d := by
  cases t <;> first | rfl | cases h

theorem level_of_plain {ts : List Token} (h : ∀ t ∈ ts, t.isPlain = true) (d : Nat) : level d ts = d := by
  induction ts generalizing d with
  | nil => rfl
  | cons t ts ih =>
    obtain ⟨ht, hts⟩ := List.forall_mem_cons.1 h
    rw [level, Token.after_of_plain ht, ih hts]

theorem atDepth_of_plain {ts : List Token} (h : ∀ t ∈ ts, t.isPlain = true) (d : Nat) :
    atDepth d ts = ts.map fun t => (d, t) := by
  induction ts with
  | nil => rfl
  | cons t ts ih =>
    obtain ⟨ht, hts⟩ := List.forall_mem_cons.1 h
    rw [atDepth, Token.after_of_plain ht, ih hts, List.map_cons]

theorem Moves.of_append {a b : Nat} {ts us : List Token} (h : Moves a (ts ++ us) b)
    (hus : ∀ t ∈ us, t.isPlain = true) : Moves a ts b := by
  refine ⟨fun d => ?_, fun d => ?_⟩
  · have hlevel := h.level_eq d
    rwa [level_append, level_of_plain hus] at hlevel
  · have heq := h.atDepth_eq d
    rw [atDepth_append, atDepth_append, List.map_append] at heq
    exact (List.append_inj heq (by rw [List.length_map, length_atDepth, length_atDepth])).1

/-- The number of braces among the open groups. -/
def braces (groups : List Group) : Nat :=
  groups.count .brace

theorem moves_of_nest {groups groups' : List Group} {ts : List Token} (h : nest groups ts = some groups') :
    Moves (braces groups) ts (braces groups') := by
  fun_induction nest groups ts with
  | case1 groups =>
    cases h
    exact .nil _
  | case2 groups ts ih => exact .cons (fun d => by simp [Token.after, braces]; omega) (ih h)
  | case3 groups name ts ih => exact .cons (fun d => by simp [Token.after, braces]) (ih h)
  | case4 groups ts ih => exact .cons (fun d => by simp [Token.after, braces]) (ih h)
  | case5 => cases h
  | case6 groups name ts ih => exact .cons (fun d => by simp [Token.after, braces]) (ih h)
  | case7 => cases h
  | case8 => cases h
  | case9 => cases h
  | case10 groups t ts hopened _ _ hclosed _ _ _ ih =>
    have hkeep : ∀ d, t.after d = d := by
      intro d
      cases t <;> first | rfl | exact (hopened rfl).elim | exact (hclosed rfl).elim
    exact .cons (fun d => hkeep _) (ih h)

/-! ### Texts -/

theorem Lexes.tokens_eq {text : List Char} {ts : List Token} (h : Lexes text ts) : tokens text = ts := by
  have htokens := h []
  rwa [List.append_nil, tokens_nil, List.append_nil] at htokens

theorem Readable.lexes {text : List Char} (h : Readable text) : Lexes text (tokens text) := by
  obtain ⟨ts, hts⟩ := h
  exact hts.tokens_eq.symm ▸ hts

theorem Readable.tokens_append {text : List Char} (h : Readable text) (rest : List Char) :
    tokens (text ++ rest) = tokens text ++ tokens rest :=
  h.lexes rest

/-- A piece of text opens and closes as many braces as groups. -/
theorem Reads.moves {text : List Char} {before after : List Group} (h : Reads before text after) :
    Moves (braces before) (tokens text) (braces after) := by
  obtain ⟨ts, hts, hnest⟩ := h
  have hall := hnest [] []
  rw [List.append_nil, List.append_nil, List.append_nil, nest] at hall
  rw [hts.tokens_eq]
  exact moves_of_nest hall

theorem isOrdinary_of_isBlank {c : Char} (h : Text.isBlank c = true) : isOrdinary c = true := by
  have hne : ∀ d, Text.isBlank d = false → c ≠ d := by
    rintro d hd rfl
    rw [hd] at h
    cases h
  simp only [isOrdinary, Bool.and_eq_true, bne_iff_ne]
  exact ⟨⟨⟨hne _ (by decide), hne _ (by decide)⟩, hne _ (by decide)⟩, hne _ (by decide)⟩

theorem exists_blanks (text : List Char) :
    ∃ blanks, blanks.all isOrdinary = true ∧ text = Text.trimEnd text ++ blanks := by
  refine ⟨(text.reverse.takeWhile Text.isBlank).reverse, ?_, ?_⟩
  · rw [List.all_eq_true]
    exact fun c hc => isOrdinary_of_isBlank (List.mem_takeWhile_imp (List.mem_reverse.1 hc))
  · rw [Text.trimEnd, ← List.reverse_append, List.takeWhile_append_dropWhile, List.reverse_reverse]

theorem tokens_trimEnd {text : List Char} (h : Readable (Text.trimEnd text)) :
    ∃ blanks : List Char, tokens text = tokens (Text.trimEnd text) ++ blanks.map .char := by
  obtain ⟨blanks, hblanks, htext⟩ := exists_blanks text
  refine ⟨blanks, ?_⟩
  rw [← (lexes_ordinary hblanks).tokens_eq, ← h.tokens_append, ← htext]

/-- A text that leaves the braces as they are, and in which each token is as it should be at its depth. -/
structure Even (p : Nat × Token → Prop) (text : List Char) : Prop where
  readable : Readable text
  moves : Moves 0 (tokens text) 0
  each : ∀ x ∈ atDepth 0 (tokens text), p x

namespace Even

variable {p q : Nat × Token → Prop} {a b text : List Char}

theorem nil : Even p [] := by
  refine ⟨readable_nil, ?_, ?_⟩ <;> rw [tokens_nil]
  · exact .nil 0
  · exact fun x hx => absurd hx List.not_mem_nil

theorem mono (h : Even p text) (hpq : ∀ x, p x → q x) : Even q text :=
  ⟨h.readable, h.moves, fun x hx => hpq x (h.each x hx)⟩

theorem append (ha : Even p a) (hb : Even p b) : Even p (a ++ b) := by
  have htokens := ha.readable.tokens_append b
  refine ⟨ha.readable.append hb.readable, htokens ▸ ha.moves.append hb.moves, ?_⟩
  rw [htokens, atDepth_append, ha.moves.level_start]
  exact fun x hx => (List.mem_append.1 hx).elim (ha.each x) (hb.each x)

theorem flatMap {α : Type} {f : α → List Char} {l : List α} (h : ∀ x ∈ l, Even p (f x)) : Even p (l.flatMap f) := by
  induction l with
  | nil => exact nil
  | cons x l ih =>
    rw [List.flatMap_cons]
    exact (h x List.mem_cons_self).append (ih fun y hy => h y (List.mem_cons_of_mem x hy))

theorem of_plain {ts : List Token} (h : Lexes text ts) (hplain : ∀ t ∈ ts, t.isPlain = true)
    (hp : ∀ t ∈ ts, p (0, t)) : Even p text := by
  have hmoves := (reads_of_plain h hplain).moves
  refine ⟨⟨ts, h⟩, hmoves, ?_⟩
  rw [h.tokens_eq, atDepth_of_plain hplain]
  exact List.forall_mem_map.2 hp

/-- What stands between two braces is read at a depth of one more. -/
theorem braced {body : List Char} (hopened : p (0, .opened)) (hbody : Even (fun x => p (deeper 1 x)) body)
    (hclosed : p (1, .closed)) : Even p (['{'] ++ body ++ ['}']) := by
  have hmoves : Moves 0 (tokens ['{'] ++ tokens body ++ tokens ['}']) 0 :=
    (reads_opened.moves.append (hbody.moves.frame 1)).append reads_closed.moves
  have hread := reads_opened.readable.append hbody.readable
  have hmap := hbody.moves.atDepth_eq 1
  rw [Nat.zero_add] at hmap
  have htokens : tokens (['{'] ++ body ++ ['}']) = tokens ['{'] ++ tokens body ++ tokens ['}'] := by
    rw [hread.tokens_append, reads_opened.readable.tokens_append]
  refine ⟨hread.append reads_closed.readable, htokens ▸ hmoves, ?_⟩
  have hlevel : level 1 (tokens body) = 1 := hbody.moves.level_eq 1
  rw [htokens, lexes_opened.tokens_eq, lexes_closed.tokens_eq, List.singleton_append, List.cons_append, atDepth,
    atDepth_append, Token.after, hmap, hlevel]
  refine List.forall_mem_cons.2 ⟨hopened, List.forall_mem_append.2 ⟨List.forall_mem_map.2 hbody.each, ?_⟩⟩
  exact List.forall_mem_singleton.2 hclosed

theorem command {before body behind : List Char} (hbefore : Even p before) (hopened : p (0, .opened))
    (hbody : Even (fun x => p (deeper 1 x)) body) (hclosed : p (1, .closed)) (hbehind : Even p behind) :
    Even p (before ++ ['{'] ++ body ++ '}' :: behind) := by
  have hall := (hbefore.append (braced hopened hbody hclosed)).append hbehind
  simpa only [List.append_assoc, List.singleton_append] using hall

theorem mem_argument {opening body : List Char} (hopen : Reads [] opening [.brace]) (hbody : Even q body)
    {x : Nat × Token} (hx : x ∈ atDepth 0 (tokens body)) (closing : List Char) :
    deeper 1 x ∈ atDepth 0 (tokens (opening ++ body ++ closing)) := by
  have hone : level 0 (tokens opening) = 1 := hopen.moves.level_start
  have hmap := hbody.moves.atDepth_eq 1
  rw [Nat.zero_add] at hmap
  rw [(hopen.readable.append hbody.readable).tokens_append, hopen.readable.tokens_append, atDepth_append,
    atDepth_append, hone, hmap]
  exact List.mem_append_left _ (List.mem_append_right _ (List.mem_map_of_mem hx))

theorem trimEnd (h : Even p text) (hread : Readable (Text.trimEnd text)) : Even p (Text.trimEnd text) := by
  obtain ⟨blanks, htokens⟩ := tokens_trimEnd hread
  obtain ⟨-, hmoves, heach⟩ := h
  rw [htokens] at hmoves heach
  refine ⟨hread, hmoves.of_append (by simp [Token.isPlain]), fun x hx => heach x ?_⟩
  rw [atDepth_append]
  exact List.mem_append_left _ hx

end Even

/-! ### Verbatim environments -/

/-- Whether a token is a verbatim environment. -/
def Token.isVerbatim : Token → Bool
  | .verbatim _ => true
  | .unclosed => true
  | _ => false

theorem prefix_of_verbatim {text rest : List Char} {t : Token} (h : token? text = some (t, rest))
    (ht : t.isVerbatim = true) : verbatimBegin <+: text := by
  rw [token?.eq_def] at h
  split at h
  · cases h
  · next cs =>
    have hcommand := Option.some.inj h
    rw [commandToken.eq_def] at hcommand
    split at hcommand
    · next name behind henv =>
      split at hcommand
      · next hname =>
        rw [eq_of_environment henv, hname, verbatimBegin_eq]
        exact ⟨behind, by simp⟩
      · cases hcommand
        cases ht
    · split at hcommand
      · cases hcommand
        cases ht
      · split at hcommand <;> cases hcommand <;> cases ht
  all_goals cases h; cases ht

theorem infix_of_verbatim {text : List Char} {t : Token} (h : t ∈ tokens text) (ht : t.isVerbatim = true) :
    verbatimBegin <:+: text := by
  fun_induction tokens text with
  | case1 text hnone => cases h
  | case2 text u rest hsome ih =>
    obtain rfl | h := List.mem_cons.1 h
    · exact (prefix_of_verbatim hsome ht).isInfix
    · obtain ⟨c, cs, rfl, hsuffix⟩ := suffix_token hsome
      exact (ih h).trans (hsuffix.trans (List.suffix_cons c cs)).isInfix

end Latex
end Folio

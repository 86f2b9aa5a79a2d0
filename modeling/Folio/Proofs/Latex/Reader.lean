import Mathlib.Data.List.Basic
import Folio.Latex.Verbatim

/-!
# Folio.Proofs.Latex.Reader

Reading LaTeX.

* `tokens`: a text as tokens. A backslash is taken together with the character behind it, a comment up to the end
  of its line, and a verbatim environment up to the first end mark.
* `nest`: the groups that are open after some tokens, if each one is closed by its own end.
* `WellFormed`: no group is left open, and none is closed that is not open.
* `Reads`: what a piece of text does to the open groups, wherever the piece stands. Pieces compose
  (`Reads.append`), and what is open around a piece stays open (`Reads.frame`).
-/

namespace Folio
namespace Latex

/-- What a reader of LaTeX takes at once. -/
inductive Token where
  | char (c : Char)
  | escaped (c : Char)
  | comment (text : List Char)
  | verbatim (body : List Char)
  | unclosed
  | opened
  | closed
  | begins (name : List Char)
  | ends (name : List Char)
  deriving DecidableEq, Repr

/-- The text before the first place of a pattern and the text behind it. -/
def cutAt (pattern : List Char) : List Char → Option (List Char × List Char)
  | [] => none
  | c :: cs =>
    if pattern.isPrefixOf (c :: cs) then some ([], (c :: cs).drop pattern.length)
    else (cutAt pattern cs).map fun p => (c :: p.1, p.2)

/-- The name of the environment that is begun or ended here with this word, and the text behind it. -/
def environment? (word text : List Char) : Option (List Char × List Char) :=
  if word.isPrefixOf text then
    match (text.drop word.length).dropWhile (· != '}') with
    | [] => none
    | _ :: rest => some ((text.drop word.length).takeWhile (· != '}'), rest)
  else none

def beginWord : List Char := "begin\x7b".toList

def endWord : List Char := "end\x7b".toList

def verbatimName : List Char := "verbatim".toList

theorem suffix_cutAt {pattern text before after : List Char} (h : cutAt pattern text = some (before, after)) :
    after <:+ text := by
  induction text generalizing before with
  | nil => cases h
  | cons c cs ih =>
    rw [cutAt] at h
    split at h
    · cases h
      exact List.drop_suffix _ _
    · obtain ⟨p, hp, heq⟩ := Option.map_eq_some_iff.1 h
      cases heq
      exact (ih hp).trans (List.suffix_cons c cs)

theorem eq_of_environment {word text name rest : List Char} (h : environment? word text = some (name, rest)) :
    text = word ++ (name ++ '}' :: rest) := by
  rw [environment?] at h
  split at h
  · next hword =>
    obtain ⟨more, rfl⟩ := List.isPrefixOf_iff_prefix.1 hword
    rw [List.drop_left] at h
    split at h
    · cases h
    · next c tail hdrop =>
      cases h
      have hc : c = '}' := by
        have hhead := List.head?_dropWhile_not (· != '}') more
        rw [hdrop] at hhead
        simpa using hhead
      rw [← hc, ← hdrop, hc, List.takeWhile_append_dropWhile]
  · cases h

theorem suffix_environment {word text name rest : List Char} (h : environment? word text = some (name, rest)) :
    rest <:+ text :=
  ⟨word ++ (name ++ ['}']), by rw [eq_of_environment h]; simp⟩

/-- The first token of a text that begins with a backslash, and the text behind it. -/
def commandToken (cs : List Char) : Token × List Char :=
  match environment? beginWord cs with
  | some (name, rest) =>
    if name = verbatimName then
      match cutAt verbatimEnd rest with
      | some (body, rest) => (.verbatim body, rest)
      | none => (.unclosed, [])
    else (.begins name, rest)
  | none =>
    match environment? endWord cs with
    | some (name, rest) => (.ends name, rest)
    | none =>
      match cs with
      | [] => (.char '\\', [])
      | c :: cs => (.escaped c, cs)

/-- The first token of a text, and the text behind it. -/
def token? : List Char → Option (Token × List Char)
  | [] => none
  | '\\' :: cs => some (commandToken cs)
  | '%' :: cs => some (.comment (cs.takeWhile (· != '\n')), cs.dropWhile (· != '\n'))
  | '{' :: cs => some (.opened, cs)
  | '}' :: cs => some (.closed, cs)
  | c :: cs => some (.char c, cs)

theorem suffix_commandToken (cs : List Char) : (commandToken cs).2 <:+ cs := by
  rw [commandToken.eq_def]
  split
  · next h =>
    have hsuffix := suffix_environment h
    split
    · split
      · next h' => exact (suffix_cutAt h').trans hsuffix
      · exact List.nil_suffix
    · exact hsuffix
  · split
    · next h => exact suffix_environment h
    · split
      · exact List.suffix_rfl
      · exact List.suffix_cons _ _

theorem suffix_token {text rest : List Char} {t : Token} (h : token? text = some (t, rest)) :
    ∃ c cs, text = c :: cs ∧ rest <:+ cs := by
  rw [token?.eq_def] at h
  split at h
  · cases h
  · next cs =>
    have hsuffix := suffix_commandToken cs
    rw [Option.some.inj h] at hsuffix
    exact ⟨_, cs, rfl, hsuffix⟩
  · cases h
    exact ⟨_, _, rfl, List.dropWhile_suffix _⟩
  all_goals cases h; exact ⟨_, _, rfl, List.suffix_rfl⟩

theorem length_token {text rest : List Char} {t : Token} (h : token? text = some (t, rest)) :
    rest.length < text.length := by
  obtain ⟨c, cs, rfl, hsuffix⟩ := suffix_token h
  exact Nat.lt_succ_of_le hsuffix.length_le

/-- The tokens of a text. -/
def tokens (text : List Char) : List Token :=
  match _h : token? text with
  | none => []
  | some (t, rest) => t :: tokens rest
termination_by text.length
decreasing_by exact length_token _h

theorem tokens_nil : tokens [] = [] := by
  rw [tokens]
  split
  · rfl
  · next h => cases h

theorem tokens_of_token {text rest : List Char} {t : Token} (h : token? text = some (t, rest)) :
    tokens text = t :: tokens rest := by
  rw [tokens]
  split
  · next h' => rw [h] at h'; cases h'
  · next h' => rw [h] at h'; cases h'; rfl

/-- What can be open: a brace, or an environment. -/
inductive Group where
  | brace
  | environment (name : List Char)
  deriving DecidableEq, Repr

/-- The groups that are open after these tokens, innermost first. -/
def nest : List Group → List Token → Option (List Group)
  | open_, [] => some open_
  | open_, .opened :: ts => nest (.brace :: open_) ts
  | open_, .begins name :: ts => nest (.environment name :: open_) ts
  | .brace :: open_, .closed :: ts => nest open_ ts
  | _, .closed :: _ => none
  | .environment name' :: open_, .ends name :: ts => if name' = name then nest open_ ts else none
  | _, .ends _ :: _ => none
  | _, .unclosed :: _ => none
  | open_, _ :: ts => nest open_ ts

/-- A text in which braces and environments are closed in the order opposite to that in which they are opened. -/
def WellFormed (text : List Char) : Prop :=
  nest [] (tokens text) = some []

instance (text : List Char) : Decidable (WellFormed text) :=
  inferInstanceAs (Decidable (_ = _))

/-! ### Pieces of text -/

/-- A piece of text that is read as these tokens wherever it stands. -/
def Lexes (text : List Char) (ts : List Token) : Prop :=
  ∀ rest, tokens (text ++ rest) = ts ++ tokens rest

theorem Lexes.append {a b : List Char} {ts us : List Token} (ha : Lexes a ts) (hb : Lexes b us) :
    Lexes (a ++ b) (ts ++ us) := by
  intro rest
  rw [List.append_assoc, ha, hb, List.append_assoc]

theorem lexes_nil : Lexes [] [] :=
  fun _ => rfl

theorem lexes_of_token {text : List Char} {t : Token} (h : ∀ rest, token? (text ++ rest) = some (t, rest)) :
    Lexes text [t] :=
  fun rest => tokens_of_token (h rest)

/-- Whether a character is read as it stands. -/
def isOrdinary (c : Char) : Bool :=
  c != '\\' && c != '%' && c != '{' && c != '}'

theorem lexes_ordinary {text : List Char} (h : text.all isOrdinary = true) : Lexes text (text.map .char) := by
  induction text with
  | nil => exact lexes_nil
  | cons c cs ih =>
    rw [List.all_cons, Bool.and_eq_true] at h
    have hc : Lexes [c] [.char c] := by
      apply lexes_of_token
      intro rest
      have h1 := h.1
      simp only [isOrdinary, Bool.and_eq_true, bne_iff_ne, ne_eq] at h1
      simp [token?, h1]
    exact hc.append (ih h.2)

theorem lexes_opened : Lexes ['{'] [.opened] :=
  lexes_of_token fun _ => rfl

theorem lexes_closed : Lexes ['}'] [.closed] :=
  lexes_of_token fun _ => rfl

theorem environment_eq_none {word text : List Char} {c d : Char} (h : d ≠ c) :
    environment? (c :: word) (d :: text) = none := by
  simp [environment?, Ne.symm h]

/-- A backslash takes the next character, unless an environment is begun or ended. -/
theorem lexes_escaped {c : Char} (hb : c ≠ 'b') (he : c ≠ 'e') : Lexes ['\\', c] [.escaped c] := by
  apply lexes_of_token
  intro rest
  have hbegin : environment? beginWord (c :: rest) = none := environment_eq_none hb
  have hend : environment? endWord (c :: rest) = none := environment_eq_none he
  simp [token?, commandToken, hbegin, hend]

theorem environment_append (word : List Char) {name : List Char} (h : '}' ∉ name) (rest : List Char) :
    environment? word (word ++ (name ++ '}' :: rest)) = some (name, rest) := by
  have hname : ∀ c ∈ name, (c != '}') = true := by
    intro c hc
    rw [bne_iff_ne]
    exact fun heq => h (heq ▸ hc)
  have hpre : word.isPrefixOf (word ++ (name ++ '}' :: rest)) = true := by
    rw [List.isPrefixOf_iff_prefix]
    exact List.prefix_append word _
  rw [environment?, if_pos hpre, List.drop_left, List.dropWhile_append_of_pos hname,
    List.takeWhile_append_of_pos hname]
  simp

theorem lexes_begins {name : List Char} (h : '}' ∉ name) (hname : name ≠ verbatimName) :
    Lexes ('\\' :: (beginWord ++ name ++ ['}'])) [.begins name] := by
  apply lexes_of_token
  intro rest
  have henv := environment_append beginWord h rest
  have htext : '\\' :: (beginWord ++ name ++ ['}']) ++ rest = '\\' :: (beginWord ++ (name ++ '}' :: rest)) := by
    simp
  rw [htext, token?, commandToken.eq_def, henv]
  simp [hname]

theorem lexes_ends {name : List Char} (h : '}' ∉ name) : Lexes ('\\' :: (endWord ++ name ++ ['}'])) [.ends name] := by
  apply lexes_of_token
  intro rest
  have henv := environment_append endWord h rest
  have hbegin : environment? beginWord (endWord ++ (name ++ '}' :: rest)) = none :=
    environment_eq_none (by decide)
  have htext : '\\' :: (endWord ++ name ++ ['}']) ++ rest = '\\' :: (endWord ++ (name ++ '}' :: rest)) := by
    simp
  rw [htext, token?, commandToken.eq_def, hbegin, henv]

theorem token_comment {text : List Char} (h : '\n' ∉ text) (rest : List Char) :
    token? ('%' :: (text ++ '\n' :: rest)) = some (.comment text, '\n' :: rest) := by
  have htext : ∀ c ∈ text, (c != '\n') = true := by
    intro c hc
    rw [bne_iff_ne]
    exact fun heq => h (heq ▸ hc)
  rw [token?, List.takeWhile_append_of_pos htext, List.dropWhile_append_of_pos htext]
  simp

theorem lexes_comment {text : List Char} (h : '\n' ∉ text) :
    Lexes ('%' :: (text ++ ['\n'])) [.comment text, .char '\n'] := by
  intro rest
  have hline : token? ('\n' :: rest) = some (.char '\n', rest) := rfl
  rw [List.cons_append, List.append_assoc, List.singleton_append, tokens_of_token (token_comment h rest),
    tokens_of_token hline]
  rfl

/-- A text behind which the first place of a pattern is looked for as if the text were not there. -/
def Passes (pattern text : List Char) : Prop :=
  ∀ rest, cutAt pattern (text ++ rest) = (cutAt pattern rest).map fun p => (text ++ p.1, p.2)

theorem Passes.append {pattern a b : List Char} (ha : Passes pattern a) (hb : Passes pattern b) :
    Passes pattern (a ++ b) := by
  intro rest
  rw [List.append_assoc, ha, hb, Option.map_map]
  simp [Function.comp_def]

theorem cutAt_append_self {pattern : List Char} (h : pattern ≠ []) (rest : List Char) :
    cutAt pattern (pattern ++ rest) = some ([], rest) := by
  obtain ⟨c, cs, rfl⟩ := List.exists_cons_of_ne_nil h
  have hpre : (c :: cs).isPrefixOf (c :: (cs ++ rest)) = true := by
    rw [List.isPrefixOf_iff_prefix]
    exact List.prefix_append (c :: cs) rest
  rw [List.cons_append, cutAt, if_pos hpre]
  simp

theorem verbatimBegin_eq : verbatimBegin = '\\' :: (beginWord ++ (verbatimName ++ ['}'])) := by
  decide

theorem token_verbatim {body : List Char} (h : Passes verbatimEnd body) (rest : List Char) :
    token? (verbatimBegin ++ body ++ verbatimEnd ++ rest) = some (.verbatim body, rest) := by
  have hcut : cutAt verbatimEnd (body ++ (verbatimEnd ++ rest)) = some (body, rest) := by
    rw [h, cutAt_append_self (by decide), Option.map_some, List.append_nil]
  have hname : '}' ∉ verbatimName := by decide
  have henv := environment_append beginWord hname (body ++ (verbatimEnd ++ rest))
  have htext : verbatimBegin ++ body ++ verbatimEnd ++ rest =
      '\\' :: (beginWord ++ (verbatimName ++ '}' :: (body ++ (verbatimEnd ++ rest)))) := by
    rw [verbatimBegin_eq]
    simp
  rw [htext, token?, commandToken.eq_def, henv]
  simp [hcut]

theorem lexes_verbatim {body : List Char} (h : Passes verbatimEnd body) :
    Lexes (verbatimBegin ++ body ++ verbatimEnd) [.verbatim body] :=
  lexes_of_token (token_verbatim h)

/-- What a piece of text does to the groups that are open before it, wherever it stands. -/
def Reads (before : List Group) (text : List Char) (after : List Group) : Prop :=
  ∃ ts, Lexes text ts ∧ ∀ around rest, nest (before ++ around) (ts ++ rest) = nest (after ++ around) rest

namespace Reads

theorem append {a b : List Char} {before between after : List Group} (ha : Reads before a between)
    (hb : Reads between b after) : Reads before (a ++ b) after := by
  obtain ⟨ts, hts, hnest⟩ := ha
  obtain ⟨us, hus, hnest'⟩ := hb
  refine ⟨ts ++ us, hts.append hus, fun around rest => ?_⟩
  rw [List.append_assoc, hnest, hnest']

theorem frame {text : List Char} {before after : List Group} (h : Reads before text after) (around : List Group) :
    Reads (before ++ around) text (after ++ around) := by
  obtain ⟨ts, hts, hnest⟩ := h
  refine ⟨ts, hts, fun outside rest => ?_⟩
  rw [List.append_assoc, hnest, List.append_assoc]

theorem wellFormed {text : List Char} (h : Reads [] text []) : WellFormed text := by
  obtain ⟨ts, hts, hnest⟩ := h
  have htokens := hts []
  rw [List.append_nil, tokens_nil] at htokens
  rw [WellFormed, htokens]
  exact hnest [] []

end Reads

end Latex
end Folio

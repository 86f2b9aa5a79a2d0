import Mathlib.Data.List.Basic
import Mathlib.Data.List.Nodup
import Mathlib.Data.List.Perm.Basic
import Folio.Placeholder

/-!
# Folio.Proofs.Placeholder.Expansion

Substitution in one pass.

`expand` scans a template from left to right. Where the placeholder of a known name stands its value is put and
the scan goes on behind the placeholder; every other character is copied. So a value is never looked into.

* `replaceAll_expand`: one global replacement changes one value of an expansion, as long as what is replaced
  stands nowhere else (`OnlyPut`).
* `Alike.closesIn`: expansions that differ in placeholders only close the same placeholders.
* `expand_append_tag`: pairs that put the placeholders of their own names change nothing.
* `expand_perm`: the order of the pairs does not matter.
-/

namespace Folio
namespace Placeholder

/-- Whether a text is free of braces. -/
def Braceless (cs : List Char) : Prop :=
  '{' ∉ cs ∧ '}' ∉ cs

instance (cs : List Char) : Decidable (Braceless cs) :=
  inferInstanceAs (Decidable (_ ∧ _))

/-- The first pair whose placeholder stands at the start of a text. -/
def standing? (pairs : List (List Char × List Char)) (text : List Char) : Option (List Char × List Char) :=
  pairs.find? fun p => (marked [] p.1).isPrefixOf text

/-- The template with the value of each known name in place of its placeholder, in one pass. -/
def expand (pairs : List (List Char × List Char)) : List Char → List Char
  | [] => []
  | c :: cs =>
    match standing? pairs (c :: cs) with
    | some p => p.2 ++ expand pairs (cs.drop (p.1.length + 1))
    | none => c :: expand pairs cs
termination_by cs => cs.length
decreasing_by
  all_goals simp only [List.length_cons, List.length_drop]
  all_goals omega

/-! ### Braceless blocks -/

theorem Braceless.append {x y : List Char} (hx : Braceless x) (hy : Braceless y) : Braceless (x ++ y) :=
  ⟨by simp [hx.1, hy.1], by simp [hx.2, hy.2]⟩

theorem Braceless.of_cons {c : Char} {y : List Char} (h : Braceless (c :: y)) : Braceless y :=
  ⟨fun hm => h.1 (List.mem_cons_of_mem c hm), fun hm => h.2 (List.mem_cons_of_mem c hm)⟩

theorem marked_ne_nil (token name : List Char) : marked token name ≠ [] := by
  simp [marked]

theorem marked_eq (token name : List Char) : marked token name = '{' :: (name ++ token ++ ['}']) := by
  simp [marked]

/-- A braceless text up to its closing brace is determined by any text that begins with it. -/
theorem eq_of_closes {x y text : List Char} (hx : Braceless x) (hy : Braceless y)
    (h : x ++ ['}'] <+: text) (h' : y ++ ['}'] <+: text) : x = y := by
  induction x generalizing y text with
  | nil =>
    obtain ⟨rest, rfl⟩ := h
    cases y with
    | nil => rfl
    | cons d y =>
      have hd : d = '}' := (List.cons_prefix_cons.1 h').1
      exact absurd (hd ▸ List.mem_cons_self) hy.2
  | cons c x ih =>
    obtain ⟨rest, rfl⟩ := h
    cases y with
    | nil =>
      have hc : '}' = c := (List.cons_prefix_cons.1 h').1
      exact absurd (hc ▸ List.mem_cons_self) hx.2
    | cons d y =>
      obtain ⟨rfl, htail⟩ := List.cons_prefix_cons.1 h'
      rw [ih hx.of_cons hy.of_cons ⟨rest, rfl⟩ htail]

theorem eq_of_marked {token token' name name' text : List Char} (h : Braceless (name ++ token))
    (h' : Braceless (name' ++ token')) (hm : marked token name <+: text) (hm' : marked token' name' <+: text) :
    name ++ token = name' ++ token' := by
  obtain ⟨rest, rfl⟩ := hm
  simp only [marked_eq, List.cons_append] at hm'
  have hm'' := (List.cons_prefix_cons.1 hm').2
  exact eq_of_closes h h' (List.prefix_append _ rest) hm''

/-- A block does not stand inside a block: each begins with its only opening brace. -/
theorem absent_of_no_brace {block body t rest : List Char} (hbody : '{' ∉ body)
    (hblock : ∃ b, block = '{' :: b) (ht : t <:+ body) (hne : t ≠ []) : ¬ block <+: t ++ rest := by
  obtain ⟨b, rfl⟩ := hblock
  intro h
  cases t with
  | nil => exact hne rfl
  | cons c t =>
    have hc : '{' = c := (List.cons_prefix_cons.1 h).1
    exact hbody (hc ▸ ht.subset List.mem_cons_self)

/-! ### Expansion -/

theorem expand_nil (pairs : List (List Char × List Char)) : expand pairs [] = [] := by
  rw [expand]

theorem expand_of_none {pairs : List (List Char × List Char)} {c : Char} {cs : List Char}
    (h : standing? pairs (c :: cs) = none) : expand pairs (c :: cs) = c :: expand pairs cs := by
  rw [expand, h]

theorem expand_of_some {pairs : List (List Char × List Char)} {c : Char} {cs : List Char} {p : List Char × List Char}
    (h : standing? pairs (c :: cs) = some p) :
    expand pairs (c :: cs) = p.2 ++ expand pairs (cs.drop (p.1.length + 1)) := by
  rw [expand, h]

theorem mem_of_standing {pairs : List (List Char × List Char)} {text : List Char} {p : List Char × List Char}
    (h : standing? pairs text = some p) : p ∈ pairs :=
  List.mem_of_find?_eq_some h

theorem prefix_of_standing {pairs : List (List Char × List Char)} {text : List Char} {p : List Char × List Char}
    (h : standing? pairs text = some p) : marked [] p.1 <+: text := by
  have hp : (marked [] p.1).isPrefixOf text = true := by
    simpa using List.find?_some h
  exact List.isPrefixOf_iff_prefix.1 hp

theorem eq_of_standing {pairs : List (List Char × List Char)} {c : Char} {cs : List Char} {p : List Char × List Char}
    (h : standing? pairs (c :: cs) = some p) : c :: cs = marked [] p.1 ++ cs.drop (p.1.length + 1) := by
  obtain ⟨rest, hrest⟩ := prefix_of_standing h
  have hcs : cs = (p.1 ++ ['}']) ++ rest := by
    simp only [marked, List.append_nil, List.cons_append, List.cons.injEq] at hrest
    exact hrest.2.symm
  have hdrop : cs.drop (p.1.length + 1) = rest := by
    rw [hcs, List.drop_left' (by simp)]
  rw [hdrop, hrest]

theorem standing_eq_none {pairs : List (List Char × List Char)} {text : List Char} :
    standing? pairs text = none ↔ ∀ p ∈ pairs, ¬ marked [] p.1 <+: text := by
  simp [standing?, List.find?_eq_none, List.isPrefixOf_iff_prefix]

/-! ### One replacement -/

/-- In the expansion of a text, `block` stands only where the value of `name` is put, which is `block`. -/
def OnlyPut (name block : List Char) (pairs : List (List Char × List Char)) : List Char → Prop
  | [] => True
  | c :: cs =>
    match standing? pairs (c :: cs) with
    | some p =>
      (if p.1 = name then p.2 = block
        else ∀ t, t <:+ p.2 → t ≠ [] → ¬ block <+: t ++ expand pairs (cs.drop (p.1.length + 1))) ∧
      OnlyPut name block pairs (cs.drop (p.1.length + 1))
    | none => ¬ block <+: c :: expand pairs cs ∧ OnlyPut name block pairs cs
termination_by cs => cs.length
decreasing_by
  all_goals simp only [List.length_cons, List.length_drop]
  all_goals omega

theorem onlyPut_of_some {name block : List Char} {pairs : List (List Char × List Char)} {c : Char} {cs : List Char}
    {p : List Char × List Char} (h : standing? pairs (c :: cs) = some p) :
    OnlyPut name block pairs (c :: cs) ↔
      (if p.1 = name then p.2 = block
        else ∀ t, t <:+ p.2 → t ≠ [] → ¬ block <+: t ++ expand pairs (cs.drop (p.1.length + 1))) ∧
      OnlyPut name block pairs (cs.drop (p.1.length + 1)) := by
  rw [OnlyPut, h]

theorem onlyPut_of_none {name block : List Char} {pairs : List (List Char × List Char)} {c : Char} {cs : List Char}
    (h : standing? pairs (c :: cs) = none) :
    OnlyPut name block pairs (c :: cs) ↔ ¬ block <+: c :: expand pairs cs ∧ OnlyPut name block pairs cs := by
  rw [OnlyPut, h]

/-- The pairs with another value for a name. -/
def assign (name value : List Char) (pairs : List (List Char × List Char)) : List (List Char × List Char) :=
  pairs.map fun p => if p.1 = name then (p.1, value) else p

theorem standing_assign (name value : List Char) (pairs : List (List Char × List Char)) (text : List Char) :
    standing? (assign name value pairs) text =
      (standing? pairs text).map fun p => if p.1 = name then (p.1, value) else p := by
  have hname : ∀ p : List Char × List Char, (if p.1 = name then (p.1, value) else p).1 = p.1 := by
    intro p
    split <;> rfl
  simp only [standing?, assign, List.find?_map, Function.comp_def, hname]

/-- A global replacement of a block that stands only where a value is put changes that value. -/
theorem replaceAll_expand {name block : List Char} (value : List Char) {pairs : List (List Char × List Char)}
    (hne : block ≠ []) {text : List Char} (h : OnlyPut name block pairs text) :
    Text.replaceAll block value (expand pairs text) = expand (assign name value pairs) text := by
  fun_induction expand pairs text with
  | case1 => rw [expand_nil, Text.replaceAll]
  | case2 c cs p hp ih =>
    rw [onlyPut_of_some hp] at h
    have hassign := standing_assign name value pairs (c :: cs)
    rw [hp, Option.map_some] at hassign
    rw [expand_of_some hassign]
    obtain ⟨hput, hrest⟩ := h
    split at hput
    · next hname =>
      rw [hput, Text.replaceAll_append_self value hne, ih hrest, if_pos hname]
    · next hname =>
      rw [Text.replaceAll_append_of_absent value hput, ih hrest, if_neg hname]
  | case3 c cs hnone ih =>
    rw [onlyPut_of_none hnone] at h
    have hassign := standing_assign name value pairs (c :: cs)
    rw [hnone, Option.map_none] at hassign
    rw [expand_of_none hassign, Text.replaceAll_cons_of_absent value h.1, ih h.2]

theorem assign_middle {name : List Char} (old value : List Char) {before after : List (List Char × List Char)}
    (hb : name ∉ before.map Prod.fst) (ha : name ∉ after.map Prod.fst) :
    assign name value (before ++ (name, old) :: after) = before ++ (name, value) :: after := by
  have hkeep : ∀ pairs : List (List Char × List Char), name ∉ pairs.map Prod.fst → assign name value pairs = pairs := by
    intro pairs hp
    refine (List.map_congr_left fun q hq => ?_).trans (List.map_id pairs)
    have hq' : q.1 ≠ name := fun heq => hp (heq ▸ List.mem_map_of_mem hq)
    exact if_neg hq'
  have hmiddle : assign name value ((name, old) :: after) = (name, value) :: assign name value after := by
    simp [assign]
  rw [show before ++ (name, old) :: after = before ++ ((name, old) :: after) from rfl, assign, List.map_append,
    ← assign, ← assign, hkeep before hb, hmiddle, hkeep after ha]

/-! ### Two expansions of one template -/

/-- A pair that puts the placeholder of its name, marked with a token. -/
def tag (token : List Char) (p : List Char × List Char) : List Char × List Char :=
  (p.1, marked token p.1)

/-- Pairs with the same names in the same places. Where the values differ, they are placeholders, marked with these
tokens. -/
def Alike (token token' : List Char) (pairs pairs' : List (List Char × List Char)) : Prop :=
  List.Forall₂ (fun p q => p.1 = q.1 ∧ (p.2 = q.2 ∨ p.2 = marked token p.1 ∧ q.2 = marked token' q.1)) pairs pairs'

theorem alike_append_tag (token token' : List Char) (before after : List (List Char × List Char)) :
    Alike token token' (before ++ after.map (tag token)) (before ++ after.map (tag token')) := by
  refine List.rel_append (List.forall₂_same.2 fun _ _ => ⟨rfl, .inl rfl⟩) ?_
  rw [List.forall₂_map_left_iff, List.forall₂_map_right_iff]
  exact List.forall₂_same.2 fun _ _ => ⟨rfl, .inr ⟨rfl, rfl⟩⟩

section Alike

variable {token token' : List Char} {pairs pairs' : List (List Char × List Char)}

theorem Alike.standing_none (h : Alike token token' pairs pairs') {text : List Char}
    (hnone : standing? pairs text = none) : standing? pairs' text = none := by
  induction h with
  | nil => rfl
  | cons hpq _ ih =>
    simp only [standing?, List.find?_cons] at hnone ih ⊢
    rw [← hpq.1]
    split at hnone
    · cases hnone
    · exact ih hnone

theorem Alike.standing_some (h : Alike token token' pairs pairs') {text : List Char} {p : List Char × List Char}
    (hp : standing? pairs text = some p) :
    ∃ q, standing? pairs' text = some q ∧ p.1 = q.1 ∧
      (p.2 = q.2 ∨ p.2 = marked token p.1 ∧ q.2 = marked token' q.1) := by
  induction h with
  | nil => cases hp
  | @cons p' q' pairs pairs' hpq _ ih =>
    simp only [standing?, List.find?_cons] at hp ih ⊢
    rw [← hpq.1]
    split at hp
    · cases hp
      exact ⟨q', rfl, hpq⟩
    · exact ih hp

end Alike

/-- Whatever closes a placeholder in the first text closes it in the second as well. -/
def ClosesIn (text text' : List Char) : Prop :=
  ∀ y, Braceless y → y ++ ['}'] <+: text → y ++ ['}'] <+: text'

theorem ClosesIn.append {text text' : List Char} (h : ClosesIn text text') (w : List Char) :
    ClosesIn (w ++ text) (w ++ text') := by
  induction w with
  | nil => exact h
  | cons c w ih =>
    intro y hy hp
    cases y with
    | nil =>
      obtain ⟨hc, -⟩ := List.cons_prefix_cons.1 hp
      exact List.cons_prefix_cons.2 ⟨hc, List.nil_prefix⟩
    | cons d y =>
      obtain ⟨hc, htail⟩ := List.cons_prefix_cons.1 hp
      exact List.cons_prefix_cons.2 ⟨hc, ih y hy.of_cons htail⟩

/-- Nothing closes a placeholder in a text that begins with an opening brace. -/
theorem closesIn_of_open (text text' : List Char) : ClosesIn ('{' :: text) text' := by
  intro y hy hp
  cases y with
  | nil => exact absurd (List.cons_prefix_cons.1 hp).1 (by decide)
  | cons d y =>
    have hd : d = '{' := (List.cons_prefix_cons.1 hp).1
    exact absurd (hd ▸ List.mem_cons_self) hy.1

/-- Expansions with values alike close the same placeholders: a value that differs begins with a brace, and nothing
closes across it. -/
theorem Alike.closesIn {token token' : List Char} {pairs pairs' : List (List Char × List Char)}
    (h : Alike token token' pairs pairs') (text : List Char) :
    ClosesIn (expand pairs text) (expand pairs' text) := by
  fun_induction expand pairs text with
  | case1 =>
    rw [expand_nil]
    exact fun y _ hy => hy
  | case2 c cs p hp ih =>
    obtain ⟨q, hq, hname, hvalue⟩ := h.standing_some hp
    rw [expand_of_some hq, ← hname]
    obtain hvalue | ⟨hopen, -⟩ := hvalue
    · rw [hvalue]
      exact ih.append q.2
    · rw [hopen, marked_eq, List.cons_append]
      exact closesIn_of_open _ _
  | case3 c cs hnone ih =>
    rw [expand_of_none (h.standing_none hnone)]
    exact ih.append [c]

/-! ### Placeholders that stay -/

theorem expand_append_of_no_brace (pairs : List (List Char × List Char)) {text : List Char} (h : '{' ∉ text)
    (rest : List Char) : expand pairs (text ++ rest) = text ++ expand pairs rest := by
  induction text with
  | nil => rfl
  | cons c cs ih =>
    have hnone : standing? pairs (c :: (cs ++ rest)) = none := by
      rw [standing_eq_none]
      intro p _ hp
      rw [marked_eq] at hp
      exact h ((List.cons_prefix_cons.1 hp).1 ▸ List.mem_cons_self)
    rw [List.cons_append, expand_of_none hnone, ih fun hm => h (List.mem_cons_of_mem c hm), List.cons_append]

theorem standing_append (pairs pairs' : List (List Char × List Char)) (text : List Char) :
    standing? (pairs ++ pairs') text = (standing? pairs text).or (standing? pairs' text) :=
  List.find?_append

/-- Pairs that put the placeholders of their own names change nothing. -/
theorem expand_append_tag (pairs : List (List Char × List Char)) {same : List (List Char × List Char)}
    (h : ∀ p ∈ same, Braceless p.1) (text : List Char) :
    expand (pairs ++ same.map (tag [])) text = expand pairs text := by
  fun_induction expand (pairs ++ same.map (tag [])) text with
  | case1 => rw [expand_nil]
  | case2 c cs p hp ih =>
    rw [standing_append] at hp
    cases hq : standing? pairs (c :: cs) with
    | some q =>
      rw [hq, Option.some_or, Option.some.injEq] at hp
      rw [expand_of_some hq, ih, hp]
    | none =>
      rw [hq, Option.none_or] at hp
      obtain ⟨q, hq', rfl⟩ := List.mem_map.1 (mem_of_standing hp)
      have hbody : '{' ∉ q.1 ++ ['}'] := by simp [(h q hq').1]
      have htext := eq_of_standing hp
      have hcs : cs = (q.1 ++ ['}']) ++ cs.drop (q.1.length + 1) := by
        simp only [tag, marked, List.append_nil, List.cons_append, List.cons.injEq] at htext
        exact htext.2
      rw [expand_of_none hq]
      conv_rhs => rw [hcs, expand_append_of_no_brace pairs hbody]
      rw [ih]
      have hc : c = '{' := by
        simp only [tag, marked, List.cons_append, List.cons.injEq] at htext
        exact htext.1
      simp [tag, marked, hc]
  | case3 c cs hnone ih =>
    rw [standing_append] at hnone
    have hq : standing? pairs (c :: cs) = none := (Option.or_eq_none_iff.1 hnone).1
    rw [expand_of_none hq, ih]

theorem expand_map_tag_nil {pairs : List (List Char × List Char)} (h : ∀ p ∈ pairs, Braceless p.1)
    (text : List Char) : expand (pairs.map (tag [])) text = text := by
  have hnil : ∀ t, expand [] t = t := by
    intro t
    induction t with
    | nil => rw [expand_nil]
    | cons c cs ih => rw [expand_of_none rfl, ih]
  rw [← List.nil_append (pairs.map (tag [])), expand_append_tag [] h, hnil]

/-! ### Order -/

theorem not_infix_of_contains_eq_false {pattern text : List Char} (h : Text.contains pattern text = false) :
    ¬ pattern <:+: text := by
  rw [← Text.contains_iff, h]
  exact Bool.false_ne_true

/-- At most one of the names stands at the start of a text, so their order does not matter. -/
theorem standing_perm {pairs pairs' : List (List Char × List Char)} (hperm : pairs'.Perm pairs)
    (hnames : ∀ p ∈ pairs, Braceless p.1) (hnodup : (pairs.map Prod.fst).Nodup) (text : List Char) :
    standing? pairs' text = standing? pairs text := by
  cases hp : standing? pairs text with
  | none =>
    rw [standing_eq_none] at hp ⊢
    exact fun q hq => hp q (hperm.subset hq)
  | some p =>
    cases hq : standing? pairs' text with
    | none => exact absurd (prefix_of_standing hp) (standing_eq_none.1 hq p (hperm.symm.subset (mem_of_standing hp)))
    | some q =>
      have hqp : q ∈ pairs := hperm.subset (mem_of_standing hq)
      have hpp : p ∈ pairs := mem_of_standing hp
      have hname : q.1 ++ [] = p.1 ++ [] :=
        eq_of_marked (by simpa using hnames q hqp) (by simpa using hnames p hpp) (prefix_of_standing hq)
          (prefix_of_standing hp)
      rw [List.inj_on_of_nodup_map hnodup hqp hpp (by simpa using hname)]

theorem expand_perm {pairs pairs' : List (List Char × List Char)} (hperm : pairs'.Perm pairs)
    (hnames : ∀ p ∈ pairs, Braceless p.1) (hnodup : (pairs.map Prod.fst).Nodup) (text : List Char) :
    expand pairs' text = expand pairs text := by
  fun_induction expand pairs text with
  | case1 => rw [expand_nil]
  | case2 c cs p hp ih =>
    rw [expand_of_some ((standing_perm hperm hnames hnodup _).trans hp), ih]
  | case3 c cs hnone ih =>
    rw [expand_of_none ((standing_perm hperm hnames hnodup _).trans hnone), ih]

theorem expand_of_not_contains {pairs : List (List Char × List Char)} {text : List Char}
    (h : ∀ p ∈ pairs, Text.contains (marked [] p.1) text = false) : expand pairs text = text := by
  induction text with
  | nil => rw [expand_nil]
  | cons c cs ih =>
    have hnone : standing? pairs (c :: cs) = none := by
      rw [standing_eq_none]
      exact fun p hp hpre => not_infix_of_contains_eq_false (h p hp) hpre.isInfix
    have htail : ∀ p ∈ pairs, Text.contains (marked [] p.1) cs = false := by
      intro p hp
      have hcons := h p hp
      rw [Text.contains, Bool.or_eq_false_iff] at hcons
      exact hcons.2
    rw [expand_of_none hnone, ih htail]

end Placeholder
end Folio

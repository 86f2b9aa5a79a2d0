import Mathlib.Data.List.Sublists
import Folio.Proofs.Placeholder.Expansion

/-!
# Folio.Proofs.Placeholder.Rounds

The two rounds of substitution are one pass.

* `Separate.mark_expand`: the first round puts the marked placeholder of each name, whatever the template holds.
* `Separate.fill_expand`: the second round puts the values. Were a marked placeholder to arise anywhere else, in a
  value or across its ends, the token would stand in the template with some of the values put.
* `replace_eq_expand`: so both rounds together are `expand`, for a token that is `Fresh`.
-/

namespace Folio
namespace Placeholder

/-! ### The two rounds -/

/-- Names without braces, each once, and a token without braces that occurs in none of them. -/
structure Separate (token : List Char) (pairs : List (List Char × List Char)) : Prop where
  token_braceless : Braceless token
  braceless : ∀ p ∈ pairs, Braceless p.1
  nodup : (pairs.map Prod.fst).Nodup
  notin_names : ∀ p ∈ pairs, ¬ token <:+: p.1

section Rounds

variable {token : List Char} {pairs : List (List Char × List Char)}

theorem Separate.name_eq (h : Separate token pairs) {p q : List Char × List Char} (hp : p ∈ pairs) (hq : q ∈ pairs)
    {mark mark' text : List Char} (hm : mark = [] ∨ mark = token) (hm' : mark' = [] ∨ mark' = token)
    (hpre : marked mark p.1 <+: text) (hpre' : marked mark' q.1 <+: text) : p.1 = q.1 := by
  have hmark : ∀ {m}, m = [] ∨ m = token → Braceless m := by
    rintro m (rfl | rfl)
    · exact ⟨List.not_mem_nil, List.not_mem_nil⟩
    · exact h.token_braceless
  have heq := eq_of_marked ((h.braceless p hp).append (hmark hm)) ((h.braceless q hq).append (hmark hm'))
    hpre hpre'
  obtain rfl | rfl := hm <;> obtain rfl | rfl := hm'
  · simpa using heq
  · rw [List.append_nil] at heq
    exact absurd ⟨q.1, [], by simp [heq]⟩ (h.notin_names p hp)
  · rw [List.append_nil] at heq
    exact absurd ⟨p.1, [], by simp [heq]⟩ (h.notin_names q hq)
  · exact List.append_cancel_right heq

/-- The placeholder of one name does not stand in that of another one, marked or not. -/
theorem Separate.not_stands (h : Separate token pairs) {p q : List Char × List Char} (hp : p ∈ pairs)
    (hq : q ∈ pairs) (hne : q.1 ≠ p.1) {mark mark' : List Char} (hm : mark = [] ∨ mark = token)
    (hm' : mark' = [] ∨ mark' = token) {t : List Char} (ht : t <:+ marked mark' q.1) (hnil : t ≠ [])
    (rest : List Char) : ¬ marked mark p.1 <+: t ++ rest := by
  rw [marked_eq, List.suffix_cons_iff] at ht
  obtain rfl | ht := ht
  · intro hpre
    rw [← marked_eq] at hpre
    exact hne (h.name_eq hp hq hm hm' hpre (List.prefix_append _ rest)).symm
  · have hbody : '{' ∉ q.1 ++ mark' ++ ['}'] := by
      have hmark : '{' ∉ mark' := by
        obtain rfl | rfl := hm'
        · exact List.not_mem_nil
        · exact h.token_braceless.1
      simp [(h.braceless q hq).1, hmark]
    exact absent_of_no_brace hbody ⟨_, marked_eq mark p.1⟩ ht hnil

/-- A pair of a list has a name that no pair around it has. -/
theorem eq_middle_of_name_eq {before after : List (List Char × List Char)} {p q : List Char × List Char}
    (h : ((before ++ p :: after).map Prod.fst).Nodup) (hq : q ∈ before ++ p :: after) (hname : q.1 = p.1) :
    q = p :=
  List.inj_on_of_nodup_map h hq (List.mem_append_right before List.mem_cons_self) hname

theorem name_notMem {before after : List (List Char × List Char)} {p : List Char × List Char}
    (h : ((before ++ p :: after).map Prod.fst).Nodup) :
    p.1 ∉ before.map Prod.fst ∧ p.1 ∉ after.map Prod.fst := by
  rw [List.map_append, List.map_cons, List.nodup_append] at h
  obtain ⟨-, hafter, hdisjoint⟩ := h
  exact ⟨fun hm => hdisjoint p.1 hm p.1 List.mem_cons_self rfl, (List.nodup_cons.1 hafter).1⟩

/-- The pairs in the first round: those before `p` are marked, `p` and those after it are not. -/
theorem mem_marking {before after : List (List Char × List Char)} {p q : List Char × List Char}
    (hq : q ∈ before.map (tag token) ++ (p :: after).map (tag [])) :
    ∃ r ∈ before ++ p :: after, ∃ mark, (mark = [] ∨ mark = token) ∧ q = tag mark r := by
  rw [List.mem_append] at hq
  obtain hq | hq := hq
  · obtain ⟨r, hr, rfl⟩ := List.mem_map.1 hq
    exact ⟨r, List.mem_append_left _ hr, token, .inr rfl, rfl⟩
  · obtain ⟨r, hr, rfl⟩ := List.mem_map.1 hq
    exact ⟨r, List.mem_append_right _ hr, [], .inl rfl, rfl⟩

theorem Separate.onlyPut_mark {before after : List (List Char × List Char)} {p : List Char × List Char}
    (h : Separate token (before ++ p :: after)) (text : List Char) :
    OnlyPut p.1 (marked [] p.1) (before.map (tag token) ++ (p :: after).map (tag [])) text := by
  have hp : p ∈ before ++ p :: after := List.mem_append_right before List.mem_cons_self
  have halike : Alike token [] (before.map (tag token) ++ (p :: after).map (tag []))
      ((before ++ p :: after).map (tag [])) := by
    rw [List.map_append]
    refine List.rel_append ?_ (List.forall₂_same.2 fun _ _ => ⟨rfl, .inl rfl⟩)
    exact alike_append_tag token [] [] before
  have hself : tag [] p ∈ before.map (tag token) ++ (p :: after).map (tag []) :=
    List.mem_append_right _ List.mem_cons_self
  fun_induction expand (before.map (tag token) ++ (p :: after).map (tag [])) text with
  | case1 => rw [OnlyPut]; trivial
  | case2 c cs q hq ih =>
    rw [onlyPut_of_some hq]
    refine ⟨?_, ih⟩
    obtain ⟨r, hr, mark, hmark, rfl⟩ := mem_marking (mem_of_standing hq)
    split
    · next hname =>
      have hall : (tag mark r).1 ∉ before.map Prod.fst := hname ▸ (name_notMem h.nodup).1
      obtain hin | hin := List.mem_append.1 (mem_of_standing hq)
      · obtain ⟨r', hr', heq⟩ := List.mem_map.1 hin
        exact absurd (List.mem_map_of_mem hr') (congrArg Prod.fst heq ▸ hall)
      · obtain ⟨r', hr', heq⟩ := List.mem_map.1 hin
        rw [← heq] at hname ⊢
        exact congrArg (marked []) hname
    · next hname =>
      intro t ht hnil
      exact h.not_stands hp hr hname (.inl rfl) hmark ht hnil _
  | case3 c cs hnone ih =>
    rw [onlyPut_of_none hnone]
    refine ⟨fun hpre => ?_, ih⟩
    -- The first round takes the rest of the text for what the template says there.
    rw [marked_eq] at hpre
    obtain ⟨hc, hclose⟩ := List.cons_prefix_cons.1 hpre
    have hplain := halike.closesIn cs (p.1 ++ []) (by simpa using h.braceless p hp) hclose
    rw [expand_map_tag_nil h.braceless] at hplain
    have hstand : marked [] (tag [] p).1 <+: c :: cs := by
      rw [marked_eq, ← hc]
      exact List.cons_prefix_cons.2 ⟨rfl, hplain⟩
    exact standing_eq_none.1 hnone _ hself hstand

theorem mark_cons (token name : List Char) (names : List (List Char)) (text : List Char) :
    mark token (name :: names) text =
      mark token names (Text.replaceAll (marked [] name) (marked token name) text) := rfl

theorem fill_cons (token : List Char) (p : List Char × List Char) (pairs : List (List Char × List Char))
    (text : List Char) :
    fill token (p :: pairs) text = fill token pairs (Text.replaceAll (marked token p.1) p.2 text) := rfl

/-- The first round puts the marked placeholder of each name. -/
theorem Separate.mark_expand {before after : List (List Char × List Char)}
    (h : Separate token (before ++ after)) (text : List Char) :
    mark token (after.map Prod.fst) (expand (before.map (tag token) ++ after.map (tag [])) text) =
      expand ((before ++ after).map (tag token)) text := by
  induction after generalizing before with
  | nil => simp [mark]
  | cons p after ih =>
    have hstep : Text.replaceAll (marked [] p.1) (marked token p.1)
          (expand (before.map (tag token) ++ (p :: after).map (tag [])) text) =
        expand ((before ++ [p]).map (tag token) ++ after.map (tag [])) text := by
      have hnames := name_notMem h.nodup
      have hbefore : p.1 ∉ (before.map (tag token)).map Prod.fst := by
        simpa [tag, Function.comp_def] using hnames.1
      have hafter : p.1 ∉ (after.map (tag [])).map Prod.fst := by
        simpa [tag, Function.comp_def] using hnames.2
      have hassign : assign p.1 (marked token p.1) (before.map (tag token) ++ (p :: after).map (tag [])) =
          (before ++ [p]).map (tag token) ++ after.map (tag []) := by
        have hmiddle := assign_middle (marked [] p.1) (marked token p.1) hbefore hafter
        simpa [tag] using hmiddle
      rw [replaceAll_expand _ (marked_ne_nil [] p.1) (h.onlyPut_mark text), hassign]
    have hsplit : before ++ p :: after = (before ++ [p]) ++ after := by simp
    have hmark := @ih (before ++ [p]) (hsplit ▸ h)
    rw [List.map_cons, mark_cons, hstep, hmark, ← hsplit]

/-- A marked placeholder that begins before an expansion leaves its token in every expansion alike. -/
theorem token_infix_of_marked {text text' : List Char} (h : ClosesIn text text') {name : List Char}
    (hname : Braceless name) (htoken : Braceless token) {start : List Char} (hne : start ≠ [])
    (hpre : marked token name <+: start ++ text) : token <:+: start ++ text' := by
  obtain ⟨c, start, rfl⟩ := List.exists_cons_of_ne_nil hne
  rw [marked_eq] at hpre
  obtain ⟨tail, htail⟩ := h.append start _ (hname.append htoken) (List.cons_prefix_cons.1 hpre).2
  exact ⟨c :: name, '}' :: tail, by simp [← htail]⟩

/-- The placeholder marked for `p` stands nowhere else, since the text with the values put so far, and with the
other placeholders unmarked, is free of the token. -/
theorem Separate.onlyPut_fill {before after : List (List Char × List Char)} {p : List Char × List Char}
    (h : Separate token (before ++ p :: after)) {text : List Char}
    (hfree : ¬ token <:+: expand (before ++ (p :: after).map (tag [])) text) :
    OnlyPut p.1 (marked token p.1) (before ++ (p :: after).map (tag token)) text := by
  have hp : p ∈ before ++ p :: after := List.mem_append_right before List.mem_cons_self
  have hmarked := alike_append_tag token [] before (p :: after)
  have hplain := alike_append_tag [] token before (p :: after)
  have hnames : ∀ mark, (before ++ (p :: after).map (tag mark)).map Prod.fst = (before ++ p :: after).map Prod.fst := by
    intro mark
    simp [tag, Function.comp_def]
  fun_induction expand (before ++ (p :: after).map (tag [])) text with
  | case1 => rw [OnlyPut]; trivial
  | case2 c cs q hq ih =>
    obtain ⟨q', hq', hname, hvalue⟩ := hplain.standing_some hq
    have hclose := hmarked.closesIn (cs.drop (q.1.length + 1))
    rw [onlyPut_of_some hq', ← hname]
    refine ⟨?_, ih fun hin => hfree (hin.trans (List.suffix_append _ _).isInfix)⟩
    split
    · next hself =>
      have hmem := mem_of_standing hq'
      have hnodup := h.nodup
      rw [← hnames token, List.map_cons] at hnodup
      rw [eq_middle_of_name_eq hnodup hmem (hname ▸ hself)]
      rfl
    · next hother =>
      intro t ht hne hpre
      obtain hvalue | ⟨-, hvalue⟩ := hvalue
      · -- A placeholder that begins in a value would leave the token in the unmarked text.
        have hin := token_infix_of_marked hclose (h.braceless p hp) h.token_braceless hne hpre
        obtain ⟨s, hs⟩ := ht
        exact hfree (hin.trans ⟨s, [], by simp [hvalue, ← hs]⟩)
      · obtain ⟨r, hr, hrq⟩ : ∃ r ∈ before ++ p :: after, r.1 = q.1 := by
          have hmem := List.mem_map_of_mem (f := Prod.fst) (mem_of_standing hq)
          rw [hnames] at hmem
          exact List.mem_map.1 hmem
        rw [hvalue, ← hname, ← hrq] at ht
        exact h.not_stands hp hr (hrq ▸ hother) (.inr rfl) (.inr rfl) ht hne _ hpre
  | case3 c cs hnone ih =>
    rw [onlyPut_of_none (hplain.standing_none hnone)]
    refine ⟨fun hpre => ?_, ih fun hin => hfree (hin.trans (List.suffix_cons _ _).isInfix)⟩
    exact hfree (token_infix_of_marked (hmarked.closesIn cs) (h.braceless p hp) h.token_braceless
      (List.cons_ne_nil c []) hpre)

/-- The second round puts the values. -/
theorem Separate.fill_expand {before after : List (List Char × List Char)} (h : Separate token (before ++ after))
    {text : List Char} (hfree : ∀ sub, List.Sublist sub (before ++ after) → ¬ token <:+: expand sub text) :
    fill token after (expand (before ++ after.map (tag token)) text) = expand (before ++ after) text := by
  induction after generalizing before with
  | nil => simp [fill]
  | cons p after ih =>
    have hp : ∀ q ∈ p :: after, Braceless q.1 := fun q hq => h.braceless q (List.mem_append_right before hq)
    have hstep : Text.replaceAll (marked token p.1) p.2 (expand (before ++ (p :: after).map (tag token)) text) =
        expand ((before ++ [p]) ++ after.map (tag token)) text := by
      have hnames := name_notMem h.nodup
      have hafter : p.1 ∉ (after.map (tag token)).map Prod.fst := by
        simpa [tag, Function.comp_def] using hnames.2
      have hassign := assign_middle (marked token p.1) p.2 hnames.1 hafter
      have hbefore : ¬ token <:+: expand (before ++ (p :: after).map (tag [])) text := by
        rw [expand_append_tag before hp]
        exact hfree before (List.sublist_append_left before _)
      rw [replaceAll_expand _ (marked_ne_nil token p.1) (h.onlyPut_fill hbefore)]
      simpa [tag] using congrArg (expand · text) hassign
    have hsplit : before ++ p :: after = (before ++ [p]) ++ after := by simp
    rw [fill_cons, hstep, ih (hsplit ▸ h) (hsplit ▸ hfree), ← hsplit]

end Rounds

/-- What a token has to be like: it has no braces and occurs in no name, nor in the template with the values of
some of the pairs in place of their names. -/
structure Fresh (token : List Char) (pairs : List (List Char × List Char)) (template : List Char) : Prop where
  braceless : Braceless token
  notin_names : ∀ p ∈ pairs, Text.contains token p.1 = false
  notin_texts : ∀ sub, List.Sublist sub pairs → Text.contains token (expand sub template) = false

/-- Substitution in two rounds is substitution in one pass. -/
theorem replace_eq_expand {token : List Char} {pairs : List (List Char × List Char)} {template : List Char}
    (hnames : ∀ p ∈ pairs, Braceless p.1) (hnodup : (pairs.map Prod.fst).Nodup)
    (h : Fresh token pairs template) : replace token pairs template = expand pairs template := by
  have hsep : Separate token ([] ++ pairs) :=
    ⟨h.braceless, hnames, hnodup, fun p hp => not_infix_of_contains_eq_false (h.notin_names p hp)⟩
  have hmark := hsep.mark_expand template
  have hfill := hsep.fill_expand fun sub hsub => not_infix_of_contains_eq_false (h.notin_texts sub hsub)
  simp only [List.nil_append, List.map_nil] at hmark hfill
  rw [expand_map_tag_nil hnames] at hmark
  rw [replace, hmark, hfill]

theorem nodup_charPairs (set : ParameterSet) : ((charPairs set).map Prod.fst).Nodup := by
  have hnames : (charPairs set).map Prod.fst = (set.pairs.map Prod.fst).map String.toList := by
    simp [charPairs, Function.comp_def]
  rw [hnames]
  exact set.nodup.map fun _ _ h => String.toList_inj.1 h

/-- Two rounds with a fresh token put the value of each known name in place of its placeholder, in one pass and
without looking into a value. Neither the order of the names nor the choice of the token matters, and a template
without placeholders of the names stays as it is. -/
theorem substituteWith_eq_expand {token : List Char} {set : ParameterSet} {template : String}
    (hnames : ∀ p ∈ charPairs set, Braceless p.1) (h : Fresh token (charPairs set) template.toList) :
    substituteWith token set template = String.ofList (expand (charPairs set) template.toList) ∧
    (∀ token' set', set'.pairs.Perm set.pairs → Fresh token' (charPairs set') template.toList →
      substituteWith token' set' template = substituteWith token set template) ∧
    ((∀ p ∈ charPairs set, Text.contains (marked [] p.1) template.toList = false) →
      substituteWith token set template = template) := by
  have hone : substituteWith token set template = String.ofList (expand (charPairs set) template.toList) := by
    rw [substituteWith, replace_eq_expand hnames (nodup_charPairs set) h]
  refine ⟨hone, fun token' set' hperm h' => ?_, fun hnone => ?_⟩
  · have hperm' : (charPairs set').Perm (charPairs set) := hperm.map _
    have hnames' : ∀ p ∈ charPairs set', Braceless p.1 := fun p hp => hnames p (hperm'.subset hp)
    rw [hone, substituteWith, replace_eq_expand hnames' (nodup_charPairs set') h',
      expand_perm hperm' hnames (nodup_charPairs set)]
  · rw [hone, expand_of_not_contains hnone, String.ofList_toList]

/-- Names that begin alike, an empty name, and values that hold placeholders and halves of them. -/
def entangled : ParameterSet :=
  ParameterSet.ofPairs [("a", "\x7bab\x7d"), ("ab", "\x7b"), ("", "b\x7d")]

theorem substituteWith_entangled :
    (∀ p ∈ charPairs entangled, Braceless p.1) ∧
    Fresh ['x'] (charPairs entangled) "\x7ba\x7d\x7bab\x7da\x7d\x7b\x7d\x7b\x7ba\x7d\x7bc\x7d\x7ba".toList ∧
    substituteWith ['x'] entangled "\x7ba\x7d\x7bab\x7da\x7d\x7b\x7d\x7b\x7ba\x7d\x7bc\x7d\x7ba" =
      "\x7bab\x7d\x7ba\x7db\x7d\x7b\x7bab\x7d\x7bc\x7d\x7ba" := by
  have hnames : ∀ p ∈ charPairs entangled, Braceless p.1 := by decide +kernel
  have hfresh : Fresh ['x'] (charPairs entangled)
      "\x7ba\x7d\x7bab\x7da\x7d\x7b\x7d\x7b\x7ba\x7d\x7bc\x7d\x7ba".toList := by
    refine ⟨by decide, by decide +kernel, fun sub hsub => ?_⟩
    have hall : ∀ s ∈ (charPairs entangled).sublists, Text.contains ['x']
        (expand s "\x7ba\x7d\x7bab\x7da\x7d\x7b\x7d\x7b\x7ba\x7d\x7bc\x7d\x7ba".toList) = false := by
      decide +kernel
    exact hall sub (List.mem_sublists.2 hsub)
  refine ⟨hnames, hfresh, ?_⟩
  rw [(substituteWith_eq_expand hnames hfresh).1]
  decide +kernel

theorem freshToken_of_free {used : List Char} (h : used.contains (Char.ofNat 0x100000) = false) :
    freshToken used = [Char.ofNat 0x100000] := by
  have hfirst : (List.range 0xFFFE).find? (fun n => !used.contains (Char.ofNat (0x100000 + n))) = some 0 := by
    rw [List.find?_range_eq_some]
    refine ⟨?_, by simp, fun j hj => absurd hj (Nat.not_lt_zero j)⟩
    rw [Nat.add_zero, h]
    rfl
  unfold freshToken
  simp only [hfirst]

end Placeholder
end Folio

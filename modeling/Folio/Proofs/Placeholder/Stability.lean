import Mathlib.Data.List.Infix
import Folio.Proofs.Placeholder.Order

/-!
# Folio.Proofs.Placeholder.Stability

Substitution in what was substituted already.

* `notInfix_of_expand_eq`: where no value holds a placeholder, a text that expands to itself holds none. A value that is
  shorter than its placeholder would have to be made up for by one that is longer, and that one would hold its own
  placeholder.
* `Sealed`: values that cannot be a part of a placeholder together with what stands around them.
* `Sealed.notInfix_expand`, `exists_infix_expand`: no placeholder arises in any template exactly if the values are sealed.
* `substituteWith_stable`: so for them substitution is stable; for other values it is where no placeholder arises.
* `substituteWith_arising`: a placeholder arises from a value between braces of the template.
-/

namespace Folio
namespace Placeholder

/-! ### Texts that expand to themselves -/

/-- Pairs whose values hold no placeholders of their names. -/
def Inert (pairs : List (List Char × List Char)) : Prop :=
  ∀ p ∈ pairs, ∀ q ∈ pairs, ¬ marked [] p.1 <:+: q.2

instance (pairs : List (List Char × List Char)) : Decidable (Inert pairs) :=
  inferInstanceAs (Decidable (∀ p ∈ pairs, ∀ q ∈ pairs, ¬ marked [] p.1 <:+: q.2))

section Expansions

variable {pairs : List (List Char × List Char)}

/-- The expansion of a text does not end with the text behind anything else, and if it is the text itself then no
placeholder stands in it. -/
theorem notInfix_of_expand_eq (h : Inert pairs) {shift text : List Char} (heq : expand pairs text = shift ++ text) :
    shift = [] ∧ ∀ p ∈ pairs, ¬ marked [] p.1 <:+: text := by
  fun_induction expand pairs text generalizing shift with
  | case1 =>
    refine ⟨by simpa using heq.symm, fun p _ hin => marked_ne_nil [] p.1 (List.eq_nil_of_infix_nil hin)⟩
  | case2 c cs p hp ih =>
    -- The value would have to hold the placeholder, for what is behind it is not shifted.
    have hvalue : marked [] p.1 <:+: p.2 := by
      rw [eq_of_standing hp, ← List.append_assoc, List.append_eq_append_iff] at heq
      obtain ⟨more, hmarked, hrest⟩ | ⟨more, hvalue, -⟩ := heq
      · rw [(ih hrest).1, List.append_nil] at hmarked
        exact ⟨shift, [], by rw [List.append_nil, hmarked]⟩
      · exact ⟨shift, more, hvalue.symm⟩
    exact absurd hvalue (h p (mem_of_standing hp) p (mem_of_standing hp))
  | case3 c cs hnone ih =>
    cases shift with
    | nil =>
      have hrest := (@ih [] (List.cons.inj heq).2).2
      refine ⟨rfl, fun p hp hin => ?_⟩
      obtain hpre | hin := List.infix_cons_iff.1 hin
      · exact standing_eq_none.1 hnone p hp hpre
      · exact hrest p hp hin
    | cons d shift =>
      obtain ⟨-, hrest⟩ := List.cons.inj heq
      have hnil : shift ++ [c] = [] := (ih (hrest.trans (List.append_assoc shift [c] cs).symm)).1
      simp at hnil

theorem expand_eq_self_iff (h : Inert pairs) (text : List Char) :
    expand pairs text = text ↔ ∀ p ∈ pairs, ¬ marked [] p.1 <:+: text := by
  constructor
  · intro heq
    have hself : expand pairs text = [] ++ text := heq
    exact (notInfix_of_expand_eq h hself).2
  · refine fun hnone => expand_of_not_contains fun p hp => ?_
    rw [← Bool.not_eq_true, Text.contains_iff]
    exact hnone p hp

/-! ### Placeholders that arise -/

/-- Values that cannot be a part of a placeholder together with what stands around them: they are no part of a name, they do
not end with a brace and the beginning of a name, and they do not begin with the end of a name and a brace. -/
structure Sealed (pairs : List (List Char × List Char)) : Prop where
  apart : ∀ p ∈ pairs, ∀ q ∈ pairs, ¬ q.2 <:+: p.1
  opens : ∀ p ∈ pairs, ∀ q ∈ pairs, ∀ name, name <+: p.1 → ¬ '{' :: name <:+ q.2
  closes : ∀ p ∈ pairs, ∀ q ∈ pairs, ∀ name, name <:+ p.1 → ¬ name ++ ['}'] <+: q.2

/-- A prefix of a text that is put together stands in the first part, or all of the first part stands in it. -/
theorem prefix_append_cases {pattern front back : List Char} {c : Char} (h : pattern ++ [c] <+: front ++ back) :
    pattern ++ [c] <+: front ∨ front <+: pattern := by
  obtain hpre | hpre := List.prefix_or_prefix_of_prefix h (List.prefix_append front back)
  · exact .inl hpre
  · obtain rfl | hpre := List.prefix_concat_iff.1 hpre
    · exact .inl List.prefix_rfl
    · exact .inr hpre

/-- Between sealed values, what closes a placeholder stands in the template. -/
theorem Sealed.closes_template (h : Sealed pairs) {p : List Char × List Char} (hp : p ∈ pairs) {text name : List Char}
    (hname : name <:+ p.1) (hpre : name ++ ['}'] <+: expand pairs text) : name ++ ['}'] <+: text := by
  fun_induction expand pairs text generalizing name with
  | case1 => exact hpre
  | case2 c cs q hq ih =>
    have hq' := mem_of_standing hq
    obtain hpre | hpre := prefix_append_cases hpre
    · exact absurd hpre (h.closes p hp q hq' name hname)
    · exact absurd (hpre.isInfix.trans hname.isInfix) (h.apart p hp q hq')
  | case3 c cs hnone ih =>
    cases name with
    | nil =>
      obtain ⟨rfl, -⟩ := List.cons_prefix_cons.1 hpre
      exact ⟨cs, rfl⟩
    | cons d name =>
      obtain ⟨rfl, htail⟩ := List.cons_prefix_cons.1 hpre
      exact List.cons_prefix_cons.2 ⟨rfl, ih ((List.suffix_cons d name).trans hname) htail⟩

/-- No placeholder arises from sealed values. -/
theorem Sealed.notInfix_expand (h : Sealed pairs) (hinert : Inert pairs) {p : List Char × List Char} (hp : p ∈ pairs)
    (text : List Char) : ¬ marked [] p.1 <:+: expand pairs text := by
  fun_induction expand pairs text with
  | case1 => exact fun hin => marked_ne_nil [] p.1 (List.eq_nil_of_infix_nil hin)
  | case2 c cs q hq ih =>
    have hq' := mem_of_standing hq
    intro hin
    obtain hin | hin | ⟨start, close, hsplit, hstart, hclose⟩ := List.infix_append_iff.1 hin
    · exact hinert p hp q hq' hin
    · exact ih hin
    · cases start with
      | nil => exact ih (hsplit ▸ hclose.isInfix)
      | cons b name =>
        rw [marked_eq, List.append_nil, List.cons_append, List.cons.injEq] at hsplit
        obtain ⟨rfl, hname⟩ := hsplit
        obtain rfl | hpre := List.prefix_concat_iff.1 ⟨close, hname.symm⟩
        · refine hinert p hp q hq' ?_
          rw [marked_eq, List.append_nil]
          exact hstart.isInfix
        · exact h.opens p hp q hq' name hpre hstart
  | case3 c cs hnone ih =>
    intro hin
    obtain hpre | hin := List.infix_cons_iff.1 hin
    · rw [marked_eq, List.append_nil] at hpre
      obtain ⟨rfl, hclose⟩ := List.cons_prefix_cons.1 hpre
      have htemplate := h.closes_template hp List.suffix_rfl hclose
      refine standing_eq_none.1 hnone p hp ?_
      rw [marked_eq, List.append_nil]
      exact List.cons_prefix_cons.2 ⟨rfl, htemplate⟩
    · exact ih hin

/-! ### Templates in which a placeholder arises -/

/-- Nothing without an opening brace closes a placeholder across one. -/
theorem not_closes_across {name front back : List Char} (hname : '{' ∉ name) (hfront : '}' ∉ front) :
    ¬ name ++ ['}'] <+: front ++ '{' :: back := by
  induction front generalizing name with
  | nil =>
    intro hpre
    cases name with
    | nil => exact absurd (List.cons_prefix_cons.1 hpre).1 (by decide)
    | cons c name => exact hname ((List.cons_prefix_cons.1 hpre).1 ▸ List.mem_cons_self)
  | cons c front ih =>
    intro hpre
    cases name with
    | nil => exact hfront ((List.cons_prefix_cons.1 hpre).1 ▸ List.mem_cons_self)
    | cons d name =>
      exact ih (fun hmem => hname (List.mem_cons_of_mem d hmem)) (fun hmem => hfront (List.mem_cons_of_mem c hmem))
        (List.cons_prefix_cons.1 hpre).2

section Arising

variable (hnames : ∀ p ∈ pairs, Braceless p.1) (hnodup : (pairs.map Prod.fst).Nodup)

include hnames hnodup in
theorem expand_marked {q : List Char × List Char} (hq : q ∈ pairs) {rest : List Char} (hrest : '{' ∉ rest) :
    expand pairs (marked [] q.1 ++ rest) = q.2 ++ rest := by
  have hstand : marked [] q.1 <+: marked [] q.1 ++ rest := List.prefix_append _ rest
  cases hr : standing? pairs (marked [] q.1 ++ rest) with
  | none => exact absurd hstand (standing_eq_none.1 hr q hq)
  | some r =>
    have hmem := mem_of_standing hr
    have hname : r.1 ++ [] = q.1 ++ [] :=
      eq_of_marked (by simpa using hnames r hmem) (by simpa using hnames q hq) (prefix_of_standing hr) hstand
    obtain rfl : r = q := List.inj_on_of_nodup_map hnodup hmem hq (by simpa using hname)
    have hplain : expand pairs rest = rest := by
      have hall := expand_append_of_no_brace pairs hrest []
      rwa [List.append_nil, expand_nil, List.append_nil] at hall
    rw [marked_eq, List.append_nil, List.cons_append] at hr ⊢
    rw [expand_of_some hr, List.drop_left' (by simp), hplain]

include hnames hnodup in
theorem expand_open_marked {q : List Char × List Char} (hq : q ∈ pairs) {front rest : List Char}
    (hfront : Braceless front) (hrest : '{' ∉ rest) :
    expand pairs ('{' :: front ++ (marked [] q.1 ++ rest)) = '{' :: front ++ (q.2 ++ rest) := by
  have hnone : standing? pairs ('{' :: (front ++ (marked [] q.1 ++ rest))) = none := by
    rw [standing_eq_none]
    intro p hp hpre
    rw [marked_eq, marked_eq, List.append_nil] at hpre
    exact not_closes_across (hnames p hp).1 hfront.2 (List.cons_prefix_cons.1 hpre).2
  rw [List.cons_append, expand_of_none hnone, expand_append_of_no_brace pairs hfront.1,
    expand_marked hnames hnodup hq hrest, List.cons_append]

include hnames hnodup in
/-- For values that are not sealed there is a template in which a placeholder arises. -/
theorem exists_infix_expand (h : ¬ Sealed pairs) : ∃ text, ∃ p ∈ pairs, marked [] p.1 <:+: expand pairs text := by
  by_contra hnone
  have hfree : ∀ {text written p}, p ∈ pairs → expand pairs text = written → ¬ marked [] p.1 <:+: written := by
    rintro text _ p hp rfl hin
    exact hnone ⟨text, p, hp, hin⟩
  refine h ⟨fun p hp q hq hin => ?_, fun p hp q hq name hname hin => ?_, fun p hp q hq name hname hin => ?_⟩
  · obtain ⟨front, back, hsplit⟩ := hin
    have hp' := hnames p hp
    simp only [Braceless, ← hsplit, List.mem_append, not_or] at hp'
    have hback : '{' ∉ back ++ ['}'] := by simp [hp'.1.2]
    refine hfree hp (expand_open_marked hnames hnodup hq ⟨hp'.1.1.1, hp'.2.1.1⟩ hback) ⟨[], [], ?_⟩
    simp [marked_eq, ← hsplit]
  · obtain ⟨back, hsplit⟩ := hname
    obtain ⟨front, hvalue⟩ := hin
    have hp' := hnames p hp
    simp only [Braceless, ← hsplit, List.mem_append, not_or] at hp'
    have hback : '{' ∉ back ++ ['}'] := by simp [hp'.1.2]
    refine hfree hp (expand_marked hnames hnodup hq hback) ⟨front, [], ?_⟩
    simp [marked_eq, ← hsplit, ← hvalue]
  · obtain ⟨front, hsplit⟩ := hname
    obtain ⟨back, hvalue⟩ := hin
    have hp' := hnames p hp
    simp only [Braceless, ← hsplit, List.mem_append, not_or] at hp'
    refine hfree hp (expand_open_marked hnames hnodup hq ⟨hp'.1.1, hp'.2.1⟩ List.not_mem_nil) ⟨[], back, ?_⟩
    simp [marked_eq, ← hsplit, ← hvalue]

end Arising

end Expansions

/-! ### Substitution -/

/-- A token of characters that stand neither in the template nor in the set. It may hold braces where those do not. -/
structure Unused (token : List Char) (set : ParameterSet) (template : String) : Prop where
  ne_nil : token ≠ []
  notin_template : ∀ c ∈ token, c ∉ template.toList
  notin_names : ∀ c ∈ token, ∀ p ∈ charPairs set, c ∉ p.1
  notin_values : ∀ c ∈ token, ∀ p ∈ charPairs set, c ∉ p.2

theorem Unused.of_singleton {c : Char} {set : ParameterSet} {template : String} (htemplate : c ∉ template.toList)
    (hnames : ∀ p ∈ charPairs set, c ∉ p.1) (hvalues : ∀ p ∈ charPairs set, c ∉ p.2) : Unused [c] set template :=
  ⟨List.cons_ne_nil c [], List.forall_mem_singleton.2 htemplate, List.forall_mem_singleton.2 hnames,
    List.forall_mem_singleton.2 hvalues⟩

theorem replaceAll_of_notInfix {pattern text : List Char} (value : List Char) (h : ¬ pattern <:+: text) :
    Text.replaceAll pattern value text = text := by
  have hall := @Text.replaceAll_append_of_absent pattern value text [] fun t ht _ hpre =>
    h ((List.append_nil t ▸ hpre).isInfix.trans ht.isInfix)
  rwa [List.append_nil, Text.replaceAll, List.append_nil] at hall

/-- Where no placeholder stands, marked or not, both rounds leave the text as it is. -/
theorem replace_of_notInfix {token text : List Char} {pairs : List (List Char × List Char)}
    (h : ∀ mark, ∀ p ∈ pairs, ¬ marked mark p.1 <:+: text) : replace token pairs text = text := by
  have hmark : mark token (pairs.map Prod.fst) text = text := by
    induction pairs with
    | nil => rfl
    | cons p pairs ih =>
      rw [List.map_cons, mark_cons, replaceAll_of_notInfix _ (h [] p List.mem_cons_self)]
      exact ih fun mark q hq => h mark q (List.mem_cons_of_mem p hq)
  rw [replace, hmark]
  clear hmark
  induction pairs with
  | nil => rfl
  | cons p pairs ih =>
    rw [fill_cons, replaceAll_of_notInfix _ (h token p List.mem_cons_self)]
    exact ih fun mark q hq => h mark q (List.mem_cons_of_mem p hq)

namespace Unused

variable {token token' : List Char} {set : ParameterSet} {template : String}

theorem substituteWith_eq (h : Unused token set template) (hnames : ∀ p ∈ charPairs set, Braceless p.1) :
    substituteWith token set template = String.ofList (expand (charPairs set) template.toList) := by
  by_cases hbraceless : Braceless token
  · have hforeign : Foreign token set template :=
      ⟨h.ne_nil, hbraceless, h.notin_template, h.notin_names, h.notin_values⟩
    exact hforeign.substituteWith_eq hnames
  · -- A brace of the token does not stand in the template, so that no placeholder does.
    have hnone : ∀ mark, ∀ p ∈ charPairs set, ¬ marked mark p.1 <:+: template.toList := by
      intro mark p _ hin
      have hopen : '{' ∈ template.toList := hin.subset (by simp [marked_eq])
      have hclose : '}' ∈ template.toList := hin.subset (by simp [marked_eq])
      exact hbraceless ⟨fun hmem => h.notin_template _ hmem hopen, fun hmem => h.notin_template _ hmem hclose⟩
    have hexpand : expand (charPairs set) template.toList = template.toList := by
      refine expand_of_not_contains fun p hp => ?_
      rw [← Bool.not_eq_true, Text.contains_iff]
      exact hnone [] p hp
    rw [substituteWith, replace_of_notInfix hnone, hexpand]

/-- No new character stands in what is substituted. -/
theorem again (h : Unused token set template) :
    Unused token set (String.ofList (expand (charPairs set) template.toList)) := by
  refine ⟨h.ne_nil, fun c hc hmem => ?_, h.notin_names, h.notin_values⟩
  rw [String.toList_ofList] at hmem
  obtain hmem | ⟨p, hp, hmem⟩ := mem_expand hmem
  · exact h.notin_template c hc hmem
  · exact h.notin_values c hc p hp hmem

theorem stable_iff (h : Unused token set template) (h' : Unused token' set template)
    (hnames : ∀ p ∈ charPairs set, Braceless p.1) (hinert : Inert (charPairs set)) :
    substituteWith token' set (substituteWith token set template) = substituteWith token set template ↔
      ∀ p ∈ charPairs set, ¬ marked [] p.1 <:+: expand (charPairs set) template.toList := by
  rw [h.substituteWith_eq hnames, h'.again.substituteWith_eq hnames, String.ofList_inj, String.toList_ofList]
  exact expand_eq_self_iff hinert _

end Unused

/-- Where no value holds a placeholder, substitution is stable exactly if no placeholder has arisen from the values and what
stands around them. None arises in any template if the values are sealed, and if they are not then one does in some. -/
theorem substituteWith_stable {set : ParameterSet} (hnames : ∀ p ∈ charPairs set, Braceless p.1)
    (hinert : Inert (charPairs set)) :
    (∀ template token token', Unused token set template → Unused token' set template →
      (substituteWith token' set (substituteWith token set template) = substituteWith token set template ↔
        ∀ p ∈ charPairs set, ¬ marked [] p.1 <:+: (substituteWith token set template).toList)) ∧
    (Sealed (charPairs set) → ∀ template token token', Unused token set template → Unused token' set template →
      substituteWith token' set (substituteWith token set template) = substituteWith token set template) ∧
    (¬ Sealed (charPairs set) → ∃ template, ∀ token token', Unused token set template → Unused token' set template →
      substituteWith token' set (substituteWith token set template) ≠ substituteWith token set template) := by
  refine ⟨fun template token token' h h' => ?_, fun hsealed template token token' h h' => ?_, fun hsealed => ?_⟩
  · rw [h.stable_iff h' hnames hinert, h.substituteWith_eq hnames, String.toList_ofList]
  · exact (h.stable_iff h' hnames hinert).2 fun p hp => hsealed.notInfix_expand hinert hp _
  · obtain ⟨text, p, hp, hin⟩ := exists_infix_expand hnames (nodup_charPairs set) hsealed
    refine ⟨String.ofList text, fun token token' h h' hstable => ?_⟩
    have hnone := (h.stable_iff h' hnames hinert).1 hstable p hp
    rw [String.toList_ofList] at hnone
    exact hnone hin

/-- Values with halves of placeholders, of which none fits a name. -/
def steady : ParameterSet :=
  ParameterSet.ofPairs [("title", "Guide \x7bx"), ("page", "1\x7d")]

def steadyTemplate : String :=
  "\x7b\x7btitle\x7d\x7d\x7bpage\x7d\x7bother\x7d"

theorem substituteWith_steady :
    (∀ p ∈ charPairs steady, Braceless p.1) ∧ Inert (charPairs steady) ∧ Sealed (charPairs steady) ∧
      Unused ['z'] steady steadyTemplate ∧ Unused ['y'] steady steadyTemplate ∧
      substituteWith ['z'] steady steadyTemplate = "\x7bGuide \x7bx\x7d1\x7d\x7bother\x7d" ∧
      substituteWith ['y'] steady (substituteWith ['z'] steady steadyTemplate) =
        substituteWith ['z'] steady steadyTemplate := by
  have hnames : ∀ p ∈ charPairs steady, Braceless p.1 := by decide +kernel
  have hinert : Inert (charPairs steady) := by decide +kernel
  have hsealed : Sealed (charPairs steady) := by
    have hopens : ∀ p ∈ charPairs steady, ∀ q ∈ charPairs steady, ∀ name ∈ p.1.inits, ¬ '{' :: name <:+ q.2 := by
      decide +kernel
    have hcloses : ∀ p ∈ charPairs steady, ∀ q ∈ charPairs steady, ∀ name ∈ p.1.tails, ¬ name ++ ['}'] <+: q.2 := by
      decide +kernel
    exact ⟨by decide +kernel, fun p hp q hq name hname => hopens p hp q hq name ((List.mem_inits ..).2 hname),
      fun p hp q hq name hname => hcloses p hp q hq name ((List.mem_tails ..).2 hname)⟩
  have hfirst : Unused ['z'] steady steadyTemplate :=
    .of_singleton (by decide +kernel) (by decide +kernel) (by decide +kernel)
  have hsecond : Unused ['y'] steady steadyTemplate :=
    .of_singleton (by decide +kernel) (by decide +kernel) (by decide +kernel)
  exact ⟨hnames, hinert, hsealed, hfirst, hsecond, by decide +kernel,
    (substituteWith_stable hnames hinert).2.1 hsealed _ _ _ hfirst hsecond⟩

/-- A placeholder arises from the value of `a` and the braces around its placeholder, so that substitution is not stable. -/
theorem substituteWith_arising :
    let set := ParameterSet.ofPairs [("a", "b"), ("b", "X")]
    (∀ p ∈ charPairs set, Braceless p.1) ∧ Inert (charPairs set) ∧ Unused ['t'] set "\x7b\x7ba\x7d\x7d" ∧
      substituteWith ['t'] set "\x7b\x7ba\x7d\x7d" = "\x7bb\x7d" ∧
      substituteWith ['t'] set (substituteWith ['t'] set "\x7b\x7ba\x7d\x7d") = "X" := by
  refine ⟨by decide +kernel, by decide +kernel, ?_, by decide +kernel, by decide +kernel⟩
  exact .of_singleton (by decide +kernel) (by decide +kernel) (by decide +kernel)

end Placeholder
end Folio

import Folio.Proofs.Placeholder.Rounds

/-!
# Folio.Proofs.Placeholder.Order

What substitution does not depend on.

* `Foreign`: a token of characters that stand neither in the template nor in the set. Such a token is `Fresh`.
* `substituteWith_perm`: neither the order of the names nor the token shows in the result, for names without braces.
* `substituteWith_overlapping`: with braces in the names the order shows, where two placeholders overlap.
-/

namespace Folio
namespace Placeholder

/-- A token of characters that stand nowhere else. -/
structure Foreign (token : List Char) (set : ParameterSet) (template : String) : Prop where
  ne_nil : token ≠ []
  braceless : Braceless token
  notin_template : ∀ c ∈ token, c ∉ template.toList
  notin_names : ∀ c ∈ token, ∀ p ∈ charPairs set, c ∉ p.1
  notin_values : ∀ c ∈ token, ∀ p ∈ charPairs set, c ∉ p.2

theorem contains_eq_false_of_notMem {token text : List Char} (hne : token ≠ []) (h : ∀ c ∈ token, c ∉ text) :
    Text.contains token text = false := by
  rw [← Bool.not_eq_true, Text.contains_iff]
  intro hin
  obtain ⟨c, cs, rfl⟩ := List.exists_cons_of_ne_nil hne
  exact h c List.mem_cons_self (hin.subset List.mem_cons_self)

/-- The characters of an expansion are those of the template and of the values. -/
theorem mem_expand {pairs : List (List Char × List Char)} {text : List Char} {c : Char} (h : c ∈ expand pairs text) :
    c ∈ text ∨ ∃ p ∈ pairs, c ∈ p.2 := by
  fun_induction expand pairs text with
  | case1 => exact .inl h
  | case2 d cs p hp ih =>
    obtain h | h := List.mem_append.1 h
    · exact .inr ⟨p, mem_of_standing hp, h⟩
    · exact (ih h).imp_left fun hmem => List.mem_cons_of_mem d (List.mem_of_mem_drop hmem)
  | case3 d cs hnone ih =>
    obtain rfl | h := List.mem_cons.1 h
    · exact .inl List.mem_cons_self
    · exact (ih h).imp_left (List.mem_cons_of_mem d)

namespace Foreign

variable {token token' : List Char} {set set' : ParameterSet} {template : String}

theorem notMem_expand (h : Foreign token set template) {sub : List (List Char × List Char)}
    (hsub : sub ⊆ charPairs set) : ∀ c ∈ token, c ∉ expand sub template.toList := by
  intro c hc hmem
  obtain hmem | ⟨p, hp, hmem⟩ := mem_expand hmem
  · exact h.notin_template c hc hmem
  · exact h.notin_values c hc p (hsub hp) hmem

theorem fresh (h : Foreign token set template) : Fresh token (charPairs set) template.toList where
  braceless := h.braceless
  notin_names p hp := contains_eq_false_of_notMem h.ne_nil fun c hc => h.notin_names c hc p hp
  notin_texts _ hsub := contains_eq_false_of_notMem h.ne_nil (h.notMem_expand hsub.subset)

theorem substituteWith_eq (h : Foreign token set template) (hnames : ∀ p ∈ charPairs set, Braceless p.1) :
    substituteWith token set template = String.ofList (expand (charPairs set) template.toList) := by
  rw [substituteWith, replace_eq_expand hnames (nodup_charPairs set) h.fresh]

/-- All characters that count can be looked through. -/
theorem of_none (hne : token ≠ []) (hbraceless : Braceless token)
    (hnone : (token.any fun c =>
      (template.toList ++ (charPairs set).flatMap fun p => p.1 ++ p.2).contains c) = false) :
    Foreign token set template := by
  have hnowhere : ∀ c ∈ token, c ∉ template.toList ++ (charPairs set).flatMap fun p => p.1 ++ p.2 :=
    fun c hc hmem => List.any_eq_false.1 hnone c hc (List.contains_iff_mem.2 hmem)
  refine ⟨hne, hbraceless, fun c hc hmem => ?_, fun c hc p hp hmem => ?_, fun c hc p hp hmem => ?_⟩
  · exact hnowhere c hc (List.mem_append_left _ hmem)
  · exact hnowhere c hc (List.mem_append_right _ (List.mem_flatMap.2 ⟨p, hp, List.mem_append_left _ hmem⟩))
  · exact hnowhere c hc (List.mem_append_right _ (List.mem_flatMap.2 ⟨p, hp, List.mem_append_right _ hmem⟩))

end Foreign

/-- The same pairs in another order, with another token, give the same text, and nothing of a token shows in it. -/
theorem substituteWith_perm {token token' : List Char} {set set' : ParameterSet} {template : String}
    (hnames : ∀ p ∈ charPairs set, Braceless p.1) (hperm : set'.pairs.Perm set.pairs)
    (h : Foreign token set template) (h' : Foreign token' set' template) :
    substituteWith token' set' template = substituteWith token set template ∧
      ∀ c ∈ token, c ∉ (substituteWith token set template).toList := by
  have hperm' : (charPairs set').Perm (charPairs set) := hperm.map _
  have hnames' : ∀ p ∈ charPairs set', Braceless p.1 := fun p hp => hnames p (hperm'.subset hp)
  rw [h.substituteWith_eq hnames, h'.substituteWith_eq hnames', String.toList_ofList]
  exact ⟨congrArg String.ofList (expand_perm hperm' hnames (nodup_charPairs set) _),
    h.notMem_expand (List.Subset.refl _)⟩

/-- Names that begin alike, and a value that holds the placeholder of another name. -/
def forwards : ParameterSet :=
  ParameterSet.ofPairs [("a", "\x7bab\x7d"), ("ab", "1")]

def backwards : ParameterSet :=
  ParameterSet.ofPairs [("ab", "1"), ("a", "\x7bab\x7d")]

theorem substituteWith_backwards :
    substituteWith ['u', 'v'] backwards "\x7ba\x7d\x7bab\x7d\x7bc\x7d" =
        substituteWith ['t'] forwards "\x7ba\x7d\x7bab\x7d\x7bc\x7d" ∧
      ∀ c ∈ ['t'], c ∉ (substituteWith ['t'] forwards "\x7ba\x7d\x7bab\x7d\x7bc\x7d").toList :=
  substituteWith_perm (by decide +kernel) (by decide +kernel)
    (Foreign.of_none (by decide) (by decide) (by decide +kernel))
    (Foreign.of_none (by decide) (by decide) (by decide +kernel))

/-- The placeholder of `a` stands at the end of that of the other name. The one whose name comes first is found. -/
theorem substituteWith_overlapping :
    let inner := ParameterSet.ofPairs [("a", "1"), ("x\x7ba", "2")]
    let outer := ParameterSet.ofPairs [("x\x7ba", "2"), ("a", "1")]
    outer.pairs.Perm inner.pairs ∧
      Foreign ['t'] inner "\x7bx\x7ba\x7d" ∧ Foreign ['t'] outer "\x7bx\x7ba\x7d" ∧
      substituteWith ['t'] inner "\x7bx\x7ba\x7d" = "\x7bx1" ∧
      substituteWith ['t'] outer "\x7bx\x7ba\x7d" = "2" := by
  refine ⟨by decide +kernel, ?_, ?_, by decide +kernel, by decide +kernel⟩
  · exact Foreign.of_none (by decide) (by decide) (by decide +kernel)
  · exact Foreign.of_none (by decide) (by decide) (by decide +kernel)

end Placeholder
end Folio

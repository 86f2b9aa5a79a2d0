import Mathlib.Data.List.Nodup
import Mathlib.Data.List.Perm.Basic

/-!
# Folio.Proofs.Lookup

Values in lists of pairs.

* `mem_of_lookup`, `exists_lookup`: the value of a name is that of one of its pairs.
* `lookup_of_mem`: where names differ, it is that of the only pair.
* `lookup_of_perm`: then the order of the pairs does not count.
-/

namespace Folio

variable {α β : Type} [BEq α] [LawfulBEq α] {pairs : List (α × β)} {name : α} {value : β}

theorem mem_of_lookup (h : pairs.lookup name = some value) : (name, value) ∈ pairs := by
  obtain ⟨before, behind, rfl, -⟩ := List.lookup_eq_some_iff.1 h
  simp

theorem exists_lookup (h : (name, value) ∈ pairs) : ∃ found, pairs.lookup name = some found := by
  refine Option.ne_none_iff_exists'.1 fun hnone => ?_
  have hne := List.lookup_eq_none_iff.1 hnone _ h
  simp at hne

variable [DecidableEq α]

theorem lookup_cons_eq_ite (p : α × β) (pairs : List (α × β)) (name : α) :
    (p :: pairs).lookup name = if name = p.1 then some p.2 else pairs.lookup name := by
  obtain ⟨n, v⟩ := p
  by_cases h : name = n
  · rw [if_pos h, h, List.lookup_cons_self]
  · rw [if_neg h, List.lookup_cons, beq_eq_false_iff_ne.2 h]

theorem lookup_map {γ : Type} (f : β → γ) (pairs : List (α × β)) (name : α) :
    (pairs.map fun p => (p.1, f p.2)).lookup name = (pairs.lookup name).map f := by
  induction pairs with
  | nil => rfl
  | cons p pairs ih =>
    rw [List.map_cons, lookup_cons_eq_ite, lookup_cons_eq_ite, ih]
    split <;> rfl

theorem lookup_of_mem (hnodup : (pairs.map Prod.fst).Nodup) (h : (name, value) ∈ pairs) :
    pairs.lookup name = some value := by
  induction pairs with
  | nil => cases h
  | cons p pairs ih =>
    obtain ⟨hnot, hrest⟩ := List.nodup_cons.1 hnodup
    rw [lookup_cons_eq_ite]
    rcases List.mem_cons.1 h with rfl | hmem
    · rw [if_pos rfl]
    · have hne : name ≠ p.1 := by
        rintro rfl
        exact hnot (List.mem_map.2 ⟨_, hmem, rfl⟩)
      rw [if_neg hne, ih hrest hmem]

/-- Where names differ, the order of the pairs does not count. -/
theorem lookup_of_perm {others : List (α × β)} (hnodup : (pairs.map Prod.fst).Nodup) (h : pairs.Perm others)
    (name : α) : pairs.lookup name = others.lookup name := by
  have hnodup' : (others.map Prod.fst).Nodup := (h.map Prod.fst).nodup_iff.1 hnodup
  refine Option.ext fun value => ⟨fun hvalue => ?_, fun hvalue => ?_⟩
  · exact lookup_of_mem hnodup' (h.mem_iff.1 (mem_of_lookup hvalue))
  · exact lookup_of_mem hnodup (h.mem_iff.2 (mem_of_lookup hvalue))

theorem lookup_reverse (hnodup : (pairs.map Prod.fst).Nodup) (name : α) :
    pairs.reverse.lookup name = pairs.lookup name :=
  (lookup_of_perm hnodup pairs.reverse_perm.symm name).symm

end Folio

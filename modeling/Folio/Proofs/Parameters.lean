import Folio.Parameters
import Folio.Proofs.Lookup

/-!
# Folio.Proofs.Parameters

Names and values of a set after insertions.

* `get?_insert`, `names_insert`: one insertion. A known name keeps its place, a new one comes last.
* `get?_insertAll`, `names_insertAll`: insertions one after the other. The last value of a name counts, and the new
  names come in the order of their first occurrence.
-/

namespace Folio

theorem lookup_putPair (name value other : String) (pairs : List (String × String)) :
    (putPair name value pairs).lookup other = if other = name then some value else pairs.lookup other := by
  induction pairs with
  | nil => exact lookup_cons_eq_ite (name, value) [] other
  | cons p rest ih =>
    obtain ⟨n, v⟩ := p
    by_cases hn : n = name
    · subst hn
      rw [putPair, if_pos rfl, lookup_cons_eq_ite, lookup_cons_eq_ite]
      by_cases ho : other = n <;> simp only [ho, if_true, if_false]
    · rw [putPair, if_neg hn, lookup_cons_eq_ite, lookup_cons_eq_ite, ih]
      by_cases ho : other = n
      · rw [if_pos ho, if_neg (ho ▸ hn), if_pos ho]
      · rw [if_neg ho, if_neg ho]

theorem names_putPair (name value : String) (pairs : List (String × String)) :
    (putPair name value pairs).map Prod.fst =
      if name ∈ pairs.map Prod.fst then pairs.map Prod.fst else pairs.map Prod.fst ++ [name] := by
  induction pairs with
  | nil => rfl
  | cons p rest ih =>
    obtain ⟨n, v⟩ := p
    by_cases hn : n = name
    · subst hn
      simp [putPair]
    · rw [putPair, if_neg hn, List.map_cons, List.map_cons, ih]
      by_cases hmem : name ∈ rest.map Prod.fst
      · rw [if_pos hmem, if_pos (List.mem_cons_of_mem n hmem)]
      · rw [if_neg hmem, if_neg (by simp [Ne.symm hn, hmem]), List.cons_append]

namespace ParameterSet

theorem get?_insert (set : ParameterSet) (name value other : String) :
    (set.insert name value).get? other = if other = name then some value else set.get? other :=
  lookup_putPair name value other set.pairs

theorem names_insert (set : ParameterSet) (name value : String) :
    (set.insert name value).names = if name ∈ set.names then set.names else set.names ++ [name] :=
  names_putPair name value set.pairs

theorem insertAll_cons (set : ParameterSet) (p : String × String) (pairs : List (String × String)) :
    set.insertAll (p :: pairs) = (set.insert p.1 p.2).insertAll pairs :=
  rfl

/-- The last of the pairs with a name counts, or else its value before. -/
theorem get?_insertAll (set : ParameterSet) (pairs : List (String × String)) (name : String) :
    (set.insertAll pairs).get? name = (pairs.reverse.lookup name).or (set.get? name) := by
  induction pairs generalizing set with
  | nil => rfl
  | cons p pairs ih =>
    rw [insertAll_cons, ih, get?_insert, List.reverse_cons, List.lookup_append, Option.or_assoc, lookup_cons_eq_ite]
    by_cases hname : name = p.1
    · rw [if_pos hname, if_pos hname, Option.some_or]
    · rw [if_neg hname, if_neg hname, List.lookup_nil, Option.none_or]

/-- The known names keep their places. The others come after them, in the order of their first occurrence. -/
theorem names_insertAll (set : ParameterSet) (pairs : List (String × String)) :
    (set.insertAll pairs).names =
      set.names ++ ((pairs.map Prod.fst).filter fun name => name ∉ set.names).eraseDups := by
  induction pairs generalizing set with
  | nil => simp [insertAll]
  | cons p pairs ih =>
    rw [insertAll_cons, ih, names_insert, List.map_cons, List.filter_cons]
    by_cases hmem : p.1 ∈ set.names
    · simp only [hmem, if_true, not_true_eq_false, decide_false, Bool.false_eq_true, if_false]
    · have hboth : (pairs.map Prod.fst).filter (fun name => name ∉ set.names ++ [p.1]) =
          ((pairs.map Prod.fst).filter fun name => name ∉ set.names).filter fun name => !name == p.1 := by
        rw [List.filter_filter]
        refine List.filter_congr fun name _ => ?_
        by_cases hname : name = p.1 <;> simp [hname]
      simp only [hmem, if_false, not_false_eq_true, decide_true, if_true]
      rw [hboth, List.eraseDups_cons, List.append_assoc, List.singleton_append]

theorem get?_ofPairs (pairs : List (String × String)) (name : String) :
    (ofPairs pairs).get? name = pairs.reverse.lookup name := by
  rw [ofPairs, get?_insertAll]
  exact Option.or_none

theorem names_ofPairs (pairs : List (String × String)) : (ofPairs pairs).names = (pairs.map Prod.fst).eraseDups := by
  rw [ofPairs, names_insertAll]
  simp [empty, names]

end ParameterSet
end Folio

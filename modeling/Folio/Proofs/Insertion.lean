import Mathlib.Data.Finset.Card
import Mathlib.Data.List.Perm.Subperm
import Folio.Proofs.Json
import Folio.Proofs.Parameters

/-!
# Folio.Proofs.Insertion

A set of parameters as a map in the order of insertion.

* `Step`, `made`: the ways to make a set. `inserted`: the pairs that have gone into it.
* `Records`: a set holds the pairs of a list that have been inserted one after the other; `Records.insert` is the step,
  `records_made` the whole way.
* `equivalent_iff`: two sets are equivalent if they hold the same pairs in any order.
* `insertAll_again`: pairs that have just been inserted make no difference.
* `made_inOrder`: what a set says after any steps.
-/

namespace Folio
namespace ParameterSet

/-- A step in the making of a set. The first two begin a new one. -/
inductive Step where
  | new
  | fromPairs (pairs : List (String × String))
  | insert (name value : String)
  | insertAll (pairs : List (String × String))
  deriving Repr

/-- The set after a step. -/
def Step.apply (set : ParameterSet) : Step → ParameterSet
  | .new => empty
  | .fromPairs pairs => ofPairs pairs
  | .insert name value => set.insert name value
  | .insertAll pairs => set.insertAll pairs

/-- The pairs that have been inserted since the last new set, after a step. -/
def Step.extend (log : List (String × String)) : Step → List (String × String)
  | .new => []
  | .fromPairs pairs => pairs
  | .insert name value => log ++ [(name, value)]
  | .insertAll pairs => log ++ pairs

/-- The set after some steps. -/
def made (steps : List Step) : ParameterSet :=
  steps.foldl Step.apply empty

/-- The pairs that have been inserted since the last new set, in their order. -/
def inserted (steps : List Step) : List (String × String) :=
  steps.foldl Step.extend []

/-- The last of the pairs with a name has this value. -/
def LastValue (log : List (String × String)) (name value : String) : Prop :=
  ∃ before after, log = before ++ (name, value) :: after ∧ name ∉ after.map Prod.fst

/-! ### One insertion after the other -/

/-- A set after the insertion of some pairs: its names are theirs, in the order of their first occurrence, and each has
the value of its last one. -/
structure Records (log : List (String × String)) (set : ParameterSet) : Prop where
  mem : ∀ name, name ∈ set.names ↔ name ∈ log.map Prod.fst
  inOrder : set.names.Pairwise fun a b => (log.map Prod.fst).idxOf a < (log.map Prod.fst).idxOf b
  value : ∀ name value, set.get? name = some value ↔ LastValue log name value

variable {log : List (String × String)} {set : ParameterSet}

theorem lastValue_concat (p : String × String) (name value : String) :
    LastValue (log ++ [p]) name value ↔ if name = p.1 then p.2 = value else LastValue log name value := by
  constructor
  · rintro ⟨before, after, heq, hafter⟩
    obtain rfl | ⟨after, last, rfl⟩ := after.eq_nil_or_concat
    · obtain ⟨-, hlast⟩ := List.append_inj' heq rfl
      cases hlast
      rw [if_pos rfl]
    · rw [List.concat_eq_append, ← List.cons_append, ← List.append_assoc] at heq
      obtain ⟨hlog, hlast⟩ := List.append_inj' heq rfl
      cases hlast
      rw [List.concat_eq_append, List.map_append, List.mem_append, not_or] at hafter
      rw [if_neg (by simpa using hafter.2)]
      exact ⟨before, after, hlog, hafter.1⟩
  · intro h
    by_cases hname : name = p.1
    · rw [if_pos hname] at h
      exact ⟨log, [], by rw [hname, ← h], List.not_mem_nil⟩
    · rw [if_neg hname] at h
      obtain ⟨before, after, rfl, hafter⟩ := h
      exact ⟨before, after ++ [p], by simp, by simpa [hafter] using hname⟩

theorem records_empty : Records [] empty where
  mem _ := Iff.rfl
  inOrder := .nil
  value name value := by
    constructor
    · intro h
      cases h
    · rintro ⟨before, after, heq, -⟩
      cases before <;> cases heq

/-- A new name comes behind all others, and a known one keeps its place. -/
theorem Records.insert (h : Records log set) (p : String × String) : Records (log ++ [p]) (set.insert p.1 p.2) where
  mem name := by
    rw [names_insert, List.map_append, List.mem_append, ← h.mem]
    split
    · next hmem =>
      refine (or_iff_left_of_imp fun hname => ?_).symm
      rwa [List.mem_singleton.1 hname]
    · rw [List.mem_append, List.map_singleton]
  inOrder := by
    -- the names that are known are found where they were found before
    have hold : set.names.Pairwise fun a b =>
        ((log ++ [p]).map Prod.fst).idxOf a < ((log ++ [p]).map Prod.fst).idxOf b := by
      refine h.inOrder.imp_of_mem fun {a b} ha hb hab => ?_
      rw [List.map_append, List.idxOf_append_of_mem ((h.mem a).1 ha), List.idxOf_append_of_mem ((h.mem b).1 hb)]
      exact hab
    rw [names_insert]
    split
    · exact hold
    · next hnew =>
      rw [List.pairwise_append]
      refine ⟨hold, List.pairwise_singleton _ _, fun a ha b hb => ?_⟩
      have hknown := (h.mem a).1 ha
      rw [h.mem] at hnew
      rw [List.mem_singleton.1 hb, List.map_append, List.idxOf_append_of_mem hknown, List.idxOf_append_of_notMem hnew]
      exact Nat.lt_add_right _ (List.idxOf_lt_length_of_mem hknown)
  value name value := by
    rw [get?_insert, lastValue_concat]
    split
    · rw [Option.some.injEq]
    · exact h.value name value

theorem Records.insertAll (h : Records log set) (pairs : List (String × String)) :
    Records (log ++ pairs) (set.insertAll pairs) := by
  induction pairs generalizing log set with
  | nil => rwa [List.append_nil]
  | cons p pairs ih =>
    have hrest := ih (h.insert p)
    rwa [List.append_assoc, List.singleton_append] at hrest

theorem records_ofPairs (pairs : List (String × String)) : Records pairs (ofPairs pairs) :=
  records_empty.insertAll pairs

theorem Records.apply (h : Records log set) (step : Step) : Records (step.extend log) (step.apply set) := by
  cases step with
  | new => exact records_empty
  | fromPairs pairs => exact records_ofPairs pairs
  | insert name value => exact h.insert (name, value)
  | insertAll pairs => exact h.insertAll pairs

theorem records_made (steps : List Step) : Records (inserted steps) (made steps) := by
  have hrun : ∀ log set, Records log set → Records (steps.foldl Step.extend log) (steps.foldl Step.apply set) := by
    induction steps with
    | nil => exact fun log set h => h
    | cons step steps ih => exact fun log set h => ih _ _ (h.apply step)
  exact hrun [] empty records_empty

/-! ### Answers -/

theorem Records.get?_eq_none (h : Records log set) (name : String) :
    set.get? name = none ↔ name ∉ log.map Prod.fst := by
  rw [← h.mem, get?, List.lookup_eq_none_iff, names, List.mem_map, not_exists]
  constructor
  · rintro hnone p ⟨hp, rfl⟩
    simpa using hnone p hp
  · intro hnot p hp
    rw [bne_iff_ne]
    exact fun hname => hnot p ⟨hp, hname.symm⟩

theorem Records.require_eq_ok (h : Records log set) (name value : String) :
    set.require name = .ok value ↔ LastValue log name value := by
  rw [← h.value, require]
  cases set.get? name <;> simp

theorem Records.require_eq_error (h : Records log set) (name : String) (e : Error) :
    set.require name = .error e ↔ name ∉ log.map Prod.fst ∧ e = .missingParameter name := by
  rw [← h.get?_eq_none, require]
  cases set.get? name <;> simp [eq_comm]

theorem mem_pairs_iff (set : ParameterSet) (name value : String) :
    (name, value) ∈ set.pairs ↔ set.get? name = some value :=
  ⟨lookup_of_mem set.nodup, mem_of_lookup⟩

theorem Records.size_eq (h : Records log set) : set.size = (log.map Prod.fst).toFinset.card := by
  have hsame : set.names.toFinset = (log.map Prod.fst).toFinset := by
    refine Finset.ext fun name => ?_
    rw [List.mem_toFinset, List.mem_toFinset, h.mem]
  have hnodup : set.names.Nodup := set.nodup
  rw [← hsame, List.toFinset_card_of_nodup hnodup, names, List.length_map, size]

/-! ### Equality -/

theorem equivalent_iff (a b : ParameterSet) : a.equivalent b = true ↔ a.pairs.Perm b.pairs := by
  rw [equivalent, Bool.and_eq_true, beq_iff_eq, isSubset, List.all_eq_true]
  constructor
  · rintro ⟨hsize, hall⟩
    have hsubset : a.pairs ⊆ b.pairs := fun p hp => (mem_pairs_iff b p.1 p.2).2 (beq_iff_eq.1 (hall p hp))
    exact (List.subperm_of_subset (a.nodup.of_map _) hsubset).perm_of_length_le (Nat.le_of_eq hsize.symm)
  · intro hperm
    refine ⟨hperm.length_eq, fun p hp => ?_⟩
    rw [beq_iff_eq, ← mem_pairs_iff]
    exact hperm.mem_iff.1 hp

/-- The pairs are known by their names and the values of these. -/
theorem pairs_eq_map (set : ParameterSet) : set.pairs = set.names.map fun name => (name, (set.get? name).getD "") := by
  rw [names, List.map_map]
  refine (List.map_id _).symm.trans (List.map_congr_left fun p hp => ?_)
  have hvalue : set.get? p.1 = some p.2 := lookup_of_mem set.nodup hp
  rw [Function.comp, hvalue]
  rfl

theorem eq_of_names_of_get? {a b : ParameterSet} (hnames : a.names = b.names)
    (hvalues : ∀ name, a.get? name = b.get? name) : a = b := by
  have hpairs : a.pairs = b.pairs := by
    rw [pairs_eq_map a, pairs_eq_map b, hnames]
    simp only [hvalues]
  cases a
  cases hpairs
  rfl

/-- Pairs that have just been inserted make no difference when they are inserted again. -/
theorem insertAll_again (set : ParameterSet) (pairs : List (String × String)) :
    (set.insertAll pairs).insertAll pairs = set.insertAll pairs := by
  refine eq_of_names_of_get? ?_ fun name => ?_
  · have hknown : ∀ name ∈ pairs.map Prod.fst, name ∈ (set.insertAll pairs).names := by
      intro name hname
      rw [names_insertAll, List.mem_append, List.mem_eraseDups, List.mem_filter, decide_eq_true_eq]
      by_cases hmem : name ∈ set.names
      · exact .inl hmem
      · exact .inr ⟨hname, hmem⟩
    have hnone : (pairs.map Prod.fst).filter (fun name => name ∉ (set.insertAll pairs).names) = [] :=
      List.filter_eq_nil_iff.2 fun name hname => by simpa using hknown name hname
    rw [names_insertAll (set.insertAll pairs), hnone, List.eraseDups_nil, List.append_nil]
  · rw [get?_insertAll, get?_insertAll]
    cases pairs.reverse.lookup name <;> rfl

/-- After any steps, a set is a map in the order of insertion. Its names are those that have been inserted since the
last new set, each once and in the order of their first insertion, and each has the value of its last one. No other
name has a value. The text of the set lists its pairs in their order, which makes no difference to equivalence; and pairs that
are inserted again at once change nothing. -/
theorem made_inOrder (steps : List Step) :
    let set := made steps
    let log := inserted steps
    set.names.Nodup ∧ (∀ name, name ∈ set.names ↔ name ∈ log.map Prod.fst) ∧
    set.names.Pairwise (fun a b => (log.map Prod.fst).idxOf a < (log.map Prod.fst).idxOf b) ∧
    (∀ name value, (name, value) ∈ set.pairs ↔ LastValue log name value) ∧
    (∀ name value, set.get? name = some value ↔ LastValue log name value) ∧
    (∀ name, set.get? name = none ↔ name ∉ log.map Prod.fst) ∧
    (∀ name value, set.require name = .ok value ↔ LastValue log name value) ∧
    (∀ name e, set.require name = .error e ↔ name ∉ log.map Prod.fst ∧ e = .missingParameter name) ∧
    set.size = (log.map Prod.fst).toFinset.card ∧
    Json.parse? set.serialize = some (.obj (set.pairs.map fun p => (p.1, .str p.2))) ∧
    (∀ others, set.equivalent (made others) = true ↔ set.pairs.Perm (made others).pairs) ∧
    ∀ pairs, made (steps ++ [.insertAll pairs, .insertAll pairs]) = made (steps ++ [.insertAll pairs]) := by
  intro set log
  have hrecords := records_made steps
  refine ⟨set.nodup, hrecords.mem, hrecords.inOrder, fun name value => ?_, hrecords.value, hrecords.get?_eq_none,
    hrecords.require_eq_ok, hrecords.require_eq_error, hrecords.size_eq, set.parse?_serialize,
    fun others => equivalent_iff set (made others), fun pairs => ?_⟩
  · rw [mem_pairs_iff, hrecords.value]
  · rw [made, made, List.foldl_append, List.foldl_append]
    exact insertAll_again set pairs

/-- The pair of a known name keeps its place. -/
example : (made [.fromPairs [("a", "1"), ("b", "2")], .insert "a" "3", .insertAll [("c", "4"), ("b", "5")]]).pairs =
    [("a", "3"), ("b", "5"), ("c", "4")] := by
  decide

end ParameterSet
end Folio

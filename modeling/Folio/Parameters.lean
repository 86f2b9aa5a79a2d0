/-!
# Folio.Parameters

Named parameters, handed from a source document to its page.

* `ParameterSet`: each name has one value; the names stand in the order of their first insertion.
* `insert`, `insertAll`, `ofPairs`: building a set.
* `get?`: the value of a name.
* `Equivalent`: two sets hold the same pairs, in any order.
-/

namespace Folio

/-- The pairs with `value` for `name`, in its old place if it has one. -/
def putPair (name value : String) : List (String × String) → List (String × String)
  | [] => [(name, value)]
  | (n, v) :: rest => if n = name then (n, value) :: rest else (n, v) :: putPair name value rest

theorem mem_names_putPair (name value : String) (pairs : List (String × String)) (m : String) :
    m ∈ (putPair name value pairs).map Prod.fst ↔ m = name ∨ m ∈ pairs.map Prod.fst := by
  induction pairs with
  | nil => simp [putPair]
  | cons p rest ih =>
    obtain ⟨n, v⟩ := p
    by_cases h : n = name
    · subst h; simp [putPair]
    · simp only [putPair, h, if_false, List.map_cons, List.mem_cons, ih]
      constructor <;> rintro (h | h | h) <;> simp [h]

theorem nodup_names_putPair (name value : String) {pairs : List (String × String)}
    (h : (pairs.map Prod.fst).Nodup) : ((putPair name value pairs).map Prod.fst).Nodup := by
  induction pairs with
  | nil => simp [putPair]
  | cons p rest ih =>
    obtain ⟨n, v⟩ := p
    simp only [List.map_cons, List.nodup_cons] at h
    by_cases hn : n = name
    · simp [putPair, hn]
      subst hn
      simpa using h
    · simp only [putPair, hn, if_false, List.map_cons, List.nodup_cons]
      refine ⟨?_, ih h.2⟩
      rw [mem_names_putPair]
      rintro (h' | h')
      · exact hn h'
      · exact h.1 h'

/-- Names with values, in the order of their first insertion. -/
structure ParameterSet where
  pairs : List (String × String)
  nodup : (pairs.map Prod.fst).Nodup

namespace ParameterSet

def empty : ParameterSet where
  pairs := []
  nodup := List.nodup_nil

instance : Inhabited ParameterSet := ⟨empty⟩

instance : Repr ParameterSet := ⟨fun set n => reprPrec set.pairs n⟩

/-- The set with `value` for `name`. -/
def insert (set : ParameterSet) (name value : String) : ParameterSet where
  pairs := putPair name value set.pairs
  nodup := nodup_names_putPair name value set.nodup

/-- The set with all these pairs, one after the other. -/
def insertAll (set : ParameterSet) (pairs : List (String × String)) : ParameterSet :=
  pairs.foldl (fun set p => set.insert p.1 p.2) set

def ofPairs (pairs : List (String × String)) : ParameterSet :=
  empty.insertAll pairs

def get? (set : ParameterSet) (name : String) : Option String :=
  set.pairs.lookup name

def names (set : ParameterSet) : List String :=
  set.pairs.map Prod.fst

def size (set : ParameterSet) : Nat :=
  set.pairs.length

def isEmpty (set : ParameterSet) : Bool :=
  set.pairs.isEmpty

/-- Whether every pair of `a` is in `b`. -/
def isSubset (a b : ParameterSet) : Bool :=
  a.pairs.all fun p => b.get? p.1 == some p.2

/-- Whether two sets hold the same pairs, in any order. -/
def equivalent (a b : ParameterSet) : Bool :=
  a.size == b.size && a.isSubset b

end ParameterSet

end Folio

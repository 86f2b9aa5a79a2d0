import Folio.Proofs.Batch.Visit

/-!
# Folio.Proofs.Batch.Walk

The order of a visit, and how it can fail.

* `Precedes`: one entry comes before another one, and neither stands below the other.
* `InOrder`, `nextFile_inOrder`: what is pending stands in the order of the visit.
* `toVisit`, `toVisit_lt`: each entry is visited once, so that the bound on the visit is never met.
* `nextFile_failure`: a visit fails at an entry that is refused. No file that is still to come stands before it.
-/

namespace Folio

open FileSystem

/-! ### Order -/

/-- One entry is visited before another one, and neither stands below the other. -/
def Precedes (a b : List Name) : Prop :=
  ∃ init x y, (nameLe x y = true ∧ x ≠ y) ∧ init ++ [x] <+: a ∧ init ++ [y] <+: b

theorem Precedes.before {a b : List Name} (h : Precedes a b) : Before a b := by
  obtain ⟨init, x, y, hxy, ha, hb⟩ := h
  exact before_of_prefix hxy ha hb

/-- What stands below the one is visited before what stands below the other. -/
theorem Precedes.below {a b a' b' : List Name} (h : Precedes a b) (ha : a <+: a') (hb : b <+: b') : Precedes a' b' := by
  obtain ⟨init, x, y, hxy, hx, hy⟩ := h
  exact ⟨init, x, y, hxy, hx.trans ha, hy.trans hb⟩

theorem Precedes.not_below {a b names : List Name} (h : Precedes a b) (ha : a <+: names) : ¬ b <+: names :=
  fun hb => (h.below ha hb).before.2 rfl

/-- An entry is visited before what stands below it. -/
theorem namesLe_of_below {a b : List Name} (h : a <+: b) : namesLe a b = true := by
  obtain ⟨more, rfl⟩ := h
  induction a with
  | nil => rfl
  | cons name a ih => simpa [namesLe, lexLe] using ih

/-- What is pending is listed in the order of the visit. -/
def InOrder (pending : List Pending) : Prop :=
  pending.Pairwise fun p q => Precedes p.names q.names

variable {fs : FileSystem} {input : Path} {root : Location}

theorem mem_entries {p q : Pending} {names : List Name} (h : q ∈ p.entries names) :
    ∃ name ∈ names, q.names = p.names ++ [name] := by
  obtain ⟨name, hname, rfl⟩ := List.mem_map.1 h
  exact ⟨name, hname, rfl⟩

theorem below_of_mem_entries {p q : Pending} {names : List Name} (h : q ∈ p.entries names) : p.names <+: q.names := by
  obtain ⟨name, -, hq⟩ := mem_entries h
  exact hq ▸ List.prefix_append p.names [name]

theorem inOrder_entries (hwf : fs.WellFormed) {p : Pending} {ps : List Pending} (h : InOrder (p :: ps)) (l : Location) :
    InOrder (p.entries (fs.children l) ++ ps) := by
  obtain ⟨hp, hps⟩ := List.pairwise_cons.1 h
  refine List.pairwise_append.2 ⟨?_, hps, ?_⟩
  · refine List.pairwise_map.2 ((pairwise_children hwf l).imp ?_)
    intro x y hxy
    exact ⟨p.names, x, y, hxy, List.prefix_rfl, List.prefix_rfl⟩
  · intro q hq r hr
    exact (hp r hr).below (below_of_mem_entries hq) List.prefix_rfl

theorem nextFile_inOrder (hwf : fs.WellFormed) {n : Nat} {pending rest : List Pending} {p : Pending}
    (h : nextFile fs n pending = .ok (some (p, rest))) (horder : InOrder pending) : InOrder (p :: rest) := by
  fun_induction nextFile fs n pending with
  | case4 n p ps l bytes hkind =>
    cases h
    exact horder
  | case6 n p ps l hkind hcheck ih => exact ih h (inOrder_entries hwf horder l)
  | case7 n p ps l target hkind ih => exact ih h (List.pairwise_cons.1 horder).2
  | _ => cases h

/-- What comes next, or later, stands where something was pending. -/
theorem nextFile_below {n : Nat} {pending rest : List Pending} {p : Pending}
    (h : nextFile fs n pending = .ok (some (p, rest))) : ∀ q ∈ p :: rest, ∃ r ∈ pending, r.names <+: q.names := by
  fun_induction nextFile fs n pending with
  | case4 n p ps l bytes hkind =>
    cases h
    exact fun q hq => ⟨q, hq, List.prefix_rfl⟩
  | case6 n p ps l hkind hcheck ih =>
    intro q hq
    obtain ⟨r, hr, hbelow⟩ := ih h q hq
    obtain hr | hr := List.mem_append.1 hr
    · exact ⟨p, List.mem_cons_self, (below_of_mem_entries hr).trans hbelow⟩
    · exact ⟨r, List.mem_cons_of_mem p hr, hbelow⟩
  | case7 n p ps l target hkind ih =>
    intro q hq
    obtain ⟨r, hr, hbelow⟩ := ih h q hq
    exact ⟨r, List.mem_cons_of_mem p hr, hbelow⟩
  | _ => cases h

/-! ### The bound -/

/-- Whether a location is one of the pending entries or stands below one. -/
def isPending (root : Location) (pending : List Pending) (l : Location) : Bool :=
  pending.any fun p => (root ++ p.names).isPrefixOf l

/-- The number of entries that are still to be visited, the root of the table among them. -/
def toVisit (fs : FileSystem) (root : Location) (pending : List Pending) : Nat :=
  (([] :: fs.entries.map Prod.fst).filter (isPending root pending)).length

theorem isPending_iff {pending : List Pending} {l : Location} :
    isPending root pending l = true ↔ ∃ p ∈ pending, root ++ p.names <+: l := by
  simp [isPending, List.isPrefixOf_iff_prefix]

theorem toVisit_le (fs : FileSystem) (root : Location) (pending : List Pending) :
    toVisit fs root pending ≤ fs.entries.length + 1 := by
  have hle := List.length_filter_le (isPending root pending) ([] :: fs.entries.map Prod.fst)
  rwa [List.length_cons, List.length_map] at hle

/-- Each entry is visited once: when it is taken away, or its entries come in its place, fewer are to be visited. -/
theorem toVisit_lt {p : Pending} {ps qs : List Pending} (hp : p.Stands fs input root)
    (hbelow : ∀ q ∈ qs, ∃ r ∈ p :: ps, r.names <+: q.names) (hnot : ∀ q ∈ qs, ¬ q.names <+: p.names) :
    toVisit fs root qs < toVisit fs root (p :: ps) := by
  have hsub : ∀ l, isPending root qs l = true → isPending root (p :: ps) l = true := by
    intro l hl
    obtain ⟨q, hq, hq'⟩ := isPending_iff.1 hl
    obtain ⟨r, hr, hr'⟩ := hbelow q hq
    exact isPending_iff.2 ⟨r, hr, ((List.prefix_append_right_inj root).2 hr').trans hq'⟩
  -- the place of `p` itself is counted before and not afterwards
  have hself : root ++ p.names ∈ ([] :: fs.entries.map Prod.fst).filter (isPending root (p :: ps)) := by
    obtain ⟨e, he⟩ := hp.entry
    refine List.mem_filter.2 ⟨?_, isPending_iff.2 ⟨p, List.mem_cons_self, List.prefix_rfl⟩⟩
    by_cases hnil : root ++ p.names = []
    · exact hnil ▸ List.mem_cons_self
    · exact List.mem_cons_of_mem _ (List.mem_map.2 ⟨_, mem_of_get? hnil he, rfl⟩)
  have hgone : isPending root qs (root ++ p.names) ≠ true := by
    intro hl
    obtain ⟨q, hq, hq'⟩ := isPending_iff.1 hl
    exact hnot q hq ((List.prefix_append_right_inj root).1 hq')
  have hboth : ([] :: fs.entries.map Prod.fst).filter (isPending root qs) =
      (([] :: fs.entries.map Prod.fst).filter (isPending root (p :: ps))).filter (isPending root qs) := by
    rw [List.filter_filter]
    refine List.filter_congr fun l _ => ?_
    cases hl : isPending root qs l with
    | false => rfl
    | true => rw [hsub l hl, Bool.and_self]
  rw [toVisit, toVisit, hboth]
  exact List.length_filter_lt_length_iff_exists.2 ⟨_, hself, hgone⟩

theorem toVisit_entries_lt {p : Pending} {ps : List Pending} (hp : p.Stands fs input root) (h : InOrder (p :: ps))
    (names : List Name) : toVisit fs root (p.entries names ++ ps) < toVisit fs root (p :: ps) := by
  obtain ⟨hps, -⟩ := List.pairwise_cons.1 h
  refine toVisit_lt hp ?_ ?_
  · intro q hq
    obtain hq | hq := List.mem_append.1 hq
    · exact ⟨p, List.mem_cons_self, below_of_mem_entries hq⟩
    · exact ⟨q, List.mem_cons_of_mem p hq, List.prefix_rfl⟩
  · intro q hq hle
    obtain hq | hq := List.mem_append.1 hq
    · obtain ⟨name, -, hname⟩ := mem_entries hq
      have hlength := hle.length_le
      rw [hname, List.length_append, List.length_singleton] at hlength
      omega
    · exact (hps q hq).not_below List.prefix_rfl hle

theorem toVisit_tail_lt {p : Pending} {ps : List Pending} (hp : p.Stands fs input root) (h : InOrder (p :: ps)) :
    toVisit fs root ps < toVisit fs root (p :: ps) :=
  toVisit_entries_lt hp h []

/-! ### Failure -/

/-- A visit cannot go on at an entry: it is not found by its names, or it is a directory whose path is refused. -/
def Refused (fs : FileSystem) (root : Location) (p : Pending) (cause : IoError) : Prop :=
  entryKind fs p = .error cause ∨
    fs.get? (root ++ p.names) = some .directory ∧ checkPath p.path = .error cause

/-- Where a visit fails: at an entry that is refused, and before all files that are still to come. -/
def FailsAt (fs : FileSystem) (input : Path) (root : Location) (pending : List Pending) (p : Pending)
    (cause : IoError) : Prop :=
  p.Stands fs input root ∧ Refused fs root p cause ∧ (∃ r ∈ pending, r.names <+: p.names) ∧
    ∀ names ∈ remaining fs root pending, namesLe p.names names = true

theorem mem_remaining {pending : List Pending} {names : List Name} :
    names ∈ remaining fs root pending ↔ names ∈ fs.filesBelow root ∧ ∃ p ∈ pending, p.names <+: names := by
  simp only [remaining, List.mem_flatMap, List.mem_filter, isUnder_iff]
  constructor
  · rintro ⟨p, hp, hmem, hbelow⟩
    exact ⟨hmem, p, hp, hbelow⟩
  · rintro ⟨hmem, p, hp, hbelow⟩
    exact ⟨p, hp, hmem, hbelow⟩

/-- The first pending entry comes before all files that are still to come. -/
theorem namesLe_of_mem_remaining {p : Pending} {ps : List Pending} (h : InOrder (p :: ps)) :
    ∀ names ∈ remaining fs root (p :: ps), namesLe p.names names = true := by
  intro names hmem
  obtain ⟨-, q, hq, hbelow⟩ := mem_remaining.1 hmem
  obtain rfl | hq := List.mem_cons.1 hq
  · exact namesLe_of_below hbelow
  · exact (((List.pairwise_cons.1 h).1 q hq).below List.prefix_rfl hbelow).before.1

theorem nextFile_failure (hwf : fs.WellFormed) (hroot : fs.locate true input = .ok root) {n : Nat}
    {pending : List Pending} {e : IoError} (h : nextFile fs n pending = .error e)
    (hpending : ∀ p ∈ pending, p.Stands fs input root) (horder : InOrder pending) (hn : toVisit fs root pending < n) :
    ∃ p cause, e = p.failure cause ∧ FailsAt fs input root pending p cause := by
  fun_induction nextFile fs n pending with
  -- enough steps are left: each entry that is visited lowers `toVisit`
  | case1 => exact absurd hn (Nat.not_lt_zero _)
  | case2 => cases h
  | case3 n p ps cause hkind =>
    cases h
    exact ⟨p, cause, rfl, hpending p List.mem_cons_self, .inl hkind, ⟨p, List.mem_cons_self, List.prefix_rfl⟩,
      namesLe_of_mem_remaining horder⟩
  | case4 => cases h
  | case5 n p ps l hkind cause hcheck =>
    cases h
    have hp := hpending p List.mem_cons_self
    obtain ⟨rfl, hdir⟩ := entryKind_eq hwf hroot hp hkind
    exact ⟨p, cause, rfl, hp, .inr ⟨hdir, hcheck⟩, ⟨p, List.mem_cons_self, List.prefix_rfl⟩,
      namesLe_of_mem_remaining horder⟩
  | case6 n p ps l hkind hcheck ih =>
    have hp := hpending p List.mem_cons_self
    obtain ⟨rfl, hdir⟩ := entryKind_eq hwf hroot hp hkind
    have hfewer := toVisit_entries_lt hp horder (fs.children (root ++ p.names))
    obtain ⟨q, cause, rfl, hq, hrefused, ⟨r, hr, hbelow⟩, hfirst⟩ := ih h (by
      intro q hq
      obtain hq | hq := List.mem_append.1 hq
      · exact stands_entries hwf hp q hq
      · exact hpending q (List.mem_cons_of_mem p hq)) (inOrder_entries hwf horder _) (by omega)
    refine ⟨q, cause, rfl, hq, hrefused, ?_, ?_⟩
    · obtain hr | hr := List.mem_append.1 hr
      · exact ⟨p, List.mem_cons_self, (below_of_mem_entries hr).trans hbelow⟩
      · exact ⟨r, List.mem_cons_of_mem p hr, hbelow⟩
    · rw [remaining_append, remaining_entries hwf hdir] at hfirst
      rwa [remaining_cons]
  | case7 n p ps l target hkind ih =>
    have hp := hpending p List.mem_cons_self
    obtain ⟨-, hlink⟩ := entryKind_eq hwf hroot hp hkind
    have hfewer := toVisit_tail_lt hp horder
    obtain ⟨q, cause, rfl, hq, hrefused, ⟨r, hr, hbelow⟩, hfirst⟩ :=
      ih h (fun q hq => hpending q (List.mem_cons_of_mem p hq)) (List.pairwise_cons.1 horder).2 (by omega)
    refine ⟨q, cause, rfl, hq, hrefused, ⟨r, List.mem_cons_of_mem p hr, hbelow⟩, ?_⟩
    rwa [remaining_cons, filter_link hwf hlink, List.nil_append]

end Folio

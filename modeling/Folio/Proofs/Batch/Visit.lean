import Folio.Batch
import Folio.Proofs.FileSystem.Descent
import Folio.Proofs.FileSystem.Listing

/-!
# Folio.Proofs.Batch.Visit

The visit of a directory.

* `Pending.Stands`: a pending entry is there, at the place its names say.
* `remaining`: the files that are still to come, in order.
* `nextFile_spec`: the next file is the first of them.
-/

namespace Folio

open FileSystem

/-- A pending entry of the visit of `input`, which leads to `root`. -/
structure Pending.Stands (fs : FileSystem) (input : Path) (root : Location) (p : Pending) : Prop where
  path : p.path = input.below p.names
  names : ∀ name ∈ p.names, isName name = true
  entry : ∃ e, fs.get? (root ++ p.names) = some e

/-- The files that are still to come. -/
def remaining (fs : FileSystem) (root : Location) (pending : List Pending) : List (List Name) :=
  pending.flatMap fun p => (fs.filesBelow root).filter (isUnder p.names)

variable {pages : Location → Prop} {fs fs' : FileSystem} {input : Path} {root : Location}

theorem remaining_cons (p : Pending) (pending : List Pending) :
    remaining fs root (p :: pending) =
      (fs.filesBelow root).filter (isUnder p.names) ++ remaining fs root pending :=
  List.flatMap_cons

theorem remaining_append (ps qs : List Pending) :
    remaining fs root (ps ++ qs) = remaining fs root ps ++ remaining fs root qs :=
  List.flatMap_append

theorem Pending.Stands.of_grows (h : Grows pages fs fs') {p : Pending} (hp : p.Stands fs input root) :
    p.Stands fs' input root := by
  refine ⟨hp.path, hp.names, ?_⟩
  cases he : fs'.get? (root ++ p.names) with
  | some e => exact ⟨e, rfl⟩
  | none =>
    obtain ⟨e, he'⟩ := hp.entry
    rw [(h.change _).of_none he] at he'
    cases he'

theorem entryKind_eq (hwf : fs.WellFormed) (hroot : fs.locate true input = .ok root) {p : Pending}
    (hp : p.Stands fs input root) {l : Location} {e : Entry} (h : entryKind fs p = .ok (l, e)) :
    l = root ++ p.names ∧ fs.get? (root ++ p.names) = some e := by
  rw [entryKind, hp.path] at h
  by_cases hnil : p.names = []
  · have hstart : fs.locate true (input.below p.names) = .ok root := by
      rw [hnil]
      exact hroot
    rw [if_pos hnil, locateExisting, hstart] at h
    rw [hnil, List.append_nil]
    dsimp only at h
    split at h
    · cases h
    · next hentry =>
      cases h
      exact ⟨rfl, hentry⟩
  · rw [if_neg hnil] at h
    split at h
    · cases h
    next k hk =>
    split at h
    · cases h
    next d hd =>
    cases h
    rw [Path.below_eq_join input hnil hp.names] at hk
    obtain ⟨links, k, hresolve, -, hnames⟩ := resolve_join (Path.areParts_of_isName hnil hp.names) hk
    rw [resolve_of_locate hroot] at hresolve
    cases hresolve
    obtain ⟨e', he'⟩ := hp.entry
    have hl := follow_existing hwf hp.names he' hnames
    exact ⟨hl, hl ▸ hd⟩

theorem stands_entries (hwf : fs.WellFormed) {p : Pending} (hp : p.Stands fs input root) :
    ∀ q ∈ p.entries (fs.children (root ++ p.names)), q.Stands fs input root := by
  intro q hq
  obtain ⟨name, hname, rfl⟩ := List.mem_map.1 hq
  obtain ⟨e, he⟩ := (mem_children hwf).1 hname
  refine ⟨?_, ?_, e, by rw [← he, List.append_assoc]⟩
  · rw [Path.below_concat, ← hp.path]
  · intro n hn
    obtain hn | hn := List.mem_append.1 hn
    · exact hp.names n hn
    · rw [List.mem_singleton.1 hn]
      exact hwf.isName_of_concat he

theorem remaining_entries (hwf : fs.WellFormed) {p : Pending} (hdir : fs.get? (root ++ p.names) = some .directory) :
    remaining fs root (p.entries (fs.children (root ++ p.names))) =
      (fs.filesBelow root).filter (isUnder p.names) := by
  rw [filter_directory hwf hdir, remaining, Pending.entries, List.flatMap_map]

/-- What comes next: the first of the files that are still to come, and the others after it. -/
def ComesNext (fs : FileSystem) (input : Path) (root : Location) (pending : List Pending) :
    Option (Pending × List Pending) → Prop
  | none => remaining fs root pending = []
  | some (p, rest) =>
    remaining fs root pending = p.names :: remaining fs root rest ∧ p.Stands fs input root ∧
      (∃ bytes, fs.get? (root ++ p.names) = some (.file bytes)) ∧ ∀ q ∈ rest, q.Stands fs input root

theorem nextFile_spec (hwf : fs.WellFormed) (hroot : fs.locate true input = .ok root) {n : Nat}
    {pending : List Pending} {next : Option (Pending × List Pending)} (h : nextFile fs n pending = .ok next)
    (hpending : ∀ p ∈ pending, p.Stands fs input root) : ComesNext fs input root pending next := by
  -- What is passed over does not change which files are to come: a directory stands for its entries (`case6`), and a
  -- link holds none (`case7`).
  fun_induction nextFile fs n pending with
  | case1 => cases h
  | case2 =>
    cases h
    rfl
  | case3 n p ps e hkind =>
    cases h
  | case4 n p ps l bytes hkind =>
    cases h
    obtain ⟨-, hfile⟩ := entryKind_eq hwf hroot (hpending p List.mem_cons_self) hkind
    refine ⟨?_, hpending p List.mem_cons_self, ⟨bytes, hfile⟩, fun q hq => hpending q (List.mem_cons_of_mem p hq)⟩
    rw [remaining_cons, filter_file hwf hfile, List.singleton_append]
  | case5 n p ps l hkind e hcheck => cases h
  | case6 n p ps l hkind hcheck ih =>
    have hp := hpending p List.mem_cons_self
    obtain ⟨rfl, hdir⟩ := entryKind_eq hwf hroot hp hkind
    have hsame : remaining fs root (p :: ps) =
        remaining fs root (p.entries (fs.children (root ++ p.names)) ++ ps) := by
      rw [remaining_cons, remaining_append, remaining_entries hwf hdir]
    have hstands : ∀ q ∈ p.entries (fs.children (root ++ p.names)) ++ ps, q.Stands fs input root := by
      intro q hq
      obtain hq | hq := List.mem_append.1 hq
      · exact stands_entries hwf hp q hq
      · exact hpending q (List.mem_cons_of_mem p hq)
    have hnext := ih h hstands
    cases next <;> simpa only [ComesNext, hsame] using hnext
  | case7 n p ps l target hkind ih =>
    obtain ⟨-, hlink⟩ := entryKind_eq hwf hroot (hpending p List.mem_cons_self) hkind
    have hsame : remaining fs root (p :: ps) = remaining fs root ps := by
      rw [remaining_cons, filter_link hwf hlink, List.nil_append]
    have hnext := ih h fun q hq => hpending q (List.mem_cons_of_mem p hq)
    cases next <;> simpa only [ComesNext, hsame] using hnext

/-- Files that are no pages are still to come after a page has been written. -/
theorem remaining_of_grows (hwf : fs.WellFormed) (hwf' : fs'.WellFormed) (h : Grows pages fs fs')
    {keep : List Name → Bool} (hkeep : ∀ names, keep names = true → ¬ pages (root ++ names)) (pending : List Pending) :
    (remaining fs' root pending).filter keep = (remaining fs root pending).filter keep := by
  induction pending with
  | nil => rfl
  | cons p pending ih =>
    have hfilter := filter_of_grows hwf hwf' h root hkeep
    rw [remaining_cons, remaining_cons, List.filter_append, List.filter_append, ih, List.filter_comm, hfilter,
      List.filter_comm]

end Folio

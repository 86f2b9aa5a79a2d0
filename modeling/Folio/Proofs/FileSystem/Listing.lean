import Mathlib.Data.List.Nodup
import Mathlib.Data.List.Perm.Basic
import Folio.Proofs.FileSystem.Growth
import Folio.Proofs.FileSystem.Order

/-!
# Folio.Proofs.FileSystem.Listing

The files below a directory.

* `filesBelow`: the names that lead to the regular files, in the order of a depth-first visit.
* `mem_filesBelow`, `mem_children`: what is listed.
* `filter_directory`, `filter_file`, `filter_link`: the part of the list that belongs to one entry.
* `filter_of_grows`: files that are no pages are listed as before.
-/

namespace Folio
namespace FileSystem

/-- The names that lead from a directory to a regular file. -/
def fileNames? (root : Location) (p : Location × Entry) : Option (List Name) :=
  match p.2 with
  | .file _ => if root.isPrefixOf p.1 then some (p.1.drop root.length) else none
  | _ => none

/-- The regular files below a directory, depth first and with siblings in byte order of their names. -/
def filesBelow (fs : FileSystem) (root : Location) : List (List Name) :=
  (fs.entries.filterMap (fileNames? root)).mergeSort namesLe

/-- One list of names stands before another one. -/
def Before (a b : List Name) : Prop :=
  namesLe a b = true ∧ a ≠ b

theorem eq_of_before {l k : List (List Name)} (hl : l.Pairwise Before) (hk : k.Pairwise Before)
    (h : ∀ names, names ∈ l ↔ names ∈ k) : l = k := by
  have hperm : l.Perm k :=
    (List.perm_ext_iff_of_nodup (hl.imp fun hab => hab.2) (hk.imp fun hab => hab.2)).2 h
  exact hperm.eq_of_pairwise (fun a b _ _ hab hba => linear_namesLe.antisymm a b hab hba)
    (hl.imp fun hab => hab.1) (hk.imp fun hab => hab.1)

theorem fileNames?_eq_some {root : Location} {p : Location × Entry} {names : List Name} :
    fileNames? root p = some names ↔ ∃ bytes, p = (root ++ names, .file bytes) := by
  obtain ⟨l, e⟩ := p
  cases e with
  | file bytes =>
    rw [fileNames?]
    by_cases hpre : root <+: l
    · obtain ⟨more, rfl⟩ := hpre
      simp
    · have hnot : root.isPrefixOf l = false := by
        rw [← Bool.not_eq_true, List.isPrefixOf_iff_prefix]
        exact hpre
      simp only [hnot, Bool.false_eq_true, if_false, false_iff, not_exists, Prod.mk.injEq, reduceCtorEq]
      rintro _ ⟨rfl, -⟩
      exact hpre (List.prefix_append root names)
  | directory => simp [fileNames?]
  | link target => simp [fileNames?]

variable {pages : Location → Prop} {fs fs' : FileSystem}

theorem WellFormed.pairwise_entries (h : fs.WellFormed) : fs.entries.Pairwise fun p q => p.1 ≠ q.1 := by
  have hnodup := h.nodup
  rw [List.Nodup, List.pairwise_map] at hnodup
  exact hnodup

theorem mem_filesBelow (h : fs.WellFormed) {root : Location} {names : List Name} :
    names ∈ fs.filesBelow root ↔ ∃ bytes, fs.get? (root ++ names) = some (.file bytes) := by
  rw [filesBelow, List.mem_mergeSort, List.mem_filterMap]
  constructor
  · rintro ⟨p, hp, hnames⟩
    obtain ⟨bytes, rfl⟩ := fileNames?_eq_some.1 hnames
    exact ⟨bytes, h.get?_of_mem hp⟩
  · rintro ⟨bytes, hfile⟩
    have hroot : root ++ names ≠ [] := by
      intro heq
      rw [heq, get?_root] at hfile
      cases hfile
    exact ⟨_, mem_of_get? hroot hfile, fileNames?_eq_some.2 ⟨bytes, rfl⟩⟩

theorem pairwise_filesBelow (h : fs.WellFormed) (root : Location) : (fs.filesBelow root).Pairwise Before := by
  have hsorted : (fs.filesBelow root).Pairwise fun a b => namesLe a b = true :=
    List.pairwise_mergeSort linear_namesLe.trans linear_namesLe.total _
  have hnodup : (fs.entries.filterMap (fileNames? root)).Nodup := by
    refine h.pairwise_entries.filterMap (fileNames? root) ?_
    intro p q hne names hnames names' hnames' heq
    obtain ⟨bytes, rfl⟩ := fileNames?_eq_some.1 hnames
    obtain ⟨bytes', rfl⟩ := fileNames?_eq_some.1 hnames'
    exact hne (by rw [heq])
  have hdistinct : (fs.filesBelow root).Nodup := (List.mergeSort_perm _ _).nodup_iff.2 hnodup
  exact hsorted.and hdistinct

theorem childName?_eq_some {l k : Location} {name : Name} : childName? l k = some name ↔ k = l ++ [name] := by
  rw [childName?]
  obtain rfl | ⟨init, last, rfl⟩ := k.eq_nil_or_concat
  · simp
  · rw [List.concat_eq_append, List.getLast?_concat, List.dropLast_concat]
    dsimp only
    constructor
    · intro h
      split at h
      · next heq =>
        cases h
        rw [heq]
      · cases h
    · intro h
      obtain ⟨rfl, hlast⟩ := List.append_inj' h rfl
      cases hlast
      rw [if_pos rfl]

theorem mem_children (h : fs.WellFormed) {l : Location} {name : Name} :
    name ∈ fs.children l ↔ ∃ e, fs.get? (l ++ [name]) = some e := by
  rw [children, List.mem_mergeSort, List.mem_filterMap]
  constructor
  · rintro ⟨⟨k, e⟩, hp, hname⟩
    obtain rfl := childName?_eq_some.1 hname
    exact ⟨e, h.get?_of_mem hp⟩
  · rintro ⟨e, he⟩
    exact ⟨_, mem_of_get? (by simp) he, childName?_eq_some.2 rfl⟩

theorem pairwise_children (h : fs.WellFormed) (l : Location) :
    (fs.children l).Pairwise fun a b => nameLe a b = true ∧ a ≠ b := by
  have hsorted : (fs.children l).Pairwise fun a b => nameLe a b = true :=
    List.pairwise_mergeSort linear_nameLe.trans linear_nameLe.total _
  have hnodup : (fs.entries.filterMap fun p => childName? l p.1).Nodup := by
    refine h.pairwise_entries.filterMap _ ?_
    intro p q hne name hname name' hname' heq
    have hp := childName?_eq_some.1 hname
    have hq := childName?_eq_some.1 hname'
    exact hne (by rw [hp, hq, heq])
  have hdistinct : (fs.children l).Nodup := (List.mergeSort_perm _ _).nodup_iff.2 hnodup
  exact hsorted.and hdistinct

/-! ### The part of one entry -/

/-- Whether a file is an entry or stands below it. -/
def isUnder (names file : List Name) : Bool :=
  names.isPrefixOf file

theorem isUnder_iff {names file : List Name} : isUnder names file = true ↔ names <+: file := by
  rw [isUnder, List.isPrefixOf_iff_prefix]

theorem before_of_prefix {init a b : List Name} {x y : Name} (hxy : nameLe x y = true ∧ x ≠ y)
    (ha : init ++ [x] <+: a) (hb : init ++ [y] <+: b) : Before a b := by
  obtain ⟨s, rfl⟩ := ha
  obtain ⟨t, rfl⟩ := hb
  have hle : namesLe (init ++ [x] ++ s) (init ++ [y] ++ t) = true := by
    induction init with
    | nil => simp [namesLe, lexLe, hxy]
    | cons name init ih => simpa [namesLe, lexLe] using ih
  refine ⟨hle, ?_⟩
  intro heq
  simp only [List.append_assoc, List.append_cancel_left_eq, List.singleton_append, List.cons.injEq] at heq
  exact hxy.2 heq.1

theorem filter_file (h : fs.WellFormed) {root : Location} {names : List Name} {bytes : List UInt8}
    (hfile : fs.get? (root ++ names) = some (.file bytes)) :
    (fs.filesBelow root).filter (isUnder names) = [names] := by
  refine eq_of_before ((pairwise_filesBelow h root).filter _) (List.pairwise_singleton _ _) ?_
  intro names'
  rw [List.mem_filter, isUnder_iff, mem_filesBelow h, List.mem_singleton]
  constructor
  · rintro ⟨⟨bytes', hfile'⟩, more, rfl⟩
    by_cases hmore : more = []
    · rw [hmore, List.append_nil]
    · -- nothing stands below a file
      rw [← List.append_assoc] at hfile'
      rw [h.directory_of_append hmore hfile'] at hfile
      cases hfile
  · rintro rfl
    exact ⟨⟨bytes, hfile⟩, List.prefix_rfl⟩

theorem filter_link (h : fs.WellFormed) {root : Location} {names : List Name} {target : Path}
    (hlink : fs.get? (root ++ names) = some (.link target)) : (fs.filesBelow root).filter (isUnder names) = [] := by
  rw [List.filter_eq_nil_iff]
  intro names' hmem hunder
  obtain ⟨bytes, hfile⟩ := (mem_filesBelow h).1 hmem
  obtain ⟨more, rfl⟩ := isUnder_iff.1 hunder
  rw [← List.append_assoc] at hfile
  by_cases hmore : more = []
  · rw [hmore, List.append_nil, hlink] at hfile
    cases hfile
  · rw [h.directory_of_append hmore hfile] at hlink
    cases hlink

/-- The files of a directory are those of its entries, one entry after the other. -/
theorem filter_directory (h : fs.WellFormed) {root : Location} {names : List Name}
    (hdir : fs.get? (root ++ names) = some .directory) :
    (fs.filesBelow root).filter (isUnder names) =
      (fs.children (root ++ names)).flatMap fun name => (fs.filesBelow root).filter (isUnder (names ++ [name])) := by
  have hsorted := pairwise_filesBelow h root
  refine eq_of_before (hsorted.filter _) ?_ ?_
  · rw [List.pairwise_flatMap]
    refine ⟨fun name _ => hsorted.filter _, (pairwise_children h _).imp ?_⟩
    intro x y hxy a ha b hb
    rw [List.mem_filter, isUnder_iff] at ha hb
    exact before_of_prefix hxy ha.2 hb.2
  · intro file
    simp only [List.mem_flatMap, List.mem_filter, isUnder_iff, mem_children h]
    constructor
    · rintro ⟨hmem, more, rfl⟩
      obtain ⟨bytes, hfile⟩ := (mem_filesBelow h).1 hmem
      cases more with
      | nil =>
        rw [List.append_nil, hdir] at hfile
        cases hfile
      | cons name more =>
        have hchild : ∃ e, fs.get? (root ++ names ++ [name]) = some e := by
          by_cases hmore : more = []
          · rw [hmore, ← List.append_assoc] at hfile
            exact ⟨_, hfile⟩
          · have happ : root ++ (names ++ name :: more) = root ++ names ++ [name] ++ more := by simp
            rw [happ] at hfile
            exact ⟨_, h.directory_of_append hmore hfile⟩
        exact ⟨name, hchild, hmem, more, by simp⟩
    · rintro ⟨name, -, hmem, hpre⟩
      exact ⟨hmem, (List.prefix_append names [name]).trans hpre⟩

theorem filter_of_grows (h : fs.WellFormed) (h' : fs'.WellFormed) (hgrows : Grows pages fs fs') (root : Location)
    {keep : List Name → Bool} (hkeep : ∀ names, keep names = true → ¬ pages (root ++ names)) :
    (fs'.filesBelow root).filter keep = (fs.filesBelow root).filter keep := by
  refine eq_of_before ((pairwise_filesBelow h' root).filter _) ((pairwise_filesBelow h root).filter _) ?_
  intro names
  rw [List.mem_filter, List.mem_filter, mem_filesBelow h, mem_filesBelow h']
  constructor
  · rintro ⟨⟨bytes, hfile⟩, hk⟩
    exact ⟨⟨bytes, ((hgrows.change _).file_iff (hkeep names hk)).1 hfile⟩, hk⟩
  · rintro ⟨⟨bytes, hfile⟩, hk⟩
    exact ⟨⟨bytes, ((hgrows.change _).file_iff (hkeep names hk)).2 hfile⟩, hk⟩

end FileSystem
end Folio

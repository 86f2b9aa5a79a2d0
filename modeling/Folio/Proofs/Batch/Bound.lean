import Folio.Proofs.Batch.Steps

/-!
# Folio.Proofs.Batch.Bound

A run is never stopped for the number of its files.

* `length_le_of_short`: there are only so many byte sequences of a limited length.
* `Pending.Listed`, `Pending.Stands.length_le`: a file that a visit comes to stands in a directory whose path has been
  accepted, so that its own path is not much longer.
* `Walked`: the files that a run has come to differ, and their paths are short; `Walked.file` is the step,
  `Walked.runs` the whole way.
* `processAll_ends`: a run goes on until everything is done or something fails.
-/

namespace Folio

open Folio.Path FileSystem

/-! ### How many paths there are -/

/-- A byte sequence as a number. No digit is zero, so that its length is not lost. -/
def pathCode (bytes : List UInt8) : Nat :=
  Nat.ofDigits 257 (bytes.map fun b => b.toNat + 1)

theorem digit_lt {bytes : List UInt8} : ∀ d ∈ bytes.map fun b => b.toNat + 1, d < 257 := by
  intro d hd
  obtain ⟨b, -, rfl⟩ := List.mem_map.1 hd
  have hb := b.toNat_lt
  omega

theorem pathCode_injective : Function.Injective pathCode := by
  intro as bs h
  have hdigits : ∀ bytes : List UInt8, Nat.digits 257 (pathCode bytes) = bytes.map fun b => b.toNat + 1 := by
    intro bytes
    refine Nat.digits_ofDigits 257 (by decide) _ digit_lt fun hne => ?_
    obtain ⟨b, -, hb⟩ := List.mem_map.1 (List.getLast_mem hne)
    rw [← hb]
    exact Nat.succ_ne_zero _
  have hmap := (hdigits as).symm.trans ((congrArg (Nat.digits 257) h).trans (hdigits bs))
  exact List.map_injective_iff.2 (fun b b' hb => UInt8.toNat_inj.1 (Nat.succ.inj hb)) hmap

theorem pathCode_lt {bytes : List UInt8} {n : Nat} (h : bytes.length ≤ n) : pathCode bytes < 257 ^ n := by
  have hlt : pathCode bytes < 257 ^ (bytes.map fun b => b.toNat + 1).length :=
    Nat.ofDigits_lt_base_pow_length (by decide) digit_lt
  rw [List.length_map] at hlt
  exact hlt.trans_le (Nat.pow_le_pow_right (by decide) h)

theorem length_le_of_short {paths : List (List UInt8)} {n : Nat} (hnodup : paths.Nodup)
    (hshort : ∀ bytes ∈ paths, bytes.length ≤ n) : paths.length ≤ 257 ^ n := by
  have hcodes : (paths.map pathCode).Nodup := hnodup.map pathCode_injective
  have hsub : paths.map pathCode ⊆ List.range (257 ^ n) := by
    intro code hcode
    obtain ⟨bytes, hbytes, rfl⟩ := List.mem_map.1 hcode
    exact List.mem_range.2 (pathCode_lt (hshort bytes hbytes))
  have hle := (hcodes.subperm hsub).length_le
  rwa [List.length_map, List.length_range] at hle

/-! ### How long the paths are -/

theorem length_of_checkPath {p : Path} (h : checkPath p = .ok ()) : p.bytes.length < maxPathLength := by
  rw [checkPath] at h
  split at h
  · cases h
  split at h
  · cases h
  split at h
  · cases h
  · next hlength => exact Nat.not_le.1 hlength

theorem Path.length_join (p q : Path) :
    q.bytes.length ≤ (p.join q).bytes.length ∧ (p.join q).bytes.length ≤ p.bytes.length + 1 + q.bytes.length := by
  rw [join]
  split
  · omega
  split
  · rw [List.length_append]
    omega
  · rw [List.length_append, List.length_cons]
    omega

/-- The directory of an entry has been listed: its path has been accepted. -/
def Pending.Listed (p : Pending) : Prop :=
  ∀ init name, p.names = init ++ [name] → ∃ dir, checkPath dir = .ok () ∧ p.path = dir.join ⟨name⟩

variable {b : Batch} {fs fs' : FileSystem} {input : Path} {root : Location}

theorem listed_entries {p : Pending} (hcheck : checkPath p.path = .ok ()) (names : List Name) :
    ∀ q ∈ p.entries names, q.Listed := by
  intro q hq init name hnames
  obtain ⟨n, -, rfl⟩ := List.mem_map.1 hq
  obtain ⟨-, hlast⟩ := List.append_inj' hnames rfl
  cases hlast
  exact ⟨p.path, hcheck, rfl⟩

/-- The next file has been found by its path, and the directories of all that is pending after it have been listed. -/
theorem nextFile_listed {n : Nat} {pending rest : List Pending} {p : Pending}
    (h : nextFile fs n pending = .ok (some (p, rest))) (hpending : ∀ q ∈ pending, q.Listed) :
    (∃ l bytes, entryKind fs p = .ok (l, .file bytes)) ∧ ∀ q ∈ p :: rest, q.Listed := by
  fun_induction nextFile fs n pending with
  | case4 n p ps l bytes hkind =>
    cases h
    exact ⟨⟨l, bytes, hkind⟩, hpending⟩
  | case6 n p ps l hkind hcheck ih =>
    refine ih h fun q hq => ?_
    obtain hq | hq := List.mem_append.1 hq
    · exact listed_entries hcheck _ q hq
    · exact hpending q (List.mem_cons_of_mem p hq)
  | case7 n p ps l target hkind ih => exact ih h fun q hq => hpending q (List.mem_cons_of_mem p hq)
  | _ => cases h

/-- A name by which an entry is found is not too long. -/
theorem name_length_le {p : Pending} (hp : p.Stands fs input root) {init : List Name} {name : Name}
    (hnames : p.names = init ++ [name]) {l : Location} {e : Entry} (hkind : entryKind fs p = .ok (l, e)) :
    name.length ≤ maxNameLength := by
  have hname : isName name = true := hp.names name (by simp [hnames])
  have hparts : AreParts [name] := areParts_of_isName (by simp) (by simpa using hname)
  rw [entryKind, if_neg (by simp [hnames]), hp.path, hnames, below_concat] at hkind
  split at hkind
  · cases hkind
  next k hk =>
  obtain ⟨links, at_, -, hdir, hfollow⟩ := resolve_join hparts hk
  obtain hnamed | ⟨-, hlong⟩ := namesEntry_or_long hdir hname
  · exact Nat.not_lt.1 hnamed.short
  · rw [hlong] at hfollow
    cases hfollow

theorem Pending.Stands.length_le {p : Pending} (hp : p.Stands fs input root) (hlisted : p.Listed)
    (hne : p.names ≠ []) {l : Location} {e : Entry} (hkind : entryKind fs p = .ok (l, e)) :
    (unsplit p.names).length ≤ maxPathLength + maxNameLength := by
  obtain ⟨init, name, hnames⟩ : ∃ init name, p.names = init ++ [name] :=
    ⟨p.names.dropLast, p.names.getLast hne, (List.dropLast_append_getLast hne).symm⟩
  obtain ⟨dir, hcheck, hpath⟩ := hlisted init name hnames
  have hname := name_length_le hp hnames hkind
  have hdir := length_of_checkPath hcheck
  obtain ⟨-, hjoin⟩ := Path.length_join dir ⟨name⟩
  obtain ⟨hbelow, -⟩ := Path.length_join input ⟨unsplit p.names⟩
  rw [← below_eq_join input hne hp.names, ← hp.path, hpath] at hbelow
  dsimp only at hjoin hbelow
  omega

/-! ### The files of a run -/

/-- A run has come to the files `done`, one after the other. -/
structure Walked (input : Path) (root : Location) (done : List (List Name)) (s : Progress) : Prop where
  wellFormed : s.fs.WellFormed
  leads : s.fs.locate true input = .ok root
  directory : s.fs.get? root = some .directory
  stands : ∀ p ∈ s.pending, p.Stands s.fs input root
  inOrder : InOrder s.pending
  listed : ∀ p ∈ s.pending, p.Listed
  nodup : done.Nodup
  precedes : ∀ names ∈ done, ∀ p ∈ s.pending, Precedes names p.names
  short : ∀ names ∈ done, AreParts names ∧ (unsplit names).length ≤ maxPathLength + maxNameLength

variable {done : List (List Name)} {s s' : Progress}

theorem Walked.start (hwf : fs.WellFormed) (hroot : fs.locate true input = .ok root)
    (hdir : fs.get? root = some .directory) : Walked input root [] (Progress.start input fs) := by
  refine ⟨hwf, hroot, hdir, fun p hp => ?_, List.pairwise_singleton _ _, fun p hp => ?_, List.nodup_nil,
    fun _ h => absurd h List.not_mem_nil, fun _ h => absurd h List.not_mem_nil⟩
  · rw [List.mem_singleton.1 hp]
    refine ⟨rfl, fun _ hname => absurd hname List.not_mem_nil, .directory, ?_⟩
    rw [List.append_nil]
    exact hdir
  · rw [List.mem_singleton.1 hp]
    intro init name hnil
    simp at hnil

/-- The next file comes after all that have been handled. -/
theorem Walked.file (h : Walked input root done s) {p : Pending} {rest : List Pending}
    (hnext : s.next = .ok (some (p, rest))) {written : Written} (hfile : b.Handles s.written p s.fs (.ok written) fs) :
    Walked input root (p.names :: done) ⟨written, rest, fs⟩ := by
  obtain ⟨-, hp, ⟨bytes, hentry⟩, hrest⟩ := nextFile_spec h.wellFormed h.leads hnext h.stands
  obtain ⟨⟨l, bytes', hkind⟩, hlisted⟩ := nextFile_listed hnext h.listed
  obtain ⟨hfirst, horder⟩ := List.pairwise_cons.1 (nextFile_inOrder h.wellFormed hnext h.inOrder)
  have hne : p.names ≠ [] := by
    intro hnil
    rw [hnil, List.append_nil, h.directory] at hentry
    cases hentry
  have hbefore : ∀ names ∈ done, ∀ q ∈ p :: rest, Precedes names q.names := by
    intro names hnames q hq
    obtain ⟨r, hr, hbelow⟩ := nextFile_below hnext q hq
    exact (h.precedes names hnames r hr).below List.prefix_rfl hbelow
  have hnew : p.names ∉ done := fun hmem => (hbefore _ hmem p List.mem_cons_self).before.2 rfl
  have hprecedes : ∀ names ∈ p.names :: done, ∀ q ∈ rest, Precedes names q.names := by
    intro names hnames q hq
    obtain rfl | hnames := List.mem_cons.1 hnames
    · exact hfirst q hq
    · exact hbefore names hnames q (List.mem_cons_of_mem p hq)
  have hshort : ∀ names ∈ p.names :: done,
      AreParts names ∧ (unsplit names).length ≤ maxPathLength + maxNameLength := by
    intro names hnames
    obtain rfl | hnames := List.mem_cons.1 hnames
    · exact ⟨areParts_of_isName hne hp.names, hp.length_le (hlisted p List.mem_cons_self) hne hkind⟩
    · exact h.short names hnames
  have hlater : ∀ q ∈ rest, q.Listed := fun q hq => hlisted q (List.mem_cons_of_mem p hq)
  have hnodup : (p.names :: done).Nodup := List.nodup_cons.2 ⟨hnew, h.nodup⟩
  obtain ⟨-, -, rfl⟩ | ⟨-, -, -, fs₁, kind, text, k, hpage⟩ := hfile.file h.wellFormed hp
  · exact ⟨h.wellFormed, h.leads, h.directory, hrest, horder, hlater, hnodup, hprecedes, hshort⟩
  · have hgrows := hpage.step_grows
    exact ⟨hpage.wrote.wellFormed, locate_of_grows hgrows h.leads, (hgrows.change root).directory h.directory,
      fun q hq => (hrest q hq).of_grows hgrows, horder, hlater, hnodup, hprecedes, hshort⟩

theorem Walked.runs (h : Walked input root done s) {k : Nat} (hruns : b.Runs k s s') :
    ∃ more, more.length = k ∧ Walked input root (more ++ done) s' := by
  induction hruns generalizing done with
  | refl => exact ⟨[], rfl, h⟩
  | @file k s s' p rest written fs hnext hfile _ ih =>
    obtain ⟨more, hlength, hmore⟩ := ih (h.file hnext hfile)
    refine ⟨more ++ [p.names], by rw [List.length_append, hlength, List.length_singleton], ?_⟩
    rwa [List.append_assoc]

/-- A run has come to fewer files than it is allowed. -/
theorem Walked.length_lt (h : Walked input root done s) : done.length < maxFiles := by
  have hnodup : (done.map unsplit).Nodup := by
    refine List.Nodup.map_on (fun names hnames others hothers hsame => ?_) h.nodup
    have hparts := (h.short names hnames).1
    have hparts' := (h.short others hothers).1
    rw [← split_unsplit hparts.ne_nil hparts.slashless, hsame, split_unsplit hparts'.ne_nil hparts'.slashless]
  have hshort : ∀ bytes ∈ done.map unsplit, bytes.length ≤ maxPathLength + maxNameLength := by
    intro bytes hbytes
    obtain ⟨names, hnames, rfl⟩ := List.mem_map.1 hbytes
    exact (h.short names hnames).2
  unfold maxFiles
  -- the bound on the length is not to be computed with
  generalize maxPathLength + maxNameLength = n at hshort ⊢
  have hle := length_le_of_short hnodup hshort
  rw [List.length_map] at hle
  exact hle.trans_lt (Nat.pow_lt_pow_right (by decide) (Nat.lt_succ_self n))

theorem exists_maxFiles {k : Nat} (hk : k ≤ maxPathLength) : ∃ n, maxFiles = n + k := by
  have hk' : k ≤ maxPathLength + maxNameLength + 1 := by omega
  unfold maxFiles
  generalize maxPathLength + maxNameLength + 1 = n at hk' ⊢
  exact ⟨257 ^ n - k, (Nat.sub_add_cancel (hk'.trans (Nat.lt_pow_self (by decide)).le)).symm⟩

/-- A run goes on file by file until it ends, and reports the pages that it has written. -/
theorem processAll_ends (b : Batch) {w : World} (hwf : w.fs.WellFormed) (hroot : w.fs.locate true input = .ok root)
    (hdir : w.fs.get? root = some .directory) :
    let run := b.processAll maxFiles [] [⟨input, []⟩] w
    ∃ k s, b.Runs k (Progress.start input w.fs) s ∧ b.Ends s run.1 run.2.fs ∧
      run.2.generated = w.generated ++ s.written.reverse.map Prod.fst := by
  intro run
  obtain ⟨k, s, hruns, hend, made, hwritten, hmade⟩ := b.processAll_cases maxFiles [] [⟨input, []⟩] w
  obtain ⟨done, hlength, hwalked⟩ := (Walked.start hwf hroot hdir).runs hruns
  rw [List.append_nil] at hwalked hwritten
  refine ⟨k, s, hruns, hend.resolve_left ?_, hwritten ▸ hmade⟩
  rintro ⟨hk, -⟩
  exact absurd hwalked.length_lt (by rw [hlength, hk]; exact lt_irrefl _)

end Folio

import Folio.Proofs.FileSystem.Descent
import Folio.Proofs.Target

/-!
# Folio.Proofs.FileSystem.Parents

Which directories are made for a path.

* `IsAncestor`: the directory a path stands in, and those above it, by their spelling; `prefix_of_ancestor` says when
  they are above it in the table too.
* `makeDirectories_ancestor`: what is made for a path is the path itself or one of its ancestors.
* `isDirectory_of_makeDirectories`, `makeDirectories_of_isDirectory`: what has been made stands there, and is not
  made again.
* `prepare`: the making of the directories that a file needs; `prepare_grows`, `prepare_ancestor` and `prepare_again`
  say the same of it.
-/

namespace Folio

open Folio.Path

/-- One path stands above another one. -/
inductive Path.IsAncestor : Path → Path → Prop where
  | parent {p q : Path} (h : p.parent? = some q) : IsAncestor q p
  | up {p q r : Path} (hq : IsAncestor q p) (h : q.parent? = some r) : IsAncestor r p

theorem Path.IsAncestor.of_parent {p q r : Path} (hr : IsAncestor r q) (h : p.parent? = some q) : IsAncestor r p := by
  induction hr with
  | parent hq => exact .up (.parent h) hq
  | up _ hq ih => exact .up (ih h) hq

/-! ### The spelling of parents -/

theorem Path.dropIdle_suffix (rooted : Bool) (parts : List Name) : dropIdle rooted parts <:+ parts := by
  induction parts with
  | nil => exact List.suffix_rfl
  | cons name names ih =>
    cases names with
    | nil =>
      rw [dropIdle]
      split
      · exact List.nil_suffix
      · exact List.suffix_rfl
    | cons next names =>
      rw [dropIdle]
      · split
        · exact ih.trans (List.suffix_cons name _)
        · exact List.suffix_rfl
      · simp

/-- What stays ends with a name, or is the root. -/
theorem Path.dropIdle_cases (rooted : Bool) (parts : List Name) :
    dropIdle rooted parts = [] ∨ (rooted = true ∧ ∃ first, dropIdle rooted parts = [first]) ∨
      ∃ name names, dropIdle rooted parts = name :: names ∧ name ≠ [] := by
  induction parts with
  | nil => exact .inl rfl
  | cons name names ih =>
    cases names with
    | nil =>
      cases rooted with
      | true => exact .inr (.inl ⟨rfl, name, by simp [dropIdle]⟩)
      | false =>
        by_cases hname : name = []
        · exact .inl (by simp [dropIdle, isIdle, hname])
        · exact .inr (.inr ⟨name, [], by simp [dropIdle, isIdle, hname], hname⟩)
    | cons next names =>
      rw [dropIdle]
      · split
        · exact ih
        · next hidle =>
          refine .inr (.inr ⟨name, next :: names, rfl, ?_⟩)
          rintro rfl
          exact hidle rfl
      · simp

/-- A parent is spelled as the path is, as far as it goes. -/
theorem Path.bytes_of_parent {p q : Path} (h : p.parent? = some q) :
    q.bytes = [] ∨ q.bytes = [slash] ∨ ∃ tail, p.bytes = q.bytes ++ slash :: tail := by
  rw [parent?] at h
  split at h
  · cases h
  · split at h
    · cases h
    · cases h
      exact .inl rfl
  · next first rest hmore hparts =>
    cases h
    obtain ⟨after, hafter⟩ := hparts ▸ dropIdle_suffix p.isAbsolute (split p.bytes).reverse
    obtain ⟨idle, hidle⟩ := dropIdle_suffix p.isAbsolute rest
    have hsplit : split p.bytes = (dropIdle p.isAbsolute rest).reverse ++ (after ++ first :: idle).reverse := by
      rw [← List.reverse_append, List.append_assoc, List.cons_append, hidle, hafter, List.reverse_reverse]
    rw [ofReversed.eq_def]
    split
    · exact .inr (.inl rfl)
    · dsimp only
      by_cases hnil : dropIdle p.isAbsolute rest = []
      · rw [hnil]
        exact .inl rfl
      · refine .inr (.inr ⟨unsplit (after ++ first :: idle).reverse, ?_⟩)
        rw [← unsplit_split p.bytes, hsplit, unsplit_append (by simpa using hnil) (by simp)]

theorem Path.IsAncestor.bytes {p q : Path} (h : IsAncestor q p) :
    q.bytes = [] ∨ q.bytes = [slash] ∨ ∃ tail, p.bytes = q.bytes ++ slash :: tail := by
  induction h with
  | parent h => exact bytes_of_parent h
  | @up p q r hq h ih =>
    obtain hr | hr | ⟨tail, htail⟩ := bytes_of_parent h
    · exact .inl hr
    · exact .inr (.inl hr)
    obtain hnil | hroot | ⟨tail', htail'⟩ := ih
    · rw [hnil] at htail
      simp at htail
    · obtain rfl : q = ⟨[slash]⟩ := congrArg Path.mk hroot
      cases h
    · refine .inr (.inr ⟨tail ++ slash :: tail', ?_⟩)
      rw [htail', htail, List.append_assoc, List.cons_append]

/-- A path that ends with a slash is the root. -/
def Path.EndsProperly (p : Path) : Prop :=
  p.bytes = [slash] ∨ p.bytes.getLast? ≠ some slash

theorem Path.endsProperly_parent {p q : Path} (h : p.parent? = some q) : q.EndsProperly := by
  rw [parent?] at h
  split at h
  · cases h
  · split at h
    · cases h
    · cases h
      exact .inr (by simp)
  · next first rest hmore hparts =>
    cases h
    have hrest : dropIdle p.isAbsolute rest <:+ (split p.bytes).reverse :=
      ((dropIdle_suffix _ _).trans (List.suffix_cons first rest)).trans (hparts ▸ dropIdle_suffix _ _)
    obtain hnil | ⟨hrooted, root, hroot⟩ | ⟨name, names, hnames, hne⟩ := dropIdle_cases p.isAbsolute rest
    · rw [hnil]
      exact .inr (by simp [ofReversed, unsplit])
    · rw [hrooted] at hroot ⊢
      rw [hroot]
      exact .inl rfl
    · have hslash : slash ∉ name := by
        have hmem : name ∈ (split p.bytes).reverse := hrest.subset (hnames ▸ List.mem_cons_self)
        exact not_mem_of_mem_split (List.mem_reverse.1 hmem)
      rw [hnames, ofReversed.eq_def]
      split
      · exact .inl rfl
      · right
        dsimp only
        rw [List.reverse_cons]
        exact getLast?_unsplit names.reverse hne hslash

theorem Path.IsAncestor.endsProperly {p q : Path} (h : IsAncestor q p) : q.EndsProperly := by
  cases h with
  | parent h => exact endsProperly_parent h
  | up _ h => exact endsProperly_parent h

namespace FileSystem

theorem withoutFinalSlashes_eq {p : Path} (h : p.EndsProperly) : withoutFinalSlashes p = p := by
  obtain ⟨bytes⟩ := p
  obtain h | h := h
  · obtain rfl : bytes = [slash] := h
    rfl
  · obtain rfl | ⟨init, last, rfl⟩ := bytes.eq_nil_or_concat
    · rfl
    · have hlast : last ≠ slash := by
        rintro rfl
        exact h (by simp)
      rw [withoutFinalSlashes]
      simp [hlast]

/-! ### Following a path to its end -/

variable {pages : Location → Prop} {fs fs' : FileSystem}

/-- An ancestor of a path leads above it, where neither the way up nor a link stands behind it. -/
theorem prefix_of_ancestor {p q : Path} {l k : Location} (hq : q.IsAncestor p) (hl : fs.locate true q = .ok l)
    (hk : fs.locate true p = .ok k) (hup : dotDotName ∉ split p.bytes)
    (hlinks : ∀ more, more ≠ [] → ∀ target, fs.get? (l ++ more) ≠ some (.link target)) : l <+: k := by
  have hl' := resolve_of_locate hl
  have hk' := resolve_of_locate hk
  obtain hnil | hroot | ⟨tail, htail⟩ := hq.bytes
  · rw [locate, checkPath, hnil] at hl
    cases hl
  · rw [resolve, isAbsolute, hroot] at hl'
    have hstart : fs.follow true maxLinks [] [[], []] = .ok [] := by
      rw [follow_idle (get?_root fs) (.inl rfl), follow_idle (get?_root fs) (.inl rfl), follow_nil]
    cases hstart.symm.trans hl'
    exact List.nil_prefix
  · have hne : q.bytes ≠ [] := by
      intro hnil
      rw [locate, checkPath, hnil] at hl
      cases hl
    have hrooted : p.isAbsolute = q.isAbsolute := by
      rw [isAbsolute, isAbsolute, htail, List.head?_append_of_ne_nil _ hne]
    rw [htail, split_append] at hup
    rw [resolve, hrooted, htail, split_append] at hk'
    obtain ⟨links, l', -, hreach⟩ := reaches_of_follow (.inl (split_ne_nil tail)) hk'
    have hthere := hreach true [] (.inl rfl)
    rw [List.append_nil, follow_nil] at hthere
    rw [resolve, hthere] at hl'
    cases hl'
    rw [hreach true (split tail) (.inl rfl)] at hk'
    exact follow_down (fun hmem => hup (List.mem_append_right _ hmem)) hlinks hk'

/-- Where nothing stands at the end of a path, no link stands there. -/
theorem follow_through_of_none {links : Nat} {at_ l : Location} {parts : List Name}
    (h : fs.follow false links at_ parts = .ok l) (hnone : fs.get? l = none) :
    fs.follow true links at_ parts = .ok l := by
  fun_induction follow fs false links at_ parts with
  | case1 => rw [follow_nil, h]
  | case2 links at_ part rest hat hidle ih =>
    rw [follow_idle hat hidle]
    exact ih h
  | case3 links at_ rest hat hidle ih =>
    rw [follow_up hat]
    exact ih h
  | case5 links at_ part hat hidle hup hshort hmissing =>
    rw [follow_missing hat ⟨hidle, hup, hshort⟩ hmissing, if_pos rfl, h]
  | case7 links at_ part rest hat hidle hup hshort target hlink hlast =>
    cases h
    rw [hlink] at hnone
    cases hnone
  | case9 at_ part rest hat hidle hup hshort target hlink hlast links ih =>
    rw [follow_link hat ⟨hidle, hup, hshort⟩ hlink, if_neg (by simp)]
    exact ih h
  | case10 links at_ part rest hat hidle hup hshort e hlink he ih =>
    rw [follow_entry hat ⟨hidle, hup, hshort⟩ he hlink]
    exact ih h
  | _ => cases h

/-- Where a path leads to an entry, one stands there before its last link is followed too. -/
theorem follow_short_of_some {links : Nat} {at_ l : Location} {parts : List Name} {e : Entry}
    (h : fs.follow true links at_ parts = .ok l) (he : fs.get? l = some e) :
    ∃ k d, fs.follow false links at_ parts = .ok k ∧ fs.get? k = some d := by
  fun_induction follow fs true links at_ parts with
  | case1 =>
    cases h
    exact ⟨l, e, follow_nil, he⟩
  | case2 links at_ part rest hat hidle ih =>
    rw [follow_idle hat hidle]
    exact ih h
  | case3 links at_ rest hat hidle ih =>
    rw [follow_up hat]
    exact ih h
  | case5 links at_ part hat hidle hup hshort hmissing =>
    cases h
    rw [hmissing] at he
    cases he
  | case7 links at_ part rest hat hidle hup hshort target hlink hlast => cases hlast.2
  | case9 at_ part rest hat hidle hup hshort target hlink hlast links ih =>
    rw [follow_link hat ⟨hidle, hup, hshort⟩ hlink]
    split
    · exact ⟨_, _, rfl, hlink⟩
    · exact ih h
  | case10 links at_ part rest hat hidle hup hshort e hlink he ih =>
    rw [follow_entry hat ⟨hidle, hup, hshort⟩ he hlink]
    exact ih h
  | _ => cases h

/-! ### Making directories -/

theorem makeDirectory_ok {p : Path} (hp : p.EndsProperly) (h : fs.makeDirectory p = .ok fs') :
    ∃ l, fs.get? l = none ∧ fs' = fs.put l .directory ∧ fs'.locate true p = .ok l := by
  rw [makeDirectory, withoutFinalSlashes_eq hp] at h
  split at h
  · cases h
  next l hl =>
  split at h
  · cases h
  next hnone =>
  cases h
  have hthrough : fs.locate true p = .ok l := by
    rw [locate] at hl ⊢
    split at hl
    · cases hl
    · exact follow_through_of_none hl hnone
  exact ⟨l, hnone, rfl, locate_of_grows (grows_put_directory (fun _ => False) hnone) hthrough⟩

theorem get?_put_directory {l k : Location} (hnone : fs.get? l = none) :
    (fs.put l .directory).get? k = if k = l then some .directory else fs.get? k := by
  refine get?_put fs ?_ _ k
  rintro rfl
  rw [get?_root] at hnone
  cases hnone

theorem mem_missing {n : Nat} {p : Path} {ps : List Path} (h : fs.missing n p = .ok ps) :
    ∀ q ∈ ps, q = p ∨ IsAncestor q p := by
  induction n generalizing p ps with
  | zero => cases h
  | succ n ih =>
    rw [missing] at h
    split at h
    · cases h
      simp
    split at h
    · cases h
      simp
    · split at h
      · cases h
        simp
      · next parent hparent =>
        split at h
        · cases h
        · next ps' hps =>
          cases h
          intro q hq
          obtain rfl | hq := List.mem_cons.1 hq
          · exact .inl rfl
          · obtain rfl | hq := ih hps q hq
            · exact .inr (.parent hparent)
            · exact .inr (hq.of_parent hparent)
    · split at h
      · cases h
        simp
      · cases h

theorem makeEach_made (hwf : fs.WellFormed) {ps : List Path} (hps : ∀ p ∈ ps, p.EndsProperly) {l : Location}
    (hnone : fs.get? l = none) (hdir : (fs.makeEach ps).1.get? l = some .directory) :
    ∃ p ∈ ps, (fs.makeEach ps).1.locate true p = .ok l := by
  induction ps generalizing fs with
  | nil =>
    rw [makeEach, hnone] at hdir
    cases hdir
  | cons p ps ih =>
    have hps' : ∀ q ∈ ps, q.EndsProperly := fun q hq => hps q (List.mem_cons_of_mem p hq)
    cases hm : fs.makeDirectory p with
    | ok fs₁ =>
      simp only [makeEach, hm] at hdir ⊢
      obtain ⟨hwf₁, -⟩ := @makeDirectory_grows (fun _ => False) fs fs₁ hwf p hm
      obtain ⟨k, hk, rfl, hlocate⟩ := makeDirectory_ok (hps p List.mem_cons_self) hm
      -- either `l` is what the first path has made, or it is still missing
      by_cases hl : l = k
      · subst hl
        obtain ⟨-, hgrows⟩ := @makeEach_grows (fun _ => False) _ hwf₁ ps
        exact ⟨p, List.mem_cons_self, locate_of_grows hgrows hlocate⟩
      · have hnone₁ : (fs.put k .directory).get? l = none := by rw [get?_put_directory hk, if_neg hl, hnone]
        obtain ⟨q, hq, hq'⟩ := ih hwf₁ hps' hnone₁ hdir
        exact ⟨q, List.mem_cons_of_mem p hq, hq'⟩
    | error e =>
      simp only [makeEach, hm] at hdir ⊢
      split at hdir
      · next hstands =>
        rw [if_pos hstands]
        obtain ⟨q, hq, hq'⟩ := ih hwf hps' hnone hdir
        exact ⟨q, List.mem_cons_of_mem p hq, hq'⟩
      · rw [hnone] at hdir
        cases hdir

/-- What is made for a path is the path or one of its ancestors. -/
theorem makeDirectories_ancestor (hwf : fs.WellFormed) {p : Path} (hp : p.EndsProperly) {l : Location}
    (hnone : fs.get? l = none) (hdir : (fs.makeDirectories p).1.get? l = some .directory) :
    ∃ q, (q = p ∨ IsAncestor q p) ∧ (fs.makeDirectories p).1.locate true q = .ok l := by
  cases hps : fs.missing (p.bytes.length + 1) p with
  | error e =>
    simp only [makeDirectories, hps] at hdir
    rw [hnone] at hdir
    cases hdir
  | ok ps =>
    simp only [makeDirectories, hps] at hdir ⊢
    have hmem := mem_missing hps
    have hproper : ∀ q ∈ ps.reverse, q.EndsProperly := by
      intro q hq
      obtain rfl | hq := hmem q (List.mem_reverse.1 hq)
      · exact hp
      · exact hq.endsProperly
    obtain ⟨q, hq, hlocate⟩ := makeEach_made hwf hproper hnone hdir
    exact ⟨q, hmem q (List.mem_reverse.1 hq), hlocate⟩

theorem isDirectory_of_grows (h : Grows pages fs fs') {p : Path} (hp : fs.isDirectory p = true) :
    fs'.isDirectory p = true := by
  obtain ⟨l, hl, hdir⟩ := isDirectory_iff.1 hp
  exact isDirectory_iff.2 ⟨l, locate_of_grows h hl, (h.change l).directory hdir⟩

theorem makeEach_concat {ps : List Path} {p : Path} (h : fs.makeEach (ps ++ [p]) = (fs', .ok ())) :
    ∃ fs₁, fs₁.makeDirectory p = .ok fs' ∨ fs₁.isDirectory p = true ∧ fs' = fs₁ := by
  induction ps generalizing fs with
  | nil =>
    rw [List.nil_append, makeEach] at h
    refine ⟨fs, ?_⟩
    split at h
    · next fs₁ hm =>
      cases h
      exact .inl hm
    · split at h
      · next hdir =>
        cases h
        exact .inr ⟨hdir, rfl⟩
      · cases h
  | cons q ps ih =>
    rw [List.cons_append, makeEach] at h
    split at h
    · exact ih h
    · split at h
      · exact ih h
      · cases h

theorem isDirectory_of_makeDirectories {p : Path} (hp : p.EndsProperly)
    (h : fs.makeDirectories p = (fs', .ok ())) : p.bytes = [] ∨ fs'.isDirectory p = true := by
  rw [makeDirectories] at h
  split at h
  · cases h
  next ps hps =>
  have hends : (p.bytes = [] ∨ fs.isDirectory p = true ∧ ps = []) ∨ ∃ rest, ps = p :: rest := by
    rw [missing] at hps
    split at hps
    · next hnil => exact .inl (.inl hnil)
    split at hps
    · cases hps
      exact .inr ⟨[], rfl⟩
    · split at hps
      · cases hps
        exact .inr ⟨[], rfl⟩
      · split at hps
        · cases hps
        · cases hps
          exact .inr ⟨_, rfl⟩
    · split at hps
      · next hdir =>
        cases hps
        exact .inl (.inr ⟨hdir, rfl⟩)
      · cases hps
  -- the path itself is made last, after the ancestors that are missing
  obtain (hnil | ⟨hdir, rfl⟩) | ⟨rest, rfl⟩ := hends
  · exact .inl hnil
  · cases h
    exact .inr hdir
  · rw [List.reverse_cons] at h
    obtain ⟨fs₁, hm | ⟨hdir, rfl⟩⟩ := makeEach_concat h
    · obtain ⟨l, hnone, rfl, hlocate⟩ := makeDirectory_ok hp hm
      exact .inr (isDirectory_iff.2 ⟨l, hlocate, by rw [get?_put_directory hnone, if_pos rfl]⟩)
    · exact .inr hdir

theorem makeDirectories_of_isDirectory {p : Path} (hp : p.EndsProperly)
    (h : p.bytes = [] ∨ fs.isDirectory p = true) : fs.makeDirectories p = (fs, .ok ()) := by
  rw [makeDirectories, missing]
  by_cases hnil : p.bytes = []
  · rw [if_pos hnil]
    rfl
  · have hdir := h.resolve_left hnil
    obtain ⟨l, hl, hentry⟩ := isDirectory_iff.1 hdir
    have hstands : fs.makeDirectory p = .error .alreadyExists := by
      rw [makeDirectory, withoutFinalSlashes_eq hp]
      rw [locate] at hl ⊢
      split at hl
      · cases hl
      · obtain ⟨k, d, hk, hd⟩ := follow_short_of_some hl hentry
        simp only [hk, hd]
    rw [if_neg hnil, hstands]
    dsimp only
    rw [if_pos hdir]
    rfl

/-! ### The directories for a file -/

/-- Makes the directories that a file needs. -/
def prepare (fs : FileSystem) (p : Path) : FileSystem × Except IoError Unit :=
  match p.parent? with
  | some parent => fs.makeDirectories parent
  | none => (fs, .ok ())

theorem prepare_grows (hwf : fs.WellFormed) (p : Path) :
    (fs.prepare p).1.WellFormed ∧ Grows pages fs (fs.prepare p).1 := by
  rw [prepare]
  split
  · exact makeDirectories_grows hwf _
  · exact ⟨hwf, Grows.refl _ fs⟩

theorem prepare_ancestor (hwf : fs.WellFormed) {p : Path} {l : Location} (hnone : fs.get? l = none)
    (hdir : (fs.prepare p).1.get? l = some .directory) :
    ∃ q, q.IsAncestor p ∧ (fs.prepare p).1.locate true q = .ok l := by
  rw [prepare] at hdir ⊢
  cases hparent : p.parent? with
  | none =>
    rw [hparent, hnone] at hdir
    cases hdir
  | some parent =>
    rw [hparent] at hdir
    obtain ⟨q, hq, hlocate⟩ := makeDirectories_ancestor hwf (endsProperly_parent hparent) hnone hdir
    refine ⟨q, ?_, hlocate⟩
    obtain rfl | hq := hq
    · exact .parent hparent
    · exact hq.of_parent hparent

/-- Later the directories that have been made are all there. -/
theorem prepare_again {p : Path} {fs₁ : FileSystem} (h : fs.prepare p = (fs₁, .ok ()))
    (hgrows : Grows pages fs₁ fs') : fs'.prepare p = (fs', .ok ()) := by
  rw [prepare] at h ⊢
  split
  · next parent hparent =>
    rw [hparent] at h
    have hproper := endsProperly_parent hparent
    refine makeDirectories_of_isDirectory hproper ?_
    exact (isDirectory_of_makeDirectories hproper h).imp_right (isDirectory_of_grows hgrows)
  · rfl

end FileSystem
end Folio

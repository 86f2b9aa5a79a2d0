import Folio.Proofs.FileSystem.Resolution

/-!
# Folio.Proofs.FileSystem.Access

What reading and writing do.

* `wrote_of_write`: a write puts its file where the path leads to, and this is no link and no directory.
* `write_same`: a write of the bytes that a file holds already changes nothing.
* `makeDirectories_grows`: the making of directories lets the table grow.
* `read_of_grows`: a file that is no page reads as before.
-/

namespace Folio
namespace FileSystem

variable {pages : Location → Prop} {fs fs' : FileSystem}

theorem settled_start (h : fs.WellFormed) (p : Path) : fs.Settled (if p.isAbsolute then [] else fs.current) := by
  split
  · exact settled_root fs
  · exact .inl h.current

theorem locate_of_grows (h : Grows pages fs fs') {through : Bool} {p : Path} {l : Location}
    (hl : fs.locate through p = .ok l) : fs'.locate through p = .ok l := by
  rw [locate] at hl ⊢
  split at hl
  · cases hl
  · rw [h.current]
    exact follow_of_grows h hl

theorem not_link_of_locate (h : fs.WellFormed) {p : Path} {l : Location} (hl : fs.locate true p = .ok l) :
    fs.get? l = none ∨ fs.Settled l := by
  rw [locate] at hl
  split at hl
  · cases hl
  · exact not_link_of_follow h (settled_start h p) hl

theorem isPlaced_of_locate (h : fs.WellFormed) {through : Bool} {p : Path} {l : Location}
    (hl : fs.locate through p = .ok l) (hnone : fs.get? l = none) : fs.isPlaced l = true := by
  rw [locate] at hl
  split at hl
  · cases hl
  · exact isPlaced_of_follow h (settled_start h p) (fun _ hp => Path.not_mem_of_mem_split hp) hl hnone

/-! ### Reading -/

theorem read_eq_of_locate {p : Path} {l : Location} {bytes : List UInt8} (hl : fs.locate true p = .ok l)
    (hfile : fs.get? l = some (.file bytes)) : fs.read p = .ok bytes := by
  simp only [read, locateExisting, hl, hfile]

theorem locate_of_read {p : Path} {bytes : List UInt8} (h : fs.read p = .ok bytes) :
    ∃ l, fs.locate true p = .ok l ∧ fs.get? l = some (.file bytes) := by
  rw [read] at h
  split at h
  · cases h
  · next l bytes' hl =>
    cases h
    rw [locateExisting] at hl
    split at hl
    · cases hl
    · next k hk =>
      split at hl
      · cases hl
      · next hfile =>
        cases hl
        exact ⟨_, hk, hfile⟩
  · cases h

theorem read_of_grows (h : Grows pages fs fs') {p : Path} {l : Location} {bytes : List UInt8}
    (hl : fs.locate true p = .ok l) (hpage : ¬ pages l) (hfile : fs.get? l = some (.file bytes)) :
    fs'.read p = .ok bytes :=
  read_eq_of_locate (locate_of_grows h hl) (((h.change l).file_iff hpage).2 hfile)

theorem isDirectory_iff {p : Path} :
    fs.isDirectory p = true ↔ ∃ l, fs.locate true p = .ok l ∧ fs.get? l = some .directory := by
  constructor
  · intro h
    rw [isDirectory, locateExisting] at h
    cases hl : fs.locate true p with
    | error e =>
      rw [hl] at h
      cases h
    | ok l =>
      rw [hl] at h
      dsimp only at h
      refine ⟨l, rfl, ?_⟩
      cases he : fs.get? l with
      | none =>
        rw [he] at h
        cases h
      | some e =>
        rw [he] at h
        cases e with
        | directory => rfl
        | file bytes => cases h
        | link target => cases h
  · rintro ⟨l, hl, hdir⟩
    simp only [isDirectory, locateExisting, hl, hdir]

/-! ### Writing -/

/-- What a write does, where the path leads to `l`. -/
structure Wrote (fs fs' : FileSystem) (p : Path) (bytes : List UInt8) (l : Location) : Prop where
  leads : fs.locate true p = .ok l
  free : fs.Writable l
  holds : fs'.get? l = some (.file bytes)
  frame : ∀ k, k ≠ l → fs'.get? k = fs.get? k
  wellFormed : fs'.WellFormed
  grows : Grows (· = l) fs fs'

theorem writeLocation_eq (h : fs.WellFormed) {p : Path} {l : Location} (hw : fs.writeLocation p = .ok l) :
    fs.locate true p = .ok l ∧ fs.Writable l ∧ fs.isPlaced l = true := by
  rw [writeLocation] at hw
  split at hw
  · cases hw
  split at hw
  · cases hw
  split at hw
  · cases hw
  next k hk =>
  split at hw
  · cases hw
  next hdir =>
  cases hw
  refine ⟨hk, ?_⟩
  obtain hnone | hsettled | ⟨old, hfile⟩ := not_link_of_locate h hk
  · exact ⟨.inl hnone, isPlaced_of_locate h hk hnone⟩
  · exact absurd hsettled hdir
  · have hroot : l ≠ [] := by
      rintro rfl
      rw [get?_root] at hfile
      cases hfile
    exact ⟨.inr ⟨old, hfile⟩, h.isPlaced hroot hfile⟩

theorem wrote_of_write (h : fs.WellFormed) {p : Path} {bytes : List UInt8} (hw : fs.write p bytes = .ok fs') :
    ∃ l, Wrote fs fs' p bytes l := by
  rw [write] at hw
  split at hw
  · cases hw
  next l hloc =>
  cases hw
  obtain ⟨hl, hfree, hplaced⟩ := writeLocation_eq h hloc
  have hroot := isPlaced_ne_root hplaced
  have hgrows : Grows (· = l) fs (fs.put l (.file bytes)) := grows_put_file hroot hfree (by rfl) bytes
  refine ⟨l, hl, hfree, ?_, ?_, h.put hplaced hfree _, hgrows⟩
  · rw [get?_put fs hroot, if_pos rfl]
  · intro k hk
    rw [get?_put fs hroot, if_neg hk]

theorem putEntry_same {l : Location} {e : Entry} {es : List (Location × Entry)} (h : es.lookup l = some e) :
    putEntry l e es = es := by
  induction es with
  | nil => cases h
  | cons p rest ih =>
    obtain ⟨k, d⟩ := p
    rw [putEntry]
    by_cases hk : k = l
    · subst hk
      rw [List.lookup_cons_self] at h
      cases h
      rw [if_pos rfl]
    · rw [List.lookup_cons, beq_eq_false_iff_ne.2 (Ne.symm hk)] at h
      rw [if_neg hk, ih h]

/-- A path that ends with a slash leads to a directory. -/
theorem directory_of_finalSlash {through : Bool} {links : Nat} {at_ l : Location} {parts : List Name}
    (hend : parts.getLast? = some []) (h : fs.follow through links at_ parts = .ok l) :
    fs.get? l = some .directory := by
  -- The empty part at the end stays the last one, also behind the parts of a link.
  have hcases : ∀ (part : Name) (rest : List Name), (part :: rest).getLast? = some [] →
      part = [] ∧ rest = [] ∨ rest.getLast? = some [] := by
    intro part rest hlast
    rw [List.getLast?_cons, Option.some.injEq] at hlast
    cases hrest : rest.getLast? with
    | none => exact .inl ⟨by simpa [hrest] using hlast, List.getLast?_eq_none_iff.1 hrest⟩
    | some last => exact .inr (by simpa [hrest] using hlast)
  fun_induction follow fs through links at_ parts with
  | case1 => cases hend
  | case2 links at_ part rest hdir hidle ih =>
    obtain ⟨-, rfl⟩ | hrest := hcases part rest hend
    · rw [follow_nil] at h
      cases h
      exact hdir
    · exact ih hrest h
  | case3 links at_ rest hdir hidle ih =>
    obtain ⟨hnil, -⟩ | hrest := hcases _ rest hend
    · cases hnil
    · exact ih hrest h
  | case5 links at_ part hdir hidle =>
    obtain ⟨hnil, -⟩ | hrest := hcases part [] hend
    · exact absurd (.inl hnil) hidle
    · cases hrest
  | case7 links at_ part rest hdir hidle hup hshort target hlink hlast =>
    obtain ⟨hnil, -⟩ | hrest := hcases part rest hend
    · exact absurd (.inl hnil) hidle
    · rw [hlast.1] at hrest
      cases hrest
  | case9 at_ part rest hdir hidle hup hshort target hlink hlast links ih =>
    obtain ⟨hnil, -⟩ | hrest := hcases part rest hend
    · exact absurd (.inl hnil) hidle
    · refine ih ?_ h
      rw [List.getLast?_append, hrest, Option.some_or]
  | case10 links at_ part rest hdir hidle hup hshort e hlink he ih =>
    obtain ⟨hnil, -⟩ | hrest := hcases part rest hend
    · exact absurd (.inl hnil) hidle
    · exact ih hrest h
  | _ => cases h

/-- A path that leads to a file has no slash behind its last name. -/
theorem endsInSlash_of_file {links : Nat} {at_ l : Location} {parts : List Name} {bytes : List UInt8}
    (h : fs.follow true links at_ parts = .ok l) (hfile : fs.get? l = some (.file bytes)) :
    fs.endsInSlash links at_ parts = false := by
  fun_induction endsInSlash fs links at_ parts with
  | case2 links at_ part rest hdir hidle ih => exact ih ((follow_idle hdir hidle).symm.trans h)
  | case3 links at_ rest hdir hidle ih => exact ih ((follow_up hdir).symm.trans h)
  | case4 links at_ part rest hdir hidle hup hslash =>
    have hend : (part :: rest).getLast? = some [] := by
      rw [List.getLast?_cons_of_ne_nil hslash.1, List.getLast?_eq_some_getLast hslash.1]
      exact congrArg some (hslash.2 _ (List.getLast_mem hslash.1))
    cases hfile.symm.trans (directory_of_finalSlash hend h)
  | case8 at_ part rest hdir hidle hup hslash hshort target hlink links ih =>
    have hlast : ¬ (rest = [] ∧ true = false) := fun hlast => Bool.noConfusion hlast.2
    rw [follow_link hdir ⟨hidle, hup, hshort⟩ hlink, if_neg hlast] at h
    exact ih h
  | case9 links at_ part rest hdir hidle hup hslash hshort e hlink he ih =>
    rw [follow_entry hdir ⟨hidle, hup, hshort⟩ he hlink] at h
    exact ih h
  | _ => rfl

theorem write_of_file {p : Path} {l : Location} {old : List UInt8} (hl : fs.locate true p = .ok l)
    (hfile : fs.get? l = some (.file old)) (bytes : List UInt8) :
    fs.write p bytes = .ok (fs.put l (.file bytes)) := by
  have hfollow := hl
  rw [locate] at hfollow
  split at hfollow
  · cases hfollow
  next hcheck =>
  have hslash : fs.namesDirectory p = false := endsInSlash_of_file hfollow hfile
  simp [write, writeLocation, hcheck, hslash, hl, hfile]

theorem write_same {p : Path} {l : Location} {bytes : List UInt8} (hl : fs.locate true p = .ok l)
    (hfile : fs.get? l = some (.file bytes)) : fs.write p bytes = .ok fs := by
  have hlookup : fs.entries.lookup l = some (.file bytes) := by
    rw [get?] at hfile
    split at hfile
    · cases hfile
    · exact hfile
  rw [write_of_file hl hfile, put, putEntry_same hlookup]

/-! ### Making directories -/

theorem makeDirectory_grows (h : fs.WellFormed) {p : Path} (hm : fs.makeDirectory p = .ok fs') :
    fs'.WellFormed ∧ Grows pages fs fs' := by
  rw [makeDirectory] at hm
  split at hm
  · cases hm
  · next l hl =>
    split at hm
    · cases hm
    · next hnone =>
      cases hm
      exact ⟨h.put (isPlaced_of_locate h hl hnone) (.inl hnone) _, grows_put_directory _ hnone⟩

theorem makeEach_grows (h : fs.WellFormed) (ps : List Path) :
    (fs.makeEach ps).1.WellFormed ∧ Grows pages fs (fs.makeEach ps).1 := by
  induction ps generalizing fs with
  | nil => exact ⟨h, Grows.refl _ fs⟩
  | cons p ps ih =>
    rw [makeEach]
    split
    · next fs' hm =>
      obtain ⟨hwf, hgrows⟩ := makeDirectory_grows h hm
      obtain ⟨hwf', hgrows'⟩ := ih hwf
      exact ⟨hwf', hgrows.trans hgrows'⟩
    · split
      · exact ih h
      · exact ⟨h, Grows.refl _ fs⟩

theorem makeDirectories_grows (h : fs.WellFormed) (p : Path) :
    (fs.makeDirectories p).1.WellFormed ∧ Grows pages fs (fs.makeDirectories p).1 := by
  rw [makeDirectories]
  split
  · exact ⟨h, Grows.refl _ fs⟩
  · exact makeEach_grows h _

end FileSystem
end Folio

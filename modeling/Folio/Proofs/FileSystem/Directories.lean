import Mathlib.Data.List.Nodup
import Folio.Proofs.FileSystem.Descent

/-!
# Folio.Proofs.FileSystem.Directories

The directories that a run makes, without its pages.

* `withDirectories`: a table with the directories of another one.
* `grows_withDirectories`, `withDirectories_grows`: it stands between the table of the start and a later one.
* `locate_of_directories`: paths lead where they lead with the pages.
-/

namespace Folio
namespace FileSystem

/-- Whether an entry is a directory at a place where nothing stands yet. -/
def isMade (fs : FileSystem) (p : Location × Entry) : Bool :=
  p.2 == .directory && (fs.get? p.1).isNone

/-- The table with the directories of another one. -/
def withDirectories (fs fs' : FileSystem) : FileSystem :=
  { fs with entries := fs.entries ++ fs'.entries.filter (isMade fs) }

variable {pages : Location → Prop} {fs fs' : FileSystem}

theorem isMade_iff {l : Location} {e : Entry} : isMade fs (l, e) = true ↔ e = .directory ∧ fs.get? l = none := by
  simp [isMade]

theorem get?_withDirectories_of_some {l : Location} {e : Entry} (he : fs.get? l = some e) :
    (fs.withDirectories fs').get? l = some e := by
  by_cases hl : l = []
  · rw [hl, get?_root] at he ⊢
    exact he
  · rw [get?, if_neg hl] at he ⊢
    rw [withDirectories, List.lookup_append, he, Option.some_or]

theorem get?_withDirectories_of_none (h' : fs'.WellFormed) {l : Location} (hl : fs.get? l = none) :
    (fs.withDirectories fs').get? l = if fs'.get? l = some .directory then some .directory else none := by
  have hroot : l ≠ [] := by
    rintro rfl
    rw [get?_root] at hl
    cases hl
  have hlookup : (fs.withDirectories fs').get? l = (fs'.entries.filter (isMade fs)).lookup l := by
    rw [get?, if_neg hroot] at hl ⊢
    rw [withDirectories, List.lookup_append, hl, Option.none_or]
  rw [hlookup]
  split
  · next hdir =>
    refine lookup_of_mem ((List.filter_sublist.map Prod.fst).nodup h'.nodup) ?_
    exact List.mem_filter.2 ⟨mem_of_get? hroot hdir, isMade_iff.2 ⟨rfl, hl⟩⟩
  · next hnot =>
    cases he : (fs'.entries.filter (isMade fs)).lookup l with
    | none => rfl
    | some e =>
      obtain ⟨hmem, hmade⟩ := List.mem_filter.1 (mem_of_lookup he)
      obtain ⟨rfl, -⟩ := isMade_iff.1 hmade
      exact absurd (h'.get?_of_mem hmem) hnot

theorem grows_withDirectories (h' : fs'.WellFormed) : Grows pages fs (fs.withDirectories fs') := by
  refine ⟨rfl, fun l => ?_⟩
  cases he : fs.get? l with
  | some e =>
    rw [get?_withDirectories_of_some he]
    exact .same
  | none =>
    rw [get?_withDirectories_of_none h' he]
    split
    · exact .made
    · exact .same

theorem withDirectories_grows (h' : fs'.WellFormed) (h : Grows pages fs fs') :
    Grows pages (fs.withDirectories fs') fs' := by
  refine ⟨h.current, fun l => ?_⟩
  have hchange := h.change l
  cases he : fs.get? l with
  | some e =>
    rw [get?_withDirectories_of_some he, ← he]
    exact hchange
  | none =>
    rw [get?_withDirectories_of_none h' he]
    split
    · next hdir =>
      rw [hdir]
      exact .same
    · rw [← he]
      exact hchange

theorem directory_withDirectories (h' : fs'.WellFormed) (h : Grows pages fs fs') {l : Location}
    (hdir : fs'.get? l = some .directory) : (fs.withDirectories fs').get? l = some .directory := by
  obtain hold | hnone := (h.change l).of_directory hdir
  · exact get?_withDirectories_of_some hold
  · rw [get?_withDirectories_of_none h' hnone, if_pos hdir]

theorem wellFormed_withDirectories (hwf : fs.WellFormed) (h' : fs'.WellFormed) (h : Grows pages fs fs') :
    (fs.withDirectories fs').WellFormed := by
  refine ⟨?_, ?_, get?_withDirectories_of_some hwf.current⟩
  · rw [withDirectories, List.map_append, List.nodup_append]
    refine ⟨hwf.nodup, (List.filter_sublist.map Prod.fst).nodup h'.nodup, ?_⟩
    rintro l hl k hk rfl
    obtain ⟨⟨l, e⟩, hmem, rfl⟩ := List.mem_map.1 hl
    obtain ⟨⟨k, d⟩, hmem', heq⟩ := List.mem_map.1 hk
    cases heq
    obtain ⟨-, hnone⟩ := isMade_iff.1 (List.mem_filter.1 hmem').2
    rw [hwf.get?_of_mem hmem] at hnone
    cases hnone
  · intro p hp
    have hplaced : fs.isPlaced p.1 = true ∨ fs'.isPlaced p.1 = true :=
      (List.mem_append.1 hp).imp (hwf.placed p) fun hmem => h'.placed p (List.mem_filter.1 hmem).1
    obtain hnil | ⟨l, name, hl⟩ := p.1.eq_nil_or_concat
    · rw [hnil] at hplaced
      obtain hplaced | hplaced := hplaced <;> cases hplaced
    · rw [hl, List.concat_eq_append] at hplaced ⊢
      simp only [isPlaced_concat] at hplaced ⊢
      obtain ⟨hname, hdir⟩ | ⟨hname, hdir⟩ := hplaced
      · exact ⟨hname, get?_withDirectories_of_some hdir⟩
      · exact ⟨hname, directory_withDirectories h' h hdir⟩

/-! ### Paths -/

/-- A path leads somewhere without the pages too, if no directory is missing. -/
theorem follow_of_directories (h : Grows pages fs fs')
    (hdirs : ∀ l, fs'.get? l = some .directory → fs.get? l = some .directory) {through : Bool} {links : Nat}
    {at_ k : Location} {parts : List Name} (hk : fs'.follow through links at_ parts = .ok k) :
    fs.follow through links at_ parts = .ok k := by
  fun_induction follow fs' through links at_ parts with
  | case1 => rw [follow_nil, hk]
  | case2 links at_ part rest hat hidle ih =>
    rw [follow_idle (hdirs _ hat) hidle]
    exact ih hk
  | case3 links at_ rest hat hidle ih =>
    rw [follow_up (hdirs _ hat)]
    exact ih hk
  | case5 links at_ part hat hidle hup hshort hnone =>
    rw [follow_missing (hdirs _ hat) ⟨hidle, hup, hshort⟩ ((h.change _).of_none hnone), if_pos rfl, hk]
  | case7 links at_ part rest hat hidle hup hshort target hlink hlast =>
    rw [follow_link (hdirs _ hat) ⟨hidle, hup, hshort⟩ ((h.change _).of_link hlink), if_pos hlast, hk]
  | case9 at_ part rest hat hidle hup hshort target hlink hlast links ih =>
    rw [follow_link (hdirs _ hat) ⟨hidle, hup, hshort⟩ ((h.change _).of_link hlink), if_neg hlast]
    exact ih hk
  | case10 links at_ part rest hat hidle hup hshort e hlink he ih =>
    cases hold : fs.get? (at_ ++ [part]) with
    | some d =>
      have hdlink : ∀ target, d ≠ .link target := by
        rintro target rfl
        rw [(h.change _).link hold] at he
        cases he
        exact hlink target rfl
      rw [follow_entry (hdirs _ hat) ⟨hidle, hup, hshort⟩ hold hdlink]
      exact ih hk
    | none =>
      -- a page that is not there yet: the way ends here
      have hrest : rest = [] := by
        by_contra hne
        rw [hdirs _ (directory_of_follow hne hk)] at hold
        cases hold
      rw [hrest, follow_nil] at hk
      rw [hrest, follow_missing (hdirs _ hat) ⟨hidle, hup, hshort⟩ hold, if_pos rfl, hk]
  | _ => cases hk

theorem locate_of_directories (h' : fs'.WellFormed) (h : Grows pages fs fs') {p : Path} {l : Location}
    (hl : fs'.locate true p = .ok l) : (fs.withDirectories fs').locate true p = .ok l := by
  rw [locate] at hl ⊢
  split at hl
  · cases hl
  · rw [h.current] at hl
    exact follow_of_directories (withDirectories_grows h' h) (fun _ => directory_withDirectories h' h) hl

end FileSystem
end Folio

import Folio.Proofs.FileSystem.WellFormed

/-!
# Folio.Proofs.FileSystem.Growth

How a run changes the table.

* `Change`: what may become of one entry. New directories may stand anywhere, new or other files at pages only.
* `Grows`: every entry has changed so, and relative paths start from where they did.
* `Grows.trans`, `grows_put_directory`, `grows_put_file`: runs are made of such steps.
-/

namespace Folio
namespace FileSystem

/-- What may become of an entry, where `isPage` tells whether a page may stand there. -/
inductive Change (isPage : Prop) : Option Entry → Option Entry → Prop where
  | same {e : Option Entry} : Change isPage e e
  | made : Change isPage none (some .directory)
  | written {bytes : List UInt8} : isPage → Change isPage none (some (.file bytes))
  | rewritten {old bytes : List UInt8} : isPage → Change isPage (some (.file old)) (some (.file bytes))

namespace Change

variable {isPage : Prop} {e e' e'' : Option Entry}

theorem trans (h : Change isPage e e') (h' : Change isPage e' e'') : Change isPage e e'' := by
  cases h with
  | same => exact h'
  | made => cases h'; exact .made
  | written hpage =>
    cases h' with
    | same => exact .written hpage
    | rewritten _ => exact .written hpage
  | rewritten hpage =>
    cases h' with
    | same => exact .rewritten hpage
    | rewritten _ => exact .rewritten hpage

theorem mono {isPage' : Prop} (h : Change isPage e e') (himp : isPage → isPage') : Change isPage' e e' := by
  cases h with
  | same => exact .same
  | made => exact .made
  | written hpage => exact .written (himp hpage)
  | rewritten hpage => exact .rewritten (himp hpage)

theorem directory (h : Change isPage e e') (he : e = some .directory) : e' = some .directory := by
  subst he
  cases h
  rfl

theorem link {target : Path} (h : Change isPage e e') (he : e = some (.link target)) :
    e' = some (.link target) := by
  subst he
  cases h
  rfl

theorem of_link {target : Path} (h : Change isPage e e') (he : e' = some (.link target)) :
    e = some (.link target) := by
  subst he
  cases h
  rfl

theorem of_none (h : Change isPage e e') (he : e' = none) : e = none := by
  subst he
  cases h
  rfl

theorem file {bytes : List UInt8} (h : Change isPage e e') (he : e = some (.file bytes)) :
    ∃ bytes', e' = some (.file bytes') := by
  subst he
  cases h with
  | same => exact ⟨bytes, rfl⟩
  | rewritten _ => exact ⟨_, rfl⟩

theorem not_link {d : Entry} (h : Change isPage e e') (he : e = some d) (hlink : ∀ target, d ≠ .link target) :
    ∃ d', e' = some d' ∧ ∀ target, d' ≠ .link target := by
  subst he
  cases h with
  | same => exact ⟨d, rfl, hlink⟩
  | rewritten _ => exact ⟨_, rfl, fun _ heq => by cases heq⟩

theorem of_directory (h : Change isPage e e') (he : e' = some .directory) : e = some .directory ∨ e = none := by
  subst he
  cases h with
  | same => exact .inl rfl
  | made => exact .inr rfl

/-- Away from pages only directories are made. -/
theorem same_or_made (h : Change isPage e e') : e' = e ∨ isPage ∨ e = none ∧ e' = some .directory := by
  cases h with
  | same => exact .inl rfl
  | made => exact .inr (.inr ⟨rfl, rfl⟩)
  | written hpage => exact .inr (.inl hpage)
  | rewritten hpage => exact .inr (.inl hpage)

/-- A file that is no page has been there and stays as it is. -/
theorem file_iff {bytes : List UInt8} (h : Change isPage e e') (hpage : ¬ isPage) :
    e' = some (.file bytes) ↔ e = some (.file bytes) := by
  cases h with
  | same => rfl
  | made => simp
  | written hmem => exact absurd hmem hpage
  | rewritten hmem => exact absurd hmem hpage

end Change

/-- The table after directories have been made and files have been written at some of the pages. -/
structure Grows (pages : Location → Prop) (fs fs' : FileSystem) : Prop where
  current : fs'.current = fs.current
  change : ∀ l, Change (pages l) (fs.get? l) (fs'.get? l)

namespace Grows

variable {pages : Location → Prop} {fs fs' fs'' : FileSystem}

theorem refl (pages : Location → Prop) (fs : FileSystem) : Grows pages fs fs :=
  ⟨rfl, fun _ => .same⟩

theorem trans (h : Grows pages fs fs') (h' : Grows pages fs' fs'') : Grows pages fs fs'' :=
  ⟨h'.current.trans h.current, fun l => (h.change l).trans (h'.change l)⟩

theorem mono {pages' : Location → Prop} (h : Grows pages fs fs') (hsub : ∀ l, pages l → pages' l) :
    Grows pages' fs fs' :=
  ⟨h.current, fun l => (h.change l).mono (hsub l)⟩

end Grows

theorem grows_put_directory (pages : Location → Prop) {fs : FileSystem} {l : Location} (hl : fs.get? l = none) :
    Grows pages fs (fs.put l .directory) := by
  have hroot : l ≠ [] := by
    rintro rfl
    rw [get?_root] at hl
    cases hl
  refine ⟨rfl, fun k => ?_⟩
  rw [get?_put fs hroot]
  split
  · next heq =>
    rw [heq, hl]
    exact .made
  · exact .same

theorem grows_put_file {pages : Location → Prop} {fs : FileSystem} {l : Location} (hroot : l ≠ [])
    (hfree : fs.Writable l) (hpage : pages l) (bytes : List UInt8) : Grows pages fs (fs.put l (.file bytes)) := by
  refine ⟨rfl, fun k => ?_⟩
  rw [get?_put fs hroot]
  split
  · next heq =>
    subst heq
    obtain hnone | ⟨old, hold⟩ := hfree
    · rw [hnone]
      exact .written hpage
    · rw [hold]
      exact .rewritten hpage
  · exact .same

end FileSystem
end Folio

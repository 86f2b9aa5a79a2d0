import Folio.Proofs.FileSystem.Access

/-!
# Folio.Proofs.FileSystem.Canonical

Canonical paths.

* `follow_of_canonicalFrom`: a canonical path leads where the path itself leads.
* `canonical?_of_short`: where every entry has a short path from the root, every path to an entry has a canonical one.
* `overlooked_of_sameFile`: two paths to one file are told apart only when they are spelled differently and one of them
  has no canonical path.
-/

namespace Folio
namespace FileSystem

variable {fs : FileSystem}

/-- Every entry has a path from the root that can be looked up, with a slash at its end too. -/
def ShortPaths (fs : FileSystem) : Prop :=
  ∀ p ∈ fs.entries, pathLength p.1 + 1 < maxPathLength

theorem ShortPaths.of_get? (h : fs.ShortPaths) {l : Location} {e : Entry} (he : fs.get? l = some e) :
    pathLength l + 1 < maxPathLength := by
  by_cases hroot : l = []
  · subst hroot
    decide
  · exact h _ (mem_of_get? hroot he)

section Steps

variable {links : Nat} {at_ : Location} {part : Name} {rest : List Name}

theorem canonicalFrom_nil : fs.canonicalFrom links at_ [] = some at_ := by
  rw [canonicalFrom]

theorem canonicalFrom_idle (hat : fs.get? at_ = some .directory) (h : part = [] ∨ part = Path.dotName) :
    fs.canonicalFrom links at_ (part :: rest) = fs.canonicalFrom links at_ rest := by
  rw [canonicalFrom.eq_def]
  simp only [hat, if_pos h]

theorem canonicalFrom_up (hat : fs.get? at_ = some .directory) :
    fs.canonicalFrom links at_ (Path.dotDotName :: rest) = fs.canonicalFrom links at_.dropLast rest := by
  have hidle : ¬ (Path.dotDotName = [] ∨ Path.dotDotName = Path.dotName) := by decide
  rw [canonicalFrom.eq_def]
  simp only [hat, if_neg hidle, if_pos]

/-- The path from the root to an entry is looked up as a whole, although a shorter one led there. -/
theorem canonicalFrom_long (hat : fs.get? at_ = some .directory) (h : NamesEntry part)
    (hlong : maxPathLength ≤ pathLength (at_ ++ [part])) : fs.canonicalFrom links at_ (part :: rest) = none := by
  rw [canonicalFrom.eq_def]
  simp only [hat, if_neg h.notIdle, if_neg h.notUp, if_pos (Or.inr hlong)]

theorem canonicalFrom_link (hat : fs.get? at_ = some .directory) (h : NamesEntry part)
    (hshort : pathLength (at_ ++ [part]) < maxPathLength) {target : Path}
    (hlink : fs.get? (at_ ++ [part]) = some (.link target)) :
    fs.canonicalFrom (links + 1) at_ (part :: rest) =
      fs.canonicalFrom links (linkStart at_ target) (Path.split target.bytes ++ rest) := by
  have hfits : ¬ (maxNameLength < part.length ∨ maxPathLength ≤ pathLength (at_ ++ [part])) :=
    not_or.2 ⟨h.short, Nat.not_le.2 hshort⟩
  rw [canonicalFrom.eq_def]
  simp only [hat, if_neg h.notIdle, if_neg h.notUp, if_neg hfits, hlink]

theorem canonicalFrom_entry (hat : fs.get? at_ = some .directory) (h : NamesEntry part)
    (hshort : pathLength (at_ ++ [part]) + 1 < maxPathLength) {e : Entry} (he : fs.get? (at_ ++ [part]) = some e)
    (hlink : ∀ target, e ≠ .link target) :
    fs.canonicalFrom links at_ (part :: rest) = fs.canonicalFrom links (at_ ++ [part]) rest := by
  have hfits : ¬ (maxNameLength < part.length ∨ maxPathLength ≤ pathLength (at_ ++ [part])) :=
    not_or.2 ⟨h.short, Nat.not_le.2 (Nat.lt_of_succ_lt hshort)⟩
  have hslash : ¬ (demandsDirectory rest = true ∧ maxPathLength ≤ pathLength (at_ ++ [part]) + 1) :=
    fun hlong => Nat.not_le.2 hshort hlong.2
  rw [canonicalFrom.eq_def]
  simp only [hat, if_neg h.notIdle, if_neg h.notUp, if_neg hfits, he, if_neg hslash]

end Steps

theorem follow_of_canonicalFrom {links : Nat} {at_ l : Location} {parts : List Name}
    (h : fs.canonicalFrom links at_ parts = some l) : fs.follow true links at_ parts = .ok l := by
  fun_induction canonicalFrom fs links at_ parts with
  | case1 =>
    cases h
    exact follow_nil
  | case2 links at_ part rest hdir hidle ih => exact (follow_idle hdir hidle).trans (ih h)
  | case3 links at_ rest hdir hidle ih => exact (follow_up hdir).trans (ih h)
  | case7 at_ part rest hdir hidle hup hlength target hlink links ih =>
    rw [not_or] at hlength
    have hlast : ¬ (rest = [] ∧ true = false) := fun hlast => Bool.noConfusion hlast.2
    rw [follow_link hdir ⟨hidle, hup, hlength.1⟩ hlink, if_neg hlast]
    exact ih h
  | case9 links at_ part rest hdir hidle hup hlength e hlink he hdemand ih =>
    rw [not_or] at hlength
    rw [follow_entry hdir ⟨hidle, hup, hlength.1⟩ he hlink]
    exact ih h
  | _ => cases h

theorem canonicalFrom_of_follow (hshort : fs.ShortPaths) {links : Nat} {at_ l : Location} {parts : List Name}
    {e : Entry} (he : fs.get? l = some e) (h : fs.follow true links at_ parts = .ok l) :
    fs.canonicalFrom links at_ parts = some l := by
  fun_induction follow fs true links at_ parts with
  | case1 =>
    cases h
    exact canonicalFrom_nil
  | case2 links at_ part rest hdir hidle ih => exact (canonicalFrom_idle hdir hidle).trans (ih h)
  | case3 links at_ rest hdir hidle ih => exact (canonicalFrom_up hdir).trans (ih h)
  | case5 links at_ part hdir hidle hup hlong hnone =>
    cases h
    rw [hnone] at he
    cases he
  | case7 links at_ part rest hdir hidle hup hlong target hlink hlast => cases hlast.2
  | case9 at_ part rest hdir hidle hup hlong target hlink hlast links ih =>
    rw [canonicalFrom_link hdir ⟨hidle, hup, hlong⟩ (Nat.lt_of_succ_lt (hshort.of_get? hlink)) hlink]
    exact ih h
  | case10 links at_ part rest hdir hidle hup hlong d hlink hd ih =>
    rw [canonicalFrom_entry hdir ⟨hidle, hup, hlong⟩ (hshort.of_get? hd) hd hlink]
    exact ih h
  | _ => cases h

/-- The canonical path of a path leads where the path does. -/
theorem canonical?_eq {p : Path} {k l : Location} (hk : fs.canonical? p = some k) (hl : fs.locate true p = .ok l) :
    k = l := by
  rw [canonical?] at hk
  rw [locate] at hl
  split at hk
  · cases hk
  split at hl
  · cases hl
  · rw [follow_of_canonicalFrom hk] at hl
    cases hl
    rfl

theorem canonical?_of_short (hshort : fs.ShortPaths) {p : Path} {l : Location} {e : Entry}
    (hl : fs.locate true p = .ok l) (he : fs.get? l = some e) : fs.canonical? p = some l := by
  rw [locate] at hl
  split at hl
  · cases hl
  next hcheck =>
  have haccepted : ¬ (p.bytes = [] ∨ p.bytes.contains 0 = true) := by
    rintro (hnil | hzero)
    · rw [checkPath, hnil] at hcheck
      cases hcheck
    · rw [checkPath, if_pos hzero] at hcheck
      cases hcheck
  rw [canonical?, if_neg haccepted]
  exact canonicalFrom_of_follow hshort he hl

/-- Two spellings that cannot be compared by canonical paths. -/
structure Overlooked (fs : FileSystem) (p q : Path) : Prop where
  spelled : p.sameComponents q = false
  noCanonical : fs.canonical? p = none ∨ fs.canonical? q = none

/-- Two paths to one file are told apart only where they are overlooked. -/
theorem overlooked_of_sameFile {p q : Path} {l : Location} (hsame : fs.sameFile p q = false)
    (hp : fs.locate true p = .ok l) (hq : fs.locate true q = .ok l) : fs.Overlooked p q := by
  cases hcp : fs.canonical? p with
  | none => exact ⟨by simpa only [sameFile, hcp] using hsame, .inl hcp⟩
  | some k =>
    cases hcq : fs.canonical? q with
    | none => exact ⟨by simpa only [sameFile, hcp, hcq] using hsame, .inr hcq⟩
    | some k' =>
      obtain rfl := canonical?_eq hcp hp
      obtain rfl := canonical?_eq hcq hq
      simp [sameFile, hcp, hcq] at hsame

/-- Nothing is overlooked where all entries have short paths. -/
theorem not_overlooked (hshort : fs.ShortPaths) {p q : Path} {l : Location} {e : Entry} (he : fs.get? l = some e)
    (hp : fs.locate true p = .ok l) (hq : fs.locate true q = .ok l) : ¬ fs.Overlooked p q := by
  rintro ⟨-, hnone | hnone⟩
  · cases hnone.symm.trans (canonical?_of_short hshort hp he)
  · cases hnone.symm.trans (canonical?_of_short hshort hq he)

end FileSystem
end Folio

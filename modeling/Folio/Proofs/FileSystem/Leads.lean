import Folio.Error
import Folio.Proofs.FileSystem.Directories

/-!
# Folio.Proofs.FileSystem.Leads

Where paths lead while pages are written, and which texts depend on that.

* `Leads`: where a path leads, now or when more directories and files are there.
* `Aside`, `Found`: a path that leads to no page, and one that needs none of the directories that are still to be
  made.
* `agrees_of_steady`, `agrees_of_missing`: such a path reads the same before the pages are written.
* `Kept`: a file that is no page and does not come into being; `Kept.agrees_between` says that it stays as it is.
* `LinklessBelow`, `Linkless`: no links below a place, or anywhere.
* `DependsOn`: a text that depends on certain paths only.
-/

namespace Folio
namespace FileSystem

/-- A path leads to a location, now or when more directories and files have been made. -/
def Leads (fs : FileSystem) (p : Path) (l : Location) : Prop :=
  ∃ pages fs', fs'.WellFormed ∧ Grows pages fs fs' ∧ fs'.resolve true p = .ok l

/-- A path that leads to no page. -/
def Aside (fs : FileSystem) (pages : Location → Prop) (p : Path) : Prop :=
  ∀ l, fs.Leads p l → ¬ pages l

/-- A path that needs no directory which is still to be made: what it leads to is found already, or is missing. -/
def Found (fs : FileSystem) (p : Path) : Prop :=
  ∀ l, fs.Leads p l → fs.get? l = none ∨ fs.locate true p = .ok l

/-- No link stands below the place that a path leads to. -/
def LinklessBelow (fs : FileSystem) (p : Path) : Prop :=
  ∀ r, fs.Leads p r → ∀ l, r <+: l → l ≠ r → ∀ target, fs.get? l ≠ some (.link target)

def isLink : Entry → Bool
  | .link _ => true
  | _ => false

/-- No link stands anywhere. -/
def Linkless (fs : FileSystem) : Prop :=
  ∀ l target, fs.get? l ≠ some (.link target)

variable {pages : Location → Prop} {fs fs' : FileSystem}

theorem Linkless.below (h : fs.Linkless) (p : Path) : fs.LinklessBelow p :=
  fun _ _ l _ _ target => h l target

theorem mem_of_link {l : Location} {target : Path} (h : fs.get? l = some (.link target)) :
    (l, .link target) ∈ fs.entries := by
  refine mem_of_get? ?_ h
  rintro rfl
  rw [get?_root] at h
  cases h

theorem linkless_of_entries (h : ∀ p ∈ fs.entries, isLink p.2 = false) : fs.Linkless := by
  intro l target hlink
  cases h _ (mem_of_link hlink)

theorem leads_of_grows (hwf : fs'.WellFormed) (h : Grows pages fs fs') {p : Path} {l : Location}
    (hl : fs'.locate true p = .ok l) : fs.Leads p l :=
  ⟨pages, fs', hwf, h, resolve_of_locate hl⟩

theorem Leads.of_grows (h : Grows pages fs fs') {p : Path} {l : Location} (hl : fs'.Leads p l) : fs.Leads p l := by
  obtain ⟨pages', fs'', hwf, hgrows, hresolve⟩ := hl
  refine ⟨fun k => pages k ∨ pages' k, fs'', hwf, ?_, hresolve⟩
  exact (h.mono fun _ hk => .inl hk).trans (hgrows.mono fun _ hk => .inr hk)

theorem LinklessBelow.of_grows (h : Grows pages fs fs') {p : Path} (hp : fs.LinklessBelow p) : fs'.LinklessBelow p :=
  fun r hr l hpre hne target hlink => hp r (hr.of_grows h) l hpre hne target ((h.change l).of_link hlink)

/-- Where a path leads already, it leads later on. -/
theorem Leads.eq {p : Path} {k l : Location} (h : fs.Leads p k) (hl : fs.locate true p = .ok l) : k = l := by
  obtain ⟨pages, fs', -, hgrows, hk⟩ := h
  have hl' := resolve_of_grows hgrows (resolve_of_locate hl)
  rw [hk] at hl'
  cases hl'
  rfl

/-- The same, seen from the entries of the table. -/
theorem linklessBelow_of_entries {p : Path} {r : Location} (hr : fs.locate true p = .ok r)
    (h : ∀ e ∈ fs.entries, r <+: e.1 → isLink e.2 = false) : fs.LinklessBelow p := by
  intro k hk l hpre _ target hlink
  rw [hk.eq hr] at hpre
  cases h _ (mem_of_link hlink) hpre

theorem locate_error_of_grows (hwf : fs.WellFormed) (h : Grows pages fs fs') {p : Path} {e : IoError}
    (he : fs.locate true p = .error e) : e = .notFound ∨ fs'.locate true p = .error e := by
  rw [locate] at he ⊢
  cases hcheck : checkPath p with
  | error e' =>
    rw [hcheck] at he
    exact .inr he
  | ok _ =>
    rw [hcheck] at he
    dsimp only at he ⊢
    rw [h.current]
    exact follow_error_of_grows hwf h (settled_start hwf p) he

/-- What a path leads to is no page, and was found already if it was there. -/
def Steady (pages : Location → Prop) (fs fs' : FileSystem) (p : Path) : Prop :=
  ∀ l, fs'.locate true p = .ok l → ¬ pages l ∧ (fs.get? l = none ∨ fs.locate true p = .ok l)

theorem read_missing_before (hwf : fs.WellFormed) (h : Grows pages fs fs') {p : Path}
    (hread : fs'.read p = .error .notFound) : fs.read p = .error .notFound := by
  cases hlocate : fs.locate true p with
  | ok l =>
    have hlocate' := locate_of_grows h hlocate
    simp only [read, locateExisting, hlocate'] at hread
    cases hentry : fs'.get? l with
    | none => simp only [read, locateExisting, hlocate, (h.change l).of_none hentry]
    | some d =>
      rw [hentry] at hread
      cases d <;> cases hread
  | error e =>
    obtain rfl | hlocate' := locate_error_of_grows hwf h hlocate
    · simp only [read, locateExisting, hlocate]
    · simp only [read, locateExisting, hlocate'] at hread
      simp only [read, locateExisting, hlocate, hread]

theorem read_before (hwf : fs.WellFormed) (h : Grows pages fs fs') {p : Path} (hp : Steady pages fs fs' p) :
    fs.read p = fs'.read p ∨ ∃ e, fs'.read p = .error e ∧ e ≠ .notFound := by
  cases hread : fs'.read p with
  | ok bytes =>
    left
    obtain ⟨l, hl, hfile⟩ := locate_of_read hread
    obtain ⟨hpage, hfound⟩ := hp l hl
    have hold := ((h.change l).file_iff hpage).1 hfile
    have hlocate : fs.locate true p = .ok l := by
      refine hfound.resolve_left ?_
      rw [hold]
      simp
    rw [read_eq_of_locate hlocate hold]
  | error e =>
    by_cases hne : e = .notFound
    · subst hne
      exact .inl (read_missing_before hwf h hread)
    · exact .inr ⟨e, rfl, hne⟩

theorem readText_eq_missing {p : Path} : fs.readText p = .error .notFound ↔ fs.read p = .error .notFound := by
  cases hread : fs.read p with
  | error e => simp [readText, hread]
  | ok bytes => cases htext : Text.decode? bytes <;> simp [readText, hread, htext]

theorem readText_missing_before (hwf : fs.WellFormed) (h : Grows pages fs fs') {p : Path}
    (hread : fs'.readText p = .error .notFound) : fs.readText p = .error .notFound :=
  readText_eq_missing.2 (read_missing_before hwf h (readText_eq_missing.1 hread))

/-- A file reads as it does in another table, or it cannot be read there but is not missing there. -/
def Agrees (fs fs' : FileSystem) (p : Path) : Prop :=
  fs.readText p = fs'.readText p ∨ ∃ e, fs'.readText p = .error e ∧ e ≠ .notFound

theorem agrees_of_steady (hwf : fs.WellFormed) (h : Grows pages fs fs') {p : Path} (hp : Steady pages fs fs' p) :
    fs.Agrees fs' p := by
  obtain heq | ⟨e, he, hne⟩ := read_before hwf h hp
  · exact .inl (by rw [readText, readText, heq])
  · exact .inr ⟨e, by rw [readText, he], hne⟩

/-- What is missing later on was missing before, and so it agrees. -/
theorem agrees_of_missing (hwf : fs.WellFormed) (h : Grows pages fs fs') {p : Path}
    (hread : fs'.readText p = .error .notFound) : fs.Agrees fs' p :=
  .inl ((readText_missing_before hwf h hread).trans hread.symm)

/-- A file at which no page is put, and which is still missing later on if it is now. -/
structure Kept (pages : Location → Prop) (fs fs' : FileSystem) (p : Path) : Prop where
  aside : ∀ l, fs.locate true p = .ok l → ¬ pages l
  missing : fs.readText p = .error .notFound → fs'.readText p = .error .notFound

theorem Kept.agrees (h : Grows pages fs fs') {p : Path} (hp : Kept pages fs fs' p) : fs'.Agrees fs p := by
  cases hread : fs.read p with
  | ok bytes =>
    obtain ⟨l, hl, hfile⟩ := locate_of_read hread
    exact .inl (by rw [readText, readText, hread, read_of_grows h hl (hp.aside l hl) hfile])
  | error e =>
    have htext : fs.readText p = .error e := by rw [readText, hread]
    by_cases hne : e = .notFound
    · subst hne
      exact .inl ((hp.missing htext).trans htext.symm)
    · exact .inr ⟨e, htext, hne⟩

/-- What is not missing is found later on where it is now. -/
theorem locate_before (hwf : fs.WellFormed) (h : Grows pages fs fs') {p : Path}
    (hp : fs.readText p ≠ .error .notFound) {l : Location} (hl : fs'.locate true p = .ok l) :
    fs.locate true p = .ok l := by
  cases hstart : fs.locate true p with
  | ok k =>
    have hk := locate_of_grows h hstart
    rw [hl] at hk
    rw [hk]
  | error e =>
    obtain rfl | herror := locate_error_of_grows hwf h hstart
    · refine absurd (readText_eq_missing.2 ?_) hp
      simp only [read, locateExisting, hstart]
    · rw [hl] at herror
      cases herror

/-- Such a file reads at the end as it does at any time before. -/
theorem Kept.agrees_between {fs₁ : FileSystem} (hwf : fs.WellFormed) (hwf₁ : fs₁.WellFormed) (h₁ : Grows pages fs fs₁)
    (h₂ : Grows pages fs₁ fs') {p : Path} (hp : Kept pages fs fs' p) : fs'.Agrees fs₁ p := by
  by_cases hmissing : fs.readText p = .error .notFound
  · have hend := hp.missing hmissing
    exact .inl (hend.trans (readText_missing_before hwf₁ h₂ hend).symm)
  · refine Kept.agrees h₂ ⟨fun l hl => hp.aside l (locate_before hwf h₁ hmissing hl), fun hnow => ?_⟩
    exact absurd (readText_missing_before hwf h₁ hnow) hmissing

/-- The text of such a file, if it has any, is the same later on. -/
theorem Kept.toOption_readText (hwf : fs.WellFormed) (h : Grows pages fs fs') {p : Path} (hp : Kept pages fs fs' p) :
    (fs'.readText p).toOption = (fs.readText p).toOption := by
  by_cases hmissing : fs.readText p = .error .notFound
  · rw [hmissing, hp.missing hmissing]
  · have hsteady : Steady pages fs fs' p := fun l hl =>
      have hstart := locate_before hwf h hmissing hl
      ⟨hp.aside l hstart, .inr hstart⟩
    obtain heq | ⟨e, he, -⟩ := hp.agrees h
    · rw [heq]
    · obtain heq | ⟨e', he', -⟩ := agrees_of_steady hwf h hsteady
      · rw [heq]
      · rw [he, he']
        rfl

/-- With the directories that have been made, everything is found. -/
theorem steady_withDirectories (h' : fs'.WellFormed) (h : Grows pages fs fs') {p : Path}
    (hp : ∀ l, fs'.locate true p = .ok l → ¬ pages l) : Steady pages (fs.withDirectories fs') fs' p :=
  fun l hl => ⟨hp l hl, .inr (locate_of_directories h' h hl)⟩

end FileSystem

/-- Only these files count for a result: it comes in every table in which they read as they do here. -/
def DependsOn {α : Type} (f : FileSystem → Except Error α) (fs' : FileSystem) (files : Path → Prop) : Prop :=
  ∀ x, f fs' = .ok x → ∀ fs : FileSystem, (∀ p, files p → fs.Agrees fs' p) → f fs = .ok x

end Folio

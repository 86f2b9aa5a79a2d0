import Folio.Batch
import Folio.Proofs.Target
import Folio.Proofs.FileSystem.Leads

/-!
# Folio.Proofs.Batch.Page

Documents and pages of a run.

* `Batch.isDocument`, `Batch.pageOf`: which files get a page, and where.
* `HasPage`: the names of a document and those of its page below the output directory.
* `not_isDocument_page`, `not_isDocument_of_place`: a page is no document.
* `location_of_page`: a page is written below the output directory, where its names say.
-/

namespace Folio

open Folio.Path FileSystem

/-- The names of a document, and the names of its page. -/
def HasPage (format : OutputFormat) (names page : List Name) : Prop :=
  ∃ init before after, names = init ++ [before ++ dot :: after] ∧
    page = init ++ [before ++ dot :: format.extensionName] ∧ before ≠ [] ∧ before ≠ [dot] ∧ dot ∉ after

namespace Batch

/-- Whether a file gets a page. -/
def isDocument (b : Batch) (input : Path) (names : List Name) : Bool :=
  !b.skips ⟨unsplit names⟩ && (b.kind? (input.below names)).isSome

/-- The place of the page of a document. -/
def pageOf (b : Batch) (names : List Name) : Path :=
  b.target ⟨unsplit names⟩

/-- Pages have another extension than scripts. -/
def Distinct (b : Batch) : Prop :=
  ∀ s ∈ effectiveExtensions b.options.scriptExtensions,
    Text.asciiLower s ≠ Text.asciiLower b.options.outputFormat.extension

end Batch

variable {b : Batch} {input : Path} {names page : List Name}

theorem extension?_below {init : List Name} {last : Name} (h : ∀ name ∈ init ++ [last], isName name = true) :
    (input.below (init ++ [last])).extension? = extensionOf? last := by
  have hsplit := split_join input (areParts_of_isName (by simp) h)
  rw [← below_eq_join input (by simp) h, ← List.append_assoc] at hsplit
  obtain ⟨hne, hdot, hup, -⟩ := isName_iff.1 (h last (by simp))
  rw [extension?, fileName?_of_split hsplit hne hdot hup]

theorem names_of_kind? (hne : names ≠ []) (h : ∀ name ∈ names, isName name = true) {kind : DocumentKind}
    (hkind : b.kind? (input.below names) = some kind) :
    ∃ init before after, names = init ++ [before ++ dot :: after] ∧ before ≠ [] ∧ dot ∉ after := by
  obtain ⟨init, last, rfl⟩ := (List.eq_nil_or_concat names).resolve_left hne
  rw [List.concat_eq_append] at h hkind ⊢
  rw [Batch.kind?, DocumentKind.ofPath?, extensionText?, extension?_below h] at hkind
  cases hext : extensionOf? last with
  | none =>
    rw [hext] at hkind
    cases hkind
  | some after =>
    obtain ⟨before, hbefore, rfl, hdot⟩ := eq_of_extensionOf? hext
    exact ⟨init, before, after, rfl, hbefore, hdot⟩

theorem HasPage.isName (h : HasPage b.options.outputFormat names page) (hnames : ∀ name ∈ names, isName name = true) :
    page ≠ [] ∧ ∀ name ∈ page, Folio.isName name = true := by
  obtain ⟨init, before, after, rfl, rfl, hbefore, -, -⟩ := h
  refine ⟨by simp, ?_⟩
  intro name hname
  obtain hname | hname := List.mem_append.1 hname
  · exact hnames name (List.mem_append_left _ hname)
  · rw [List.mem_singleton.1 hname]
    exact isName_page hbefore (isName_iff.1 (hnames (before ++ dot :: after) (by simp))).2.2.2 _

theorem HasPage.pageOf_eq (h : HasPage b.options.outputFormat names page)
    (hnames : ∀ name ∈ names, Folio.isName name = true) :
    b.pageOf names = b.options.outputDir.join ⟨unsplit page⟩ := by
  obtain ⟨init, before, after, rfl, rfl, hbefore, hdot, hafter⟩ := h
  exact targetPath_eq _ _ (fun name hname => hnames name (List.mem_append_left _ hname)) (hnames _ (by simp)) hbefore
    hdot hafter

/-- A page is no document, wherever it stands. -/
theorem not_isDocument_page (hdistinct : b.Distinct) (h : HasPage b.options.outputFormat names page)
    {init : List Name} {last : Name} (hlast : page.getLast? = some last)
    (hnames : ∀ name ∈ init ++ [last], isName name = true) : b.isDocument input (init ++ [last]) = false := by
  obtain ⟨_, before, after, rfl, rfl, hbefore, hdot, hafter⟩ := h
  rw [List.getLast?_concat] at hlast
  cases hlast
  have hext : extensionText? (input.below (init ++ [before ++ dot :: b.options.outputFormat.extensionName])) =
      some (Text.asciiLower b.options.outputFormat.extension) := by
    rw [extensionText?, extension?_below hnames, extensionOf?_append hbefore (dot_notMem_extensionName _)]
    rw [OutputFormat.extensionName, Option.bind_some, Text.decode?_encode, Option.map_some]
  have hkind : b.kind? (input.below (init ++ [before ++ dot :: b.options.outputFormat.extensionName])) = none := by
    have hmarkdown : markdownExtensions.contains (Text.asciiLower b.options.outputFormat.extension) = false := by
      cases b.options.outputFormat <;> decide
    have hscript : (effectiveExtensions b.options.scriptExtensions).any
        (fun s => Text.asciiLower s == Text.asciiLower b.options.outputFormat.extension) = false := by
      rw [List.any_eq_false]
      intro s hs
      simpa using hdistinct s hs
    rw [Batch.kind?, DocumentKind.ofPath?, hext]
    simp only [hmarkdown, hscript, Bool.false_eq_true, if_false]
  rw [Batch.isDocument, hkind]
  simp

/-- A file at the place of a page is no document. -/
theorem not_isDocument_of_place (hdistinct : b.Distinct) (h : HasPage b.options.outputFormat names page)
    (hnames : ∀ name ∈ names, isName name = true) {r root : Location} {other : List Name} (hne : other ≠ [])
    (hother : ∀ name ∈ other, isName name = true) (hplace : root ++ other = r ++ page) :
    b.isDocument input other = false := by
  obtain ⟨init, last, rfl⟩ := (List.eq_nil_or_concat other).resolve_left hne
  rw [List.concat_eq_append] at hother hplace ⊢
  refine not_isDocument_page hdistinct h ?_ hother
  have hends : (r ++ page).getLast? = (root ++ (init ++ [last])).getLast? := by rw [hplace]
  rw [List.getLast?_append_of_ne_nil r (h.isName hnames).1, ← List.append_assoc, List.getLast?_concat] at hends
  exact hends

/-! ### The place of a page -/

section Place

variable {pages : Location → Prop} {fs fs' : FileSystem}

/-- A page that can be written has names of its own, and stands below the output directory where they say. -/
theorem location_of_page (hwf : fs'.WellFormed) (hgrows : Grows pages fs fs')
    (hlinks : fs.LinklessBelow b.options.outputDir) (hne : names ≠ []) (hnames : ∀ name ∈ names, isName name = true)
    {kind : DocumentKind} (hkind : b.kind? (input.below names) = some kind) {l : Location}
    (hl : fs'.resolve true (b.pageOf names) = .ok l) (hfree : fs'.Writable l) :
    ∃ page r, HasPage b.options.outputFormat names page ∧ fs'.resolve true b.options.outputDir = .ok r ∧
      l = r ++ page := by
  obtain ⟨init, before, after, rfl, hbefore, hafter⟩ := names_of_kind? hne hnames hkind
  have hinit : ∀ name ∈ init, isName name = true := fun name hname => hnames name (List.mem_append_left _ hname)
  have hlast := hnames (before ++ dot :: after) (by simp)
  by_cases hdot : before = [dot]
  · -- the page would be the directory above
    subst hdot
    have hparts : AreParts (init ++ [dotDotName]) := areParts_concat hinit (by decide) (by decide)
    rw [Batch.pageOf, Batch.target, targetPath_up _ _ hinit hlast hafter] at hl
    obtain ⟨links, k, -, -, hfollow⟩ := resolve_join hparts hl
    obtain ⟨links', k', hdir, hreach⟩ := reaches_of_follow (.inl (by simp)) hfollow
    rw [hreach true [dotDotName] (.inl rfl), follow_up hdir, follow_nil] at hfollow
    cases hfollow
    have hup := hwf.directory_dropLast hdir
    rw [FileSystem.Writable, hup] at hfree
    obtain hfree | ⟨bytes, hfree⟩ := hfree <;> cases hfree
  · have hpage : HasPage b.options.outputFormat (init ++ [before ++ dot :: after])
        (init ++ [before ++ dot :: b.options.outputFormat.extensionName]) :=
      ⟨init, before, after, rfl, rfl, hbefore, hdot, hafter⟩
    obtain ⟨hpne, hpnames⟩ := hpage.isName hnames
    rw [hpage.pageOf_eq hnames] at hl
    obtain ⟨links, r, hresolve, -, hfollow⟩ := resolve_join (areParts_of_isName hpne hpnames) hl
    refine ⟨_, r, hpage, hresolve, follow_names hpnames ?_ hfollow⟩
    intro more hmore target hlink
    exact hlinks r ⟨pages, fs', hwf, hgrows, hresolve⟩ (r ++ more) (List.prefix_append r more) (by simpa using hmore)
      target ((hgrows.change _).of_link hlink)

end Place
end Folio

import Folio.Proofs.Mirror
import Folio.Proofs.Batch.Failure

/-!
# Folio.Proofs.Batch.Stems

Documents with the same stem.

* `pageOf_same_iff`: the pages of two documents have the same place if the documents stand in one directory and their
  names have the same stem.
* `Visited`: what a run has done, whatever its pages are; `Visited.file` is the step, `Visited.runs` the whole way.
* `processDirectory_ends`: a run from its beginning to its end, whatever its pages are.
* `Batch.Closes`: how a run ends. It reports a collision at a document with the stem of an earlier one, and at no other.
* `pages_mirror`: the places of pages, and the collisions of a run.
* `Upwards`: a document whose page would be the directory above.
-/

namespace Folio

open Folio.Path FileSystem

/-! ### Documents with the same stem -/

/-- Two files below a directory stand in one directory, and their names have the same stem. -/
def Siblings (names names' : List Name) : Prop :=
  SameStem ⟨unsplit names⟩ ⟨unsplit names'⟩

instance (names names' : List Name) : Decidable (Siblings names names') :=
  inferInstanceAs (Decidable (SameStem _ _))

theorem Siblings.symm {names names' : List Name} (h : Siblings names names') : Siblings names' names :=
  ⟨h.1.symm, h.2.symm⟩

theorem Siblings.trans {names names' names'' : List Name} (h : Siblings names names') (h' : Siblings names' names'') :
    Siblings names names'' :=
  ⟨h.1.trans h'.1, h.2.trans h'.2⟩

variable {b : Batch} {input : Path} {names names' : List Name}

theorem components_unsplit (hne : names ≠ []) (h : ∀ name ∈ names, isName name = true) :
    (⟨unsplit names⟩ : Path).components = names.map .normal := by
  have hparts := areParts_of_isName hne h
  have hpart : ∀ name ∈ names, Component.ofPart? name = some (.normal name) := by
    intro name hname
    obtain ⟨hne, hdot, hup, -⟩ := isName_iff.1 (h name hname)
    rw [Component.ofPart?, if_neg (by simp [hne, hdot]), if_neg hup]
  obtain ⟨first, rest, rfl⟩ := List.exists_cons_of_ne_nil hne
  have hfirst : Component.ofFirst? false first = some (.normal first) := by
    rw [Component.ofFirst?, if_neg Bool.false_ne_true, if_neg (isName_iff.1 (h first List.mem_cons_self)).2.1]
    exact hpart first List.mem_cons_self
  have hrest : rest.filterMap Component.ofPart? = rest.map .normal := by
    rw [List.filterMap_congr fun name hname => hpart name (List.mem_cons_of_mem first hname)]
    exact congrFun List.filterMap_eq_map' rest
  rw [components, isAbsolute_unsplit hparts, split_unsplit hparts.ne_nil hparts.slashless]
  dsimp only
  rw [hfirst, hrest]
  rfl

/-- The path of a document below the directory is made of names, the last one with an extension. -/
theorem isLeaf_of_kind? (hne : names ≠ []) (h : ∀ name ∈ names, isName name = true)
    (hkind : (b.kind? (input.below names)).isSome = true) :
    IsLeaf ⟨unsplit names⟩ ∧ (Dotted ⟨unsplit names⟩ ↔ (⟨unsplit names⟩ : Path).stem? = some [dot]) := by
  obtain ⟨kind, hkind⟩ := Option.isSome_iff_exists.1 hkind
  obtain ⟨init, before, after, rfl, hbefore, hafter⟩ := names_of_kind? hne h hkind
  have hinit : ∀ name ∈ init, isName name = true := fun name hname => h name (List.mem_append_left _ hname)
  obtain ⟨hends, -⟩ := endsWith_of_isName hinit (h _ (by simp)) hbefore hafter
  refine ⟨⟨fun c hc => ?_, by rw [hends.extension?, Option.isSome_some]⟩, ?_⟩
  · rw [components_unsplit hne h] at hc
    obtain ⟨name, -, hname⟩ := List.mem_map.1 hc
    exact ⟨name, hname.symm⟩
  · rw [hends.dotted_iff, hends.stem?, Option.some.injEq]
    exact and_iff_left rfl

/-- A file that gets a page, and stands below a directory where its names say. -/
structure Batch.Sees (b : Batch) (input : Path) (names : List Name) : Prop where
  ne_nil : names ≠ []
  areNames : ∀ name ∈ names, isName name = true
  document : b.isDocument input names = true

theorem Batch.Sees.isLeaf (h : b.Sees input names) :
    IsLeaf ⟨unsplit names⟩ ∧ (Dotted ⟨unsplit names⟩ ↔ (⟨unsplit names⟩ : Path).stem? = some [dot]) := by
  have hdoc := h.document
  rw [Batch.isDocument, Bool.and_eq_true] at hdoc
  exact isLeaf_of_kind? h.ne_nil h.areNames hdoc.2

/-- The pages of two documents have the same place if the documents have the same directory and stem. -/
theorem pageOf_same_iff (h : b.Sees input names) (h' : b.Sees input names') :
    (b.pageOf names).sameComponents (b.pageOf names') = true ↔ Siblings names names' := by
  obtain ⟨hleaf, hdotted⟩ := h.isLeaf
  obtain ⟨hleaf', hdotted'⟩ := h'.isLeaf
  rw [Batch.pageOf, Batch.target, Batch.pageOf, Batch.target, targetPath_same_iff hleaf hleaf', ← Siblings]
  refine and_iff_left_of_imp fun hsame => ?_
  rw [hdotted, hdotted', hsame.2]

/-! ### What a run has done -/

/-- A run has made the pages of the documents `docs`, no two of which are siblings. -/
structure Visited (b : Batch) (input : Path) (root : Location) (docs : List (List Name)) (s : Progress) : Prop where
  wellFormed : s.fs.WellFormed
  leads : s.fs.locate true input = .ok root
  directory : s.fs.get? root = some .directory
  stands : ∀ p ∈ s.pending, p.Stands s.fs input root
  written : s.written = (docs.map fun names => (b.pageOf names, input.below names)).reverse
  sees : ∀ names ∈ docs, b.Sees input names
  apart : docs.Pairwise fun names names' => ¬ Siblings names names'

variable {root : Location} {docs : List (List Name)} {s s' : Progress} {p : Pending} {rest : List Pending}

theorem Visited.sees_next (h : Visited b input root docs s) (hnext : s.next = .ok (some (p, rest)))
    (hdoc : b.isDocument input p.names = true) : b.Sees input p.names := by
  obtain ⟨-, hp, ⟨bytes, hfile⟩, -⟩ := nextFile_spec h.wellFormed h.leads hnext h.stands
  refine ⟨?_, hp.names, hdoc⟩
  intro hnil
  rw [hnil, List.append_nil, h.directory] at hfile
  cases hfile

/-- The place of a page is taken by a sibling of its document only. -/
theorem Visited.sibling_of_source? (h : Visited b input root docs s) (hnames : b.Sees input names) {first : Path}
    (hfirst : s.written.source? (b.pageOf names) = some first) :
    ∃ doc ∈ docs, first = input.below doc ∧ Siblings doc names := by
  obtain ⟨doc, hdoc, hsource, hplace⟩ := exists_of_source? h.written hfirst
  exact ⟨doc, hdoc, hsource, (pageOf_same_iff (h.sees doc hdoc) hnames).1 hplace⟩

/-- The place of a page is taken if a sibling of its document has come before. -/
theorem Visited.source?_eq (h : Visited b input root docs s) (hnames : b.Sees input names) {doc : List Name}
    (hdoc : doc ∈ docs) (hsame : Siblings doc names) : s.written.source? (b.pageOf names) = some (input.below doc) := by
  cases hsource : s.written.source? (b.pageOf names) with
  | none =>
    have hfree := source?_eq_none.1 hsource
    rw [h.written, List.map_reverse, List.mem_reverse, List.map_map] at hfree
    have hplace := (pageOf_same_iff (h.sees doc hdoc) hnames).2 hsame
    rw [sameComponents, beq_iff_eq] at hplace
    exact absurd (List.mem_map.2 ⟨doc, hdoc, hplace⟩) hfree
  | some first =>
    obtain ⟨other, hother, rfl, hsame'⟩ := h.sibling_of_source? hnames hsource
    have hone : other = doc := by
      by_contra hne
      have hsymm : Std.Symm fun names names' => ¬ Siblings names names' := ⟨fun _ _ hnot hsib => hnot hsib.symm⟩
      exact h.apart.forall hother hdoc hne (hsame'.trans hsame.symm)
    rw [hone]

theorem Visited.source?_eq_none (h : Visited b input root docs s) (hnames : b.Sees input names) :
    s.written.source? (b.pageOf names) = none ↔ ∀ doc ∈ docs, ¬ Siblings doc names := by
  constructor
  · intro hnone doc hdoc hsame
    rw [h.source?_eq hnames hdoc hsame] at hnone
    cases hnone
  · intro hnone
    cases hsource : s.written.source? (b.pageOf names) with
    | none => rfl
    | some first =>
      obtain ⟨other, hother, -, hsame⟩ := h.sibling_of_source? hnames hsource
      exact absurd hsame (hnone other hother)

/-- The work on one file adds it to the documents, if it is one. -/
theorem Visited.file (h : Visited b input root docs s) (hnext : s.next = .ok (some (p, rest))) {written : Written}
    {fs : FileSystem} (hfile : b.Handles s.written p s.fs (.ok written) fs) :
    Visited b input root (docs ++ if b.isDocument input p.names then [p.names] else []) ⟨written, rest, fs⟩ := by
  obtain ⟨-, hp, -, hrest⟩ := nextFile_spec h.wellFormed h.leads hnext h.stands
  obtain ⟨hno, rfl, rfl⟩ | ⟨hdoc, rfl, hnew, fs₁, kind, text, l, hpage⟩ := hfile.file h.wellFormed hp
  · rw [hno, if_neg Bool.false_ne_true, List.append_nil]
    exact ⟨h.wellFormed, h.leads, h.directory, hrest, h.written, h.sees, h.apart⟩
  · have hgrows := hpage.step_grows
    have hsees := h.sees_next hnext hdoc
    rw [hdoc, if_pos rfl]
    refine ⟨hpage.wrote.wellFormed, locate_of_grows hgrows h.leads, (hgrows.change root).directory h.directory,
      fun q hq => (hrest q hq).of_grows hgrows, ?_, ?_, ?_⟩
    · rw [h.written]
      simp
    · intro names hnames
      obtain hnames | hnames := List.mem_append.1 hnames
      · exact h.sees names hnames
      · exact List.mem_singleton.1 hnames ▸ hsees
    · rw [List.pairwise_append]
      refine ⟨h.apart, List.pairwise_singleton _ _, fun doc hdoc names hnames => ?_⟩
      rw [List.mem_singleton.1 hnames]
      exact (h.source?_eq_none hsees).1 hnew doc hdoc

theorem Visited.runs (h : Visited b input root docs s) {k : Nat} (hruns : b.Runs k s s') :
    ∃ more, Visited b input root (docs ++ more) s' := by
  induction hruns generalizing docs with
  | refl => exact ⟨[], by rwa [List.append_nil]⟩
  | file hnext hfile _ ih =>
    obtain ⟨more, hmore⟩ := ih (h.file hnext hfile)
    exact ⟨_ ++ more, by rwa [← List.append_assoc]⟩

/-! ### Collisions -/

/-- How a run ends after the documents `docs`: where a document comes next, it reports a collision if a sibling of the
document has come before, and fails to make the page otherwise. -/
inductive Batch.Closes (b : Batch) (input : Path) (docs : List (List Name)) (s : Progress) :
    Except Error (List Path) → FileSystem → Prop where
  | finished (hnext : s.next = .ok none) : Closes b input docs s (.ok (docs.map b.pageOf)) s.fs
  | unvisited {cause : IoError} (hnext : s.next = .error cause) : Closes b input docs s (.error (.io cause)) s.fs
  | collision {p : Pending} {rest : List Pending} {doc : List Name} (hnext : s.next = .ok (some (p, rest)))
      (hnames : b.Sees input p.names) (hdoc : doc ∈ docs) (hsame : Siblings doc p.names) :
      Closes b input docs s (.error (.document (input.below p.names).display ("output '" ++ (b.pageOf p.names).display ++
        "' is already generated from '" ++ (input.below doc).display ++ "'"))) s.fs
  | failed {p : Pending} {rest : List Pending} {kind : DocumentKind} {e : Error} {fs : FileSystem}
      (hnext : s.next = .ok (some (p, rest))) (hnames : b.Sees input p.names)
      (hnew : ∀ doc ∈ docs, ¬ Siblings doc p.names)
      (hmakes : b.Makes kind (input.below p.names) (b.pageOf p.names) s.fs (.error e) fs) :
      Closes b input docs s (.error e) fs

theorem Visited.closes (h : Visited b input root docs s) {result : Except Error Written} {fs : FileSystem}
    (hends : b.Ends s result fs) :
    b.Closes input docs s (result.map fun pages => pages.reverse.map Prod.fst) fs := by
  cases hends with
  | finished hnext =>
    have hpages : s.written.reverse.map Prod.fst = docs.map b.pageOf := by
      rw [h.written, List.reverse_reverse, List.map_map]
      rfl
    rw [Except.map, hpages]
    exact .finished hnext
  | unvisited hnext => exact .unvisited hnext
  | @failed p rest e fs hnext hfile =>
    obtain ⟨-, hp, -, -⟩ := nextFile_spec h.wellFormed h.leads hnext h.stands
    have hsees := h.sees_next hnext (hfile.isDocument hp)
    cases hfile with
    | @taken first hskip hkind hfirst =>
      obtain ⟨doc, hdoc, hsame⟩ : ∃ doc ∈ docs, Siblings doc p.names := by
        by_contra hnone
        have hnew := (h.source?_eq_none hsees).2 fun doc hdoc hsame => hnone ⟨doc, hdoc, hsame⟩
        rw [Batch.pageOf, ← Pending.relative, hfirst] at hnew
        cases hnew
      have hfirst' := h.source?_eq hsees hdoc hsame
      rw [Batch.pageOf, ← Pending.relative, hfirst] at hfirst'
      cases hfirst'
      rw [hp.path]
      exact .collision hnext hsees hdoc hsame
    | failed hskip hkind hnew hmakes =>
      rw [hp.path] at hmakes
      exact .failed hnext hsees ((h.source?_eq_none hsees).1 hnew) hmakes

theorem Visited.start {fs : FileSystem} (hwf : fs.WellFormed) (hroot : fs.locate true input = .ok root)
    (hdir : fs.get? root = some .directory) : Visited b input root [] (Progress.start input fs) := by
  refine ⟨hwf, hroot, hdir, fun p hp => ?_, rfl, fun _ h => absurd h List.not_mem_nil, .nil⟩
  rw [List.mem_singleton.1 hp]
  refine ⟨rfl, fun _ hname => absurd hname List.not_mem_nil, .directory, ?_⟩
  rw [List.append_nil]
  exact hdir

/-- A run over a directory is refused before anything is done, or it goes on file by file until it ends. -/
theorem processDirectory_ends (renderer : Renderer) (input : Path) (options : DirectoryOptions) {w : World}
    (hwf : w.fs.WellFormed) :
    let run := processDirectory renderer input options w
    (∃ e, run.1 = .error e ∧ RefusedFirst input w e run.2) ∨
      ∃ root ignored w₁, w.fs.locate true input = .ok root ∧ w.fs.get? root = some .directory ∧
        IgnoreSet.load (input.join IgnoreSet.fileName) w = (.ok ignored, w₁) ∧
        let b : Batch := ⟨renderer, options, ignored⟩
        ∃ k s result, b.Runs k (Progress.start input w.fs) s ∧ b.Ends s result run.2.fs ∧
          run.1 = result.map fun pages => pages.reverse.map Prod.fst := by
  intro run
  obtain hrefused | ⟨root, ignored, w₁, hroot, hdir, hload, hfs, hworld, hresult⟩ :=
    processDirectory_cases renderer input options w
  · exact .inl hrefused
  · rw [← hfs] at hwf
    obtain ⟨k, s, hruns, hends, -⟩ := processAll_ends ⟨renderer, options, ignored⟩ hwf (hfs.symm ▸ hroot)
      (hfs.symm ▸ hdir)
    rw [hfs] at hruns
    rw [← hworld] at hends
    exact .inr ⟨root, ignored, w₁, hroot, hdir, hload, k, s, _, hruns, hends, hresult⟩

/-- A run over a directory is refused before anything is done, or it makes pages of documents no two of which are
siblings until it ends. -/
theorem processDirectory_visited (renderer : Renderer) (input : Path) (options : DirectoryOptions) {w : World}
    (hwf : w.fs.WellFormed) :
    let run := processDirectory renderer input options w
    (∃ e, run.1 = .error e ∧ RefusedFirst input w e run.2) ∨
      ∃ root ignored w₁, IgnoreSet.load (input.join IgnoreSet.fileName) w = (.ok ignored, w₁) ∧
        let b : Batch := ⟨renderer, options, ignored⟩
        ∃ k s docs, b.Runs k (Progress.start input w.fs) s ∧ Visited b input root docs s ∧
          b.Closes input docs s run.1 run.2.fs := by
  intro run
  obtain hrefused | ⟨root, ignored, w₁, hroot, hdir, hload, k, s, result, hruns, hends, hresult⟩ :=
    processDirectory_ends renderer input options hwf
  · exact .inl hrefused
  · obtain ⟨docs, hvisited⟩ := (Visited.start hwf hroot hdir).runs hruns
    rw [List.nil_append] at hvisited
    refine .inr ⟨root, ignored, w₁, hload, k, s, docs, hruns, hvisited, ?_⟩
    rw [show run.1 = _ from hresult]
    exact hvisited.closes hends

/-- Pages stand below the output directory as their documents stand below the input directory: the components of the
parent stay, and the stem gets the extension of the format, by which the page is classified. Pages have the same place
if their documents have the same parent and the same stem, and a run reports a collision exactly where a document comes
after such a one. A dotted path is an exception: it leads to the directory above, together with the dotted paths that
have the same parent. -/
theorem pages_mirror (outputDir : Path) (format : OutputFormat) (renderer : Renderer) (input : Path)
    (options : DirectoryOptions) {w : World} (hwf : w.fs.WellFormed) :
    (∀ r : Path, r.IsLeaf → ∃ parent stem after, r.parent? = some parent ∧ r.stem? = some stem ∧ dot ∉ after ∧
      r.components = parent.components ++ [.normal (stem ++ dot :: after)] ∧
      (targetPath r outputDir format).components = outputDir.components ++ (parent.components ++
        [if r.Dotted then .parent else .normal (stem ++ dot :: format.extensionName)]) ∧
      (¬ r.Dotted → (targetPath r outputDir format).extension? = some format.extensionName ∧
        ∀ scripts, DocumentKind.ofPath? scripts (targetPath r outputDir format) =
          if scripts.any fun s => Text.asciiLower s == format.extension then some .script else none)) ∧
    (∀ r s : Path, r.IsLeaf → s.IsLeaf →
      ((targetPath r outputDir format).sameComponents (targetPath s outputDir format) = true ↔
        r.SameStem s ∧ (r.Dotted ↔ s.Dotted))) ∧
    let run := processDirectory renderer input options w
    (∃ e, run.1 = .error e ∧ RefusedFirst input w e run.2) ∨
      ∃ root ignored w₁, IgnoreSet.load (input.join IgnoreSet.fileName) w = (.ok ignored, w₁) ∧
        let b : Batch := ⟨renderer, options, ignored⟩
        ∃ k s docs, b.Runs k (Progress.start input w.fs) s ∧ Visited b input root docs s ∧
          b.Closes input docs s run.1 run.2.fs := by
  refine ⟨fun r hr => ?_, fun r s hr hs => targetPath_same_iff hr hs outputDir format,
    processDirectory_visited renderer input options hwf⟩
  obtain ⟨parent, stem, after, hparent, hstem, hafter, hcomponents, hpage⟩ := targetPath_components hr outputDir format
  exact ⟨parent, stem, after, hparent, hstem, hafter, hcomponents, hpage, fun hdotted =>
    ⟨extension?_targetPath hr hdotted outputDir format, ofPath?_targetPath hr hdotted outputDir format⟩⟩

theorem isLeaf_of_components {r : Path} {name : Name} (h : r.components = [.normal name]) (hext : r.extension?.isSome = true) :
    r.IsLeaf := by
  refine ⟨fun c hc => ?_, hext⟩
  rw [h] at hc
  exact ⟨name, List.mem_singleton.1 hc⟩

namespace Collision

/-- The two scripts have the same page, and the run reports this at the second one. -/
theorem pages_collide :
    (targetPath (Path.ofString "a.py") (Path.ofString "out") .html).components =
        [.normal (Text.encode "out"), .normal (Text.encode "a.html")] ∧
      (targetPath (Path.ofString "a.py") (Path.ofString "out") .html).extension? = some (Text.encode "html") ∧
      (targetPath (Path.ofString "a.py") (Path.ofString "out") .html).sameComponents
        (targetPath (Path.ofString "a.rs") (Path.ofString "out") .html) = true ∧
      files.WellFormed ∧
      ∃ w' root docs s, processDirectory Template.engine (Path.ofString "in") options ⟨files, []⟩ = (.error collision, w') ∧
        Visited batch (Path.ofString "in") root docs s ∧
        batch.Closes (Path.ofString "in") docs s (.error collision) w'.fs := by
  have hwf : files.WellFormed := ⟨by decide +kernel, by decide +kernel, by decide +kernel⟩
  have hpython : (Path.ofString "a.py").IsLeaf := @isLeaf_of_components _ (Text.encode "a.py") (by decide) (by decide)
  have hrust : (Path.ofString "a.rs").IsLeaf := @isLeaf_of_components _ (Text.encode "a.rs") (by decide) (by decide)
  obtain ⟨hpages, hsame, hruns⟩ := pages_mirror (Path.ofString "out") .html Template.engine (Path.ofString "in") options
    (w := ⟨files, []⟩) hwf
  obtain ⟨parent, stem, after, hparent, hstem, -, -, hplace, hkind⟩ := hpages _ hpython
  obtain ⟨notices, hrun⟩ := processDirectory_eq []
  refine ⟨?_, ?_, (hsame _ _ hpython hrust).2 (by decide), hwf, ?_⟩
  · have hparent' : parent = ⟨[]⟩ := Option.some.inj (hparent.symm.trans (by decide))
    have hstem' : stem = Text.encode "a" := Option.some.inj (hstem.symm.trans (by decide))
    rw [hplace, hparent', hstem', if_neg (by decide)]
    decide
  · exact (hkind (by decide)).1
  · rw [hrun] at hruns
    obtain ⟨e, -, hrefused⟩ | ⟨root, ignored, w₁, hload, k, s, docs, -, hvisited, hend⟩ := hruns
    · have hread : withPage.read (Path.ofString "out/a.html") = .ok (Text.encode "<h1>a</h1>") := by cbv
      have hmissing : files.read (Path.ofString "out/a.html") = .error .notFound := by cbv
      rw [show withPage = files from hrefused.fs_eq, hmissing] at hread
      cases hread
    · obtain ⟨notices₁, hnone⟩ := load_ignored []
      rw [hnone] at hload
      cases hload
      exact ⟨_, root, docs, s, hrun, hvisited, hend⟩

end Collision

namespace Upwards

/-- A document with two dots before its extension. -/
def document : Path :=
  Path.ofString "..md"

/-- Its page would be the directory above the one where it belongs, though with a slash behind the name it would have a
page of its own. -/
theorem page_upwards :
    document.IsLeaf ∧ document.stem? = some [dot] ∧
      targetPath document (Path.ofString "out") .html = Path.ofString "out/.." ∧
      (targetPath document (Path.ofString "out") .html).components = [.normal (Text.encode "out"), .parent] ∧
      (targetPath document (Path.ofString "out") .html).extension? = none ∧
      document.SameStem (Path.ofString "..md/") ∧
      targetPath (Path.ofString "..md/") (Path.ofString "out") .html = Path.ofString "out/..html" := by
  refine ⟨@isLeaf_of_components _ (Text.encode "..md") (by decide) (by decide), ?_⟩
  decide

end Upwards

end Folio

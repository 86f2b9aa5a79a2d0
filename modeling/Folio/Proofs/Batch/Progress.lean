import Folio.Proofs.Batch.Bound

/-!
# Folio.Proofs.Batch.Progress

A run, file by file.

* `Underway`: what holds in every state of a run; `Underway.file` is the step.
* `Completed`, `Batch.Runs.completed`: what has been done so far.
* `Reached`, `processAll_spec`, `processDirectory_spec`: a run from its beginning to its end, whether it succeeds or
  not.
-/

namespace Folio

open Folio.Path FileSystem

/-- The documents that are still to come. -/
def Progress.documents (b : Batch) (input : Path) (root : Location) (s : Progress) : List (List Name) :=
  (remaining s.fs root s.pending).filter (b.isDocument input)

theorem source?_eq_none {written : Written} {target : Path} :
    written.source? target = none ↔ target.components ∉ written.map fun p => p.1.components := by
  simp [Written.source?, sameComponents]

theorem source?_eq_some {written : Written} {target first : Path} (h : written.source? target = some first) :
    ∃ page, (page, first) ∈ written ∧ page.sameComponents target = true := by
  rw [Written.source?, Option.map_eq_some_iff] at h
  obtain ⟨p, hfind, rfl⟩ := h
  have hsame := @List.find?_some _ (fun p => p.1.sameComponents target) p written hfind
  exact ⟨p.1, List.mem_of_find?_eq_some hfind, hsame⟩

/-- Where the pages of `docs` are written, the place of a page is taken by one of these documents. -/
theorem exists_of_source? {b : Batch} {input target first : Path} {docs : List (List Name)} {written : Written}
    (hwritten : written = (docs.map fun names => (b.pageOf names, input.below names)).reverse)
    (h : written.source? target = some first) :
    ∃ doc ∈ docs, first = input.below doc ∧ (b.pageOf doc).sameComponents target = true := by
  obtain ⟨page, hpage, hplace⟩ := source?_eq_some h
  rw [hwritten, List.mem_reverse] at hpage
  obtain ⟨doc, hdoc, heq⟩ := List.mem_map.1 hpage
  cases heq
  exact ⟨doc, hdoc, rfl, hplace⟩

variable {b : Batch} {input : Path} {root : Location} {fs₀ fs fs' : FileSystem}

/-! ### What is still to come -/

theorem pairwise_remaining (hwf : fs.WellFormed) {pending : List Pending} (h : InOrder pending) :
    (remaining fs root pending).Pairwise Before := by
  rw [remaining, List.pairwise_flatMap]
  refine ⟨fun p _ => (pairwise_filesBelow hwf root).filter _, h.imp ?_⟩
  intro p q hpq a ha b hb
  rw [List.mem_filter, isUnder_iff] at ha hb
  exact (hpq.below ha.2 hb.2).before

/-! ### The states of a run -/

/-- What holds in every state of a run. -/
structure Underway (b : Batch) (input : Path) (root : Location) (fs₀ : FileSystem) (s : Progress) : Prop where
  wellFormed : s.fs.WellFormed
  grows : Grows (b.pages fs₀ input root) fs₀ s.fs
  stands : ∀ p ∈ s.pending, p.Stands s.fs input root
  inOrder : InOrder s.pending
  documents : s.documents b input root ⊆ b.documents fs₀ input root
  nodup : (s.written.map fun p => p.1.components).Nodup

theorem Underway.comesNext (h : Begins b fs₀ input root) {s : Progress} (hs : Underway b input root fs₀ s)
    {next : Option (Pending × List Pending)} (hnext : s.next = .ok next) :
    ComesNext s.fs input root s.pending next :=
  nextFile_spec hs.wellFormed (locate_of_grows hs.grows h.leads) hnext hs.stands

theorem Underway.mem_documents (h : Begins b fs₀ input root) {s : Progress} (hs : Underway b input root fs₀ s)
    {p : Pending} {rest : List Pending} (hnext : s.next = .ok (some (p, rest)))
    (hdoc : b.isDocument input p.names = true) : p.names ∈ s.documents b input root := by
  obtain ⟨hremaining, -, -, -⟩ := hs.comesNext h hnext
  rw [Progress.documents, hremaining]
  exact List.mem_filter.2 ⟨List.mem_cons_self, hdoc⟩

theorem Underway.file (h : Begins b fs₀ input root) {s : Progress} (hs : Underway b input root fs₀ s) {p : Pending}
    {rest : List Pending} (hnext : s.next = .ok (some (p, rest))) {written : Written}
    (hfile : b.Handles s.written p s.fs (.ok written) fs) :
    let s' : Progress := ⟨written, rest, fs⟩
    Underway b input root fs₀ s' ∧
      (s.documents b input root = s'.documents b input root ∧ written = s.written ∧ fs = s.fs ∨
        s.documents b input root = p.names :: s'.documents b input root ∧
          written = (b.pageOf p.names, input.below p.names) :: s.written ∧
          ∃ fs₁ kind text l, Page b input p.names s.fs fs₁ fs kind text l) := by
  intro s'
  obtain ⟨hremaining, hp, -, hrest⟩ := hs.comesNext h hnext
  have horder := (List.pairwise_cons.1 (nextFile_inOrder hs.wellFormed hnext hs.inOrder)).2
  have hdocs := hs.documents
  rw [Progress.documents, hremaining, List.filter_cons] at hdocs
  obtain ⟨hno, rfl, rfl⟩ | ⟨hdoc, rfl, hnew, fs₁, kind, text, l, hpage⟩ := hfile.file hs.wellFormed hp
  · have hsame : s.documents b input root = s'.documents b input root := by
      rw [Progress.documents, hremaining, List.filter_cons, if_neg (by rw [hno]; simp)]
      rfl
    rw [hno, if_neg Bool.false_ne_true] at hdocs
    exact ⟨⟨hs.wellFormed, hs.grows, hrest, horder, hdocs, hs.nodup⟩, .inl ⟨hsame, rfl, rfl⟩⟩
  · rw [hdoc, if_pos rfl] at hdocs
    have hwf := hpage.wrote.wellFormed
    obtain ⟨hgrows, -, hapart⟩ := Page.step h hs.grows (hdocs List.mem_cons_self) hpage
    -- the page is no document, so that the documents still to come are the same
    have hlater : s'.documents b input root = (remaining s.fs root rest).filter (b.isDocument input) :=
      remaining_of_grows hs.wellFormed hwf hpage.step_grows hapart rest
    have hsame : s.documents b input root = p.names :: s'.documents b input root := by
      rw [Progress.documents, hremaining, List.filter_cons, hdoc, if_pos rfl, hlater]
    have hstands : ∀ q ∈ rest, q.Stands fs input root := fun q hq => (hrest q hq).of_grows hpage.step_grows
    refine ⟨⟨hwf, hgrows, hstands, horder, ?_, ?_⟩, .inr ⟨hsame, rfl, _, _, _, _, hpage⟩⟩
    · rw [hlater]
      exact List.subset_of_cons_subset hdocs
    · exact List.nodup_cons.2 ⟨source?_eq_none.1 hnew, hs.nodup⟩

/-! ### What has been done -/

/-- The page of a document stands at `l`. Its text was made from the files as they were at `fs₁`. -/
structure PageStands (b : Batch) (input : Path) (root : Location) (fs₀ fs' : FileSystem) (names : List Name)
    (fs₁ : FileSystem) (kind : DocumentKind) (text : String) (l : Location) : Prop where
  ofKind : b.kind? (input.below names) = some kind
  wellFormed : fs₁.WellFormed
  since : Grows (b.pages fs₀ input root) fs₀ fs₁
  later : Grows (b.pages fs₀ input root) fs₁ fs'
  made : pageText b.renderer kind b.options.toChoices (input.below names) fs₁ = .ok text
  prepared : fs'.prepare (b.pageOf names) = (fs', .ok ())
  leads : fs'.locate true (b.pageOf names) = .ok l
  holds : fs'.get? l = some (.file (Text.encode text))
  place : ∃ page r, HasPage b.options.outputFormat names page ∧ fs'.resolve true b.options.outputDir = .ok r ∧
    l = r ++ page

/-- Where the pages of some documents are. -/
def Batch.IsPlace (b : Batch) (fs : FileSystem) (docs : List (List Name)) (l : Location) : Prop :=
  ∃ names ∈ docs, fs.locate true (b.pageOf names) = .ok l

/-- What the work on the documents `docs` has done. -/
structure Completed (b : Batch) (input : Path) (root : Location) (fs₀ fs fs' : FileSystem) (docs : List (List Name))
    (written written' : Written) : Prop where
  written : written' = (docs.map fun names => (b.pageOf names, input.below names)).reverse ++ written
  frame : Grows (b.IsPlace fs' docs) fs fs'
  directories : ∀ l, fs.get? l = none → fs'.get? l = some .directory →
    ∃ names ∈ docs, ∃ q, q.IsAncestor (b.pageOf names) ∧ fs'.locate true q = .ok l
  pages : ∀ names ∈ docs, ∃ fs₁ kind text l, PageStands b input root fs₀ fs' names fs₁ kind text l

theorem Completed.refl (b : Batch) (input : Path) (root : Location) (fs₀ fs : FileSystem) (written : Written) :
    Completed b input root fs₀ fs fs [] written written := by
  refine ⟨rfl, Grows.refl _ fs, ?_, fun names hmem => absurd hmem List.not_mem_nil⟩
  intro l hnone hdir
  rw [hnone] at hdir
  cases hdir

theorem Completed.cons (h : Begins b fs₀ input root) {s s' : Progress} (hs : Underway b input root fs₀ s)
    (hs' : Underway b input root fs₀ s') {names : List Name} {docs : List (List Name)}
    (hmem : names ∈ b.documents fs₀ input root) (hdocs : docs ⊆ b.documents fs₀ input root) {fs₁ fs₂ : FileSystem}
    {kind : DocumentKind} {text : String} {l : Location} (hpage : Page b input names s.fs fs₁ fs₂ kind text l)
    (hrest : Completed b input root fs₀ fs₂ s'.fs docs ((b.pageOf names, input.below names) :: s.written)
      s'.written) :
    Completed b input root fs₀ s.fs s'.fs (names :: docs) s.written s'.written := by
  obtain ⟨-, ⟨page, r, hhas, hresolve, heq⟩, -⟩ := Page.step h hs.grows hmem hpage
  have hresolve' := resolve_of_grows hrest.frame hresolve
  have hleads : s'.fs.locate true (b.pageOf names) = .ok l :=
    locate_of_grows hrest.frame (locate_of_grows hpage.wrote.grows hpage.wrote.leads)
  have hmore : ∀ k, b.IsPlace s'.fs docs k → b.IsPlace s'.fs (names :: docs) k :=
    fun k ⟨other, hother, hk⟩ => ⟨other, List.mem_cons_of_mem names hother, hk⟩
  -- no later page is put at the same place: the places of all pages differ
  have hkeeps : ¬ b.IsPlace s'.fs docs l := by
    rintro ⟨other, hother, hl⟩
    obtain ⟨_, _, _, l', hother_page⟩ := hrest.pages other hother
    obtain ⟨page', r', hhas', hr', heq'⟩ := hother_page.place
    cases hother_page.leads.symm.trans hl
    cases hresolve'.symm.trans hr'
    have hpages : page = page' := List.append_cancel_left (heq.symm.trans heq')
    have hsame : b.pageOf names = b.pageOf other := by
      rw [hhas.pageOf_eq (h.isName_document hmem).2, hhas'.pageOf_eq (h.isName_document (hdocs hother)).2, hpages]
    have hnodup := hs'.nodup
    rw [hrest.written, List.map_append, List.map_cons] at hnodup
    refine (List.nodup_append.1 hnodup).2.2 (b.pageOf other).components ?_ (b.pageOf names).components
      List.mem_cons_self (by rw [hsame])
    rw [List.map_reverse, List.mem_reverse, List.map_map]
    exact List.mem_map.2 ⟨other, hother, rfl⟩
  have hpages_later : Grows (b.pages fs₀ input root) fs₂ s'.fs := by
    refine hrest.frame.mono ?_
    rintro k ⟨other, hother, hk⟩
    exact ⟨other, hdocs hother, leads_of_grows hs'.wellFormed hs'.grows hk⟩
  refine ⟨?_, ?_, ?_, ?_⟩
  · rw [hrest.written]
    simp
  · have hone : b.IsPlace s'.fs (names :: docs) l := ⟨names, List.mem_cons_self, hleads⟩
    exact (hpage.step_grows.mono fun k hk => hk.symm ▸ hone).trans (hrest.frame.mono hmore)
  · intro k hnone hdir
    obtain hold | hnew := (hrest.frame.change k).of_directory hdir
    · obtain ⟨q, hq, hk⟩ := hpage.directories hs.wellFormed hnone hold
      exact ⟨names, List.mem_cons_self, q, hq, locate_of_grows hrest.frame hk⟩
    · obtain ⟨other, hother, q, hq, hk⟩ := hrest.directories k hnew hdir
      exact ⟨other, List.mem_cons_of_mem names hother, q, hq, hk⟩
  · intro other hother
    obtain rfl | hother := List.mem_cons.1 hother
    · have hlater : Grows (b.pages fs₀ input root) fs₁ s'.fs := by
        refine (hpage.wrote.grows.mono fun k hk => ?_).trans hpages_later
        exact ⟨other, hmem, hk ▸ leads_of_grows hs'.wellFormed hs'.grows hleads⟩
      exact ⟨fs₁, kind, text, l, hpage.ofKind, hpage.wellFormed,
        hs.grows.trans (hpage.grows.mono fun _ hfalse => hfalse.elim), hlater, hpage.made,
        prepare_again hpage.prepared hlater, hleads, ((hrest.frame.change l).file_iff hkeeps).2 hpage.wrote.holds,
        page, r, hhas, hresolve', heq⟩
    · exact hrest.pages other hother

/-- A run has made the pages of documents that come before everything that is still to come. -/
theorem Batch.Runs.completed (h : Begins b fs₀ input root) {k : Nat} {s s' : Progress}
    (hruns : b.Runs k s s') (hs : Underway b input root fs₀ s) :
    ∃ docs, s.documents b input root = docs ++ s'.documents b input root ∧
      Completed b input root fs₀ s.fs s'.fs docs s.written s'.written ∧ Underway b input root fs₀ s' ∧
      ∀ names ∈ docs, ∀ q ∈ s'.pending, Precedes names q.names := by
  induction hruns with
  | refl =>
    refine ⟨[], rfl, Completed.refl _ _ _ _ _ _, hs, ?_⟩
    exact fun names hmem => absurd hmem List.not_mem_nil
  | @file k s s' p rest written fs hnext hfile hmore ih =>
    obtain ⟨hs₁, hone⟩ := hs.file h hnext hfile
    obtain ⟨docs, hdocs, hdone, hs', hbefore⟩ := ih hs₁
    obtain ⟨hsame, rfl, rfl⟩ | ⟨hsame, rfl, fs₁, kind, text, l, hpage⟩ := hone
    · exact ⟨docs, hsame.trans hdocs, hdone, hs', hbefore⟩
    · refine ⟨p.names :: docs, by rw [hsame, hdocs]; rfl, ?_, hs', ?_⟩
      · have hsub := hs.documents
        rw [hsame, hdocs] at hsub
        have hrest : docs ⊆ b.documents fs₀ input root := fun names hmem =>
          hsub (List.mem_cons_of_mem _ (List.mem_append_left _ hmem))
        exact Completed.cons h hs hs' (hsub List.mem_cons_self) hrest hpage hdone
      · -- what is pending in the end stands below what was pending after `p`
        intro names hmem q hq
        obtain rfl | hmem := List.mem_cons.1 hmem
        · obtain ⟨r, hr, hbelow⟩ := hmore.pending_below q hq
          have horder := nextFile_inOrder hs.wellFormed hnext hs.inOrder
          exact ((List.pairwise_cons.1 horder).1 r hr).below List.prefix_rfl hbelow
        · exact hbefore names hmem q hq

/-! ### A run from its beginning -/

theorem documents_start (b : Batch) (fs : FileSystem) (input : Path) (root : Location) :
    (Progress.start input fs).documents b input root = b.documents fs input root := by
  have hunder : (fs.filesBelow root).filter (isUnder []) = fs.filesBelow root :=
    List.filter_eq_self.2 fun _ _ => rfl
  rw [Progress.documents, Progress.start, remaining_cons, hunder, remaining, List.flatMap_nil, List.append_nil,
    Batch.documents]

theorem Underway.start (h : Begins b fs₀ input root) : Underway b input root fs₀ (Progress.start input fs₀) := by
  refine ⟨h.wf, Grows.refl _ fs₀, ?_, List.pairwise_singleton _ _, ?_, List.nodup_nil⟩
  · intro p hp
    rw [List.mem_singleton.1 hp]
    refine ⟨rfl, fun _ hname => absurd hname List.not_mem_nil, .directory, ?_⟩
    rw [List.append_nil]
    exact h.directory
  · rw [documents_start]
    exact List.Subset.refl _

/-- A run has reached a state from its beginning, and the documents `docs` are done. -/
structure Reached (b : Batch) (input : Path) (root : Location) (fs₀ : FileSystem) (docs : List (List Name))
    (s : Progress) : Prop where
  runs : ∃ k, b.Runs k (Progress.start input fs₀) s
  documents : b.documents fs₀ input root = docs ++ s.documents b input root
  completed : Completed b input root fs₀ fs₀ s.fs docs [] s.written
  underway : Underway b input root fs₀ s
  precedes : ∀ names ∈ docs, ∀ q ∈ s.pending, Precedes names q.names

/-- The places of the pages that are done, in the order of the visit. -/
theorem Reached.written_eq {docs : List (List Name)} {s : Progress} (hreached : Reached b input root fs₀ docs s) :
    s.written.reverse.map Prod.fst = docs.map b.pageOf := by
  rw [hreached.completed.written, List.append_nil, List.reverse_reverse, List.map_map]
  rfl

/-- The places of the pages that are done are told apart by their components. -/
theorem Reached.apart {docs : List (List Name)} {s : Progress} (hreached : Reached b input root fs₀ docs s) :
    (docs.map fun names => (b.pageOf names).components).Nodup := by
  have hnodup := hreached.underway.nodup
  rw [hreached.completed.written, List.append_nil, List.map_reverse, List.nodup_reverse, List.map_map] at hnodup
  exact hnodup

theorem Reached.nodup {docs : List (List Name)} {s : Progress} (hreached : Reached b input root fs₀ docs s) :
    (docs.map b.pageOf).Nodup := by
  have hapart : ((docs.map b.pageOf).map components).Nodup := by
    rw [List.map_map]
    exact hreached.apart
  exact hapart.of_map _

/-- A run does the first of the documents that were there in the beginning, reports their pages, and ends after
them. -/
theorem processAll_reached (h : Begins b fs₀ input root) {w : World} (hfs : w.fs = fs₀) :
    let run := b.processAll maxFiles [] [⟨input, []⟩] w
    ∃ docs s, Reached b input root fs₀ docs s ∧ b.Ends s run.1 run.2.fs ∧
      run.2.generated = w.generated ++ docs.map b.pageOf := by
  intro run
  subst hfs
  obtain ⟨k, s, hruns, hends, hgenerated⟩ := processAll_ends b h.wf h.leads h.directory
  obtain ⟨docs, hdocs, hdone, hs, hbefore⟩ := Batch.Runs.completed h hruns (Underway.start h)
  have hreached : Reached b input root w.fs docs s := by
    refine ⟨⟨k, hruns⟩, ?_, hdone, hs, hbefore⟩
    rw [← documents_start]
    exact hdocs
  refine ⟨docs, s, hreached, hends, ?_⟩
  rw [← hreached.written_eq]
  exact hgenerated

/-- A run does the first of the documents that were there in the beginning, and ends after them. -/
theorem processAll_spec (h : Begins b fs₀ input root) {w : World} (hfs : w.fs = fs₀) :
    let result := b.processAll maxFiles [] [⟨input, []⟩] w
    ∃ docs s, Reached b input root fs₀ docs s ∧ b.Ends s result.1 result.2.fs := by
  intro result
  obtain ⟨docs, s, hreached, hends, -⟩ := processAll_reached h hfs
  exact ⟨docs, s, hreached, hends⟩

/-! ### The whole run -/

namespace IgnoreSet

/-- The set where there is no ignore file. -/
def defaults : IgnoreSet :=
  (ofText none).toOption.getD ⟨[]⟩

theorem ofText_none : ofText none = .ok defaults :=
  rfl

theorem load_of_text {path : Path} {w : World} {text : String} (h : w.fs.readText path = .ok text) :
    load path w = (ofText (some text), w) := by
  rw [load, Action.ask_bind, h]
  rfl

theorem load_of_error {path : Path} {w : World} {cause : IoError} (h : w.fs.readText path = .error cause) :
    load path w = (.ok defaults, { w with notices := w.notices ++ [.noIgnoreFile path] }) := by
  rw [load, Action.ask_bind, h, ← ofText_none]
  rfl

end IgnoreSet

theorem observes_load (path : Path) : (IgnoreSet.load path).Observes := by
  refine (Action.observes_ask _).bind fun text => ?_
  cases text with
  | ok text => exact Action.observes_ofExcept _
  | error e => exact (Action.observes_report _).bind fun _ => Action.observes_ofExcept _

/-- Why a run does not begin: there is no directory, or its ignore file is not accepted. -/
inductive RefusedFirst (input : Path) (w : World) : Error → World → Prop where
  | notDirectory (hdir : w.fs.isDirectory input = false) :
      RefusedFirst input w (.document input.display "not a directory") w
  | badIgnoreFile {e : Error} {w' : World} (hdir : w.fs.isDirectory input = true)
      (hload : IgnoreSet.load (input.join IgnoreSet.fileName) w = (.error e, w')) : RefusedFirst input w e w'

theorem RefusedFirst.fs_eq {input : Path} {w w' : World} {e : Error} (h : RefusedFirst input w e w') :
    w'.fs = w.fs := by
  cases h with
  | notDirectory => rfl
  | badIgnoreFile _ hload =>
    have hobserves := (observes_load (input.join IgnoreSet.fileName) w).1
    rw [hload] at hobserves
    exact hobserves

/-- A run with an ignore file that is accepted goes through the files of a directory. -/
theorem processDirectory_of_load {renderer : Renderer} {input : Path} {options : DirectoryOptions}
    {ignored : IgnoreSet} {result : Except Error Written} {w w₁ w' : World} (hdir : w.fs.isDirectory input = true)
    (hload : IgnoreSet.load (input.join IgnoreSet.fileName) w = (.ok ignored, w₁))
    (hall : Batch.processAll ⟨renderer, options, ignored⟩ maxFiles [] [⟨input, []⟩] w₁ = (result, w')) :
    processDirectory renderer input options w = (result.map fun pages => pages.reverse.map Prod.fst, w') := by
  rw [processDirectory, Action.ask_bind, hdir, if_pos rfl, Action.bind_of_ok _ hload, Action.bind_eq, hall]
  cases result with
  | error e => rfl
  | ok pages => rfl

/-- A run over a directory with one file does the work on it. -/
theorem processDirectory_single {renderer : Renderer} {input : Path} {options : DirectoryOptions}
    {ignored : IgnoreSet} {p : Pending} {written : Written} {w w₁ w' : World} (hdir : w.fs.isDirectory input = true)
    (hload : IgnoreSet.load (input.join IgnoreSet.fileName) w = (.ok ignored, w₁))
    (hnext : nextFile w₁.fs (w₁.fs.entries.length + 2) [⟨input, []⟩] = .ok (some (p, [])))
    (hfile : Batch.processFile ⟨renderer, options, ignored⟩ [] p w₁ = (.ok written, w')) :
    processDirectory renderer input options w = (.ok (written.reverse.map Prod.fst), w') := by
  obtain ⟨n, hlimit⟩ := @exists_maxFiles 2 (by decide)
  have hall : Batch.processAll ⟨renderer, options, ignored⟩ maxFiles [] [⟨input, []⟩] w₁ = (.ok written, w') := by
    rw [hlimit, Batch.processAll_file hnext hfile]
    exact Batch.processAll_none rfl
  exact processDirectory_of_load hdir hload hall

/-- A run is refused before anything is done, or it goes through the files of a directory. -/
theorem processDirectory_cases (renderer : Renderer) (input : Path) (options : DirectoryOptions) (w : World) :
    let run := processDirectory renderer input options w
    (∃ e, run.1 = .error e ∧ RefusedFirst input w e run.2) ∨
      ∃ root ignored w₁, w.fs.locate true input = .ok root ∧ w.fs.get? root = some .directory ∧
        IgnoreSet.load (input.join IgnoreSet.fileName) w = (.ok ignored, w₁) ∧ w₁.fs = w.fs ∧
        let all := Batch.processAll ⟨renderer, options, ignored⟩ maxFiles [] [⟨input, []⟩] w₁
        run.2 = all.2 ∧ run.1 = all.1.map fun pages => pages.reverse.map Prod.fst := by
  intro run
  cases hdir : w.fs.isDirectory input with
  | false =>
    have hrun : run = (.error (.document input.display "not a directory"), w) := by
      rw [show run = processDirectory renderer input options w from rfl, processDirectory, Action.ask_bind, hdir,
        if_neg Bool.false_ne_true]
      rfl
    rw [hrun]
    exact .inl ⟨_, rfl, .notDirectory hdir⟩
  | true =>
    have hobserves := (observes_load (input.join IgnoreSet.fileName) w).1
    cases hload : IgnoreSet.load (input.join IgnoreSet.fileName) w with
    | mk result w₁ =>
      rw [hload] at hobserves
      cases result with
      | error e =>
        have hrun : run = (.error e, w₁) := by
          rw [show run = processDirectory renderer input options w from rfl, processDirectory, Action.ask_bind, hdir,
            if_pos rfl, Action.bind_eq, hload]
        rw [hrun]
        exact .inl ⟨e, rfl, .badIgnoreFile hdir hload⟩
      | ok ignored =>
        obtain ⟨root, hroot, hentry⟩ := isDirectory_iff.1 hdir
        have hrun := @processDirectory_of_load renderer input options ignored _ w w₁ _ hdir hload rfl
        exact .inr ⟨root, ignored, w₁, hroot, hentry, rfl, hobserves, congrArg Prod.snd hrun, congrArg Prod.fst hrun⟩

theorem RefusedFirst.notices {input : Path} {w w' : World} {e : Error} (h : RefusedFirst input w e w') :
    Notice.Extends (fun n => n = .noIgnoreFile (input.join IgnoreSet.fileName)) w.notices w'.notices := by
  cases h with
  | notDirectory => exact .refl _ w.notices
  | badIgnoreFile _ hload =>
    have hnotices := reports_load (input.join IgnoreSet.fileName) w
    rw [hload] at hnotices
    exact hnotices

/-- What a run over a directory comes to: it is refused before anything is done, or it does the first of the documents,
reports their pages, and ends after them. -/
theorem processDirectory_reached (renderer : Renderer) (input : Path) (options : DirectoryOptions) {w : World}
    (hwf : w.fs.WellFormed)
    (hdistinct : ∀ s ∈ effectiveExtensions options.scriptExtensions,
      Text.asciiLower s ≠ Text.asciiLower options.outputFormat.extension)
    (hlinks : w.fs.LinklessBelow options.outputDir) :
    let run := processDirectory renderer input options w
    (∃ e, run.1 = .error e ∧ RefusedFirst input w e run.2) ∨
      ∃ root ignored w₁, IgnoreSet.load (input.join IgnoreSet.fileName) w = (.ok ignored, w₁) ∧
        let b : Batch := ⟨renderer, options, ignored⟩
        Begins b w.fs input root ∧ ∃ docs s result, Reached b input root w.fs docs s ∧ b.Ends s result run.2.fs ∧
          (run.1 = result.map fun pages => pages.reverse.map Prod.fst) ∧
          run.2.generated = w.generated ++ docs.map b.pageOf := by
  intro run
  obtain hrefused | ⟨root, ignored, w₁, hroot, hdir, hload, hfs, hworld, hresult⟩ :=
    processDirectory_cases renderer input options w
  · exact .inl hrefused
  · have h : Begins ⟨renderer, options, ignored⟩ w.fs input root := ⟨hwf, hroot, hdir, hdistinct, hlinks⟩
    obtain ⟨docs, s, hreached, hends, hgenerated⟩ := processAll_reached h hfs
    have hquiet : w₁.generated = w.generated := by
      have hreports := (reports_load (input.join IgnoreSet.fileName)).mono (Q := Notice.IsQuiet) fun n hn => hn ▸ rfl
      rw [← hreports.generated w, hload]
    refine .inr ⟨root, ignored, w₁, hload, h, docs, s, _, hreached, ?_, hresult, ?_⟩
    · rw [hworld]
      exact hends
    · rw [hworld, hgenerated, hquiet]

/-- What a run over a directory comes to: it is refused before anything is done, or it does the first of the documents
and ends after them. -/
theorem processDirectory_spec (renderer : Renderer) (input : Path) (options : DirectoryOptions) {w : World}
    (hwf : w.fs.WellFormed)
    (hdistinct : ∀ s ∈ effectiveExtensions options.scriptExtensions,
      Text.asciiLower s ≠ Text.asciiLower options.outputFormat.extension)
    (hlinks : w.fs.LinklessBelow options.outputDir) :
    let run := processDirectory renderer input options w
    (∃ e, run.1 = .error e ∧ RefusedFirst input w e run.2) ∨
      ∃ root ignored w₁, IgnoreSet.load (input.join IgnoreSet.fileName) w = (.ok ignored, w₁) ∧
        let b : Batch := ⟨renderer, options, ignored⟩
        Begins b w.fs input root ∧ ∃ docs s result, Reached b input root w.fs docs s ∧ b.Ends s result run.2.fs ∧
          run.1 = result.map fun pages => pages.reverse.map Prod.fst := by
  intro run
  obtain hrefused | ⟨root, ignored, w₁, hload, h, docs, s, result, hreached, hends, hresult, -⟩ :=
    processDirectory_reached renderer input options hwf hdistinct hlinks
  · exact .inl hrefused
  · exact .inr ⟨root, ignored, w₁, hload, h, docs, s, result, hreached, hends, hresult⟩

end Folio
